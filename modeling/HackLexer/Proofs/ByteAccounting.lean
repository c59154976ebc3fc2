import HackLexer.Proofs.Ledger
import HackLexer.Proofs.LexerPlacement

/-!
# Byte accounting of the lexer

The tokens handed out, the ready tokens, the lexemes of open elements and the
outermost open literal form a ledger of the text in front of the cursor.  Each
turn of the lexer is one of the moves that keep a ledger: a scan adds to it,
and closing tags, markup comments and everything inside a literal are joined.

At the end of the text only the tokens handed out remain, so that every byte is
reported by exactly one of them, belongs to a comment, or is layout.
-/

namespace HackLexer

/-- A literal that is still being read, as a token that ends at the cursor. -/
def StringLiteral.covering (cursor : Cursor) (literal : StringLiteral) : Token :=
  { kind := literal.kind
    span := literal.start.spanTo cursor
    line := literal.start.line
    literal := none }

theorem StringLiteral.kind_encloses (literal : StringLiteral) :
    literal.kind.enclosesComments = true := by
  unfold StringLiteral.kind
  split <;> rfl

namespace Lexer

/-- The tokens that wait for being handed out, those of open elements
included. -/
def stock (lexer : Lexer) : List Token :=
  lexer.ready ++ (Element.dissolve lexer.elements).map Lexeme.token

/-- The outermost open literal, which covers the inner ones. -/
def covering (lexer : Lexer) : List Token :=
  (lexer.openLiterals.map (StringLiteral.covering lexer.cursor)).getLast?.toList

/-- What the lexer holds of the text in front of its cursor. -/
def ledger (lexer : Lexer) : List Token :=
  lexer.stock ++ lexer.covering

theorem ledger_of_nil {lexer : Lexer} (closed : lexer.openLiterals = []) :
    lexer.ledger = lexer.stock := by
  simp [ledger, covering, closed]

end Lexer

/-- Behind a lexeme other than a marker, the scan goes on at once. -/
theorem ScanSuccess.stop_of_unmarked {markup : Bool} {cursor : Cursor} {scanned : Scanned}
    {lexeme : Lexeme} (success : ScanSuccess markup cursor scanned)
    (found : scanned.found = .lexeme lexeme)
    (unmarked : lexeme.kind ≠ .unsafeExpr ∧ lexeme.kind ≠ .fixmeExpr) :
    lexeme.stop = scanned.after := by
  cases success with
  | lexeme kind count positive =>
      cases found
      rfl
  | marker kind count positive marked =>
      cases found
      rcases marked with line | block
      · exact absurd line unmarked.1
      · exact absurd block unmarked.2
  | _ => cases found

theorem ScanSuccess.stop_of_gt {markup : Bool} {cursor : Cursor} {scanned : Scanned}
    {lexeme : Lexeme} (success : ScanSuccess markup cursor scanned)
    (found : scanned.found = .lexeme lexeme) (last : lexeme.kind = .gt) :
    lexeme.stop = scanned.after :=
  success.stop_of_unmarked found (by simp [last])

/-- What a scan adds to a ledger. -/
def Scanned.entries (scanned : Scanned) : List Token :=
  match scanned.found with
  | .layout => []
  | .lexeme lexeme => [lexeme.token]
  | .literal literal => [literal.covering scanned.after]
  | .element name => [name.token]

theorem mem_layoutBytes_of_isLayout {character : Char} {byte : UInt8}
    (layout : isLayout character = true)
    (member : byte ∈ String.utf8EncodeChar character) : byte ∈ layoutBytes := by
  have cases : character = ' ' ∨ character = '\t' ∨ character = '\r' ∨
      character = '\x0c' ∨ character = '\n' := by
    simpa [isLayout, isBlank, or_assoc] using layout
  have included : (String.utf8EncodeChar character).all layoutBytes.contains = true := by
    rcases cases with rfl | rfl | rfl | rfl | rfl
    all_goals decide
  exact List.contains_iff_mem.mp (List.all_eq_true.mp included byte member)

namespace Cursor.IsPlaceOf

theorem offset_lt_byteLength {text : Text} {cursor : Cursor}
    (place : cursor.IsPlaceOf text) (remaining : cursor.rest ≠ []) :
    cursor.offset < Text.byteLength text := by
  obtain ⟨front, whole, offset, _⟩ := place.exists_front
  obtain ⟨first, behind, rest⟩ := List.exists_cons_of_ne_nil remaining
  have size := first.utf8Size_pos
  rw [whole, offset, rest, Text.byteLength_append, Text.byteLength_cons]
  omega

/-- What is moved over has characters, unless it starts at the end. -/
theorem filled_or_atEnd {text : Text} {cursor : Cursor} {count : Nat}
    (place : cursor.IsPlaceOf text) (positive : 0 < count) :
    cursor.offset < (cursor.advance count).offset ∨
      (cursor.advance count).offset = Text.byteLength text := by
  by_cases finished : cursor.rest = []
  · right
    rw [advance_of_rest_nil finished]
    exact (place.measures_of_rest_nil finished).1
  · left
    exact offset_lt_advance finished positive

theorem layoutBytes_of_advance {text : Text} {cursor : Cursor} {count : Nat}
    (place : cursor.IsPlaceOf text)
    (layout : (cursor.rest.take count).all isLayout = true) {offset : Nat}
    {byte : UInt8} (low : cursor.offset ≤ offset)
    (high : offset < (cursor.advance count).offset)
    (found : (Text.bytes text)[offset]? = some byte) : byte ∈ layoutBytes := by
  obtain ⟨front, whole, here, _⟩ := place.exists_front
  rw [whole, ← List.take_append_drop count cursor.rest] at found
  have member := Text.mem_bytes_of_getElem? found (by omega)
    (by simpa [Cursor.advance, here] using high)
  obtain ⟨character, taken, encoded⟩ := List.mem_flatMap.mp member
  exact mem_layoutBytes_of_isLayout (List.all_eq_true.mp layout _ taken) encoded

end Cursor.IsPlaceOf

/-- A scan accounts for what it passes over. -/
theorem ScanSuccess.accounted {markup : Bool} {text : Text} {cursor : Cursor}
    {scanned : Scanned} {tokens : List Token} {comments : List Comment}
    (success : ScanSuccess markup cursor scanned) (place : cursor.IsPlaceOf text)
    (remaining : cursor.rest ≠ [])
    (before : Accounted text cursor.offset tokens comments) :
    Accounted text scanned.after.offset (tokens ++ scanned.entries)
      (comments ++ scanned.comment.toList) := by
  have inside := place.offset_lt_byteLength remaining
  have added : ∀ (token : Token) (count : Nat), 0 < count →
      token.span = cursor.spanTo (cursor.advance count) →
      Accounted text (cursor.advance count).offset (tokens ++ [token]) comments := by
    intro token count positive span
    have stop : token.span.stop = (cursor.advance count).offset := by
      rw [span]
      exact (Cursor.Reaches.advance cursor count).stop_spanTo
    have start : token.span.start = cursor.offset := by
      rw [span]
      rfl
    exact before.addToken start stop (Cursor.offset_lt_advance remaining positive)
  cases success with
  | layout count positive blank =>
      simp only [Scanned.entries, List.append_nil, Option.toList_none]
      apply before.pass (Cursor.Reaches.advance cursor count).offset_le
      intro offset byte low high found
      exact place.layoutBytes_of_advance blank low high found
  | comment kind count positive =>
      simp only [Scanned.entries, List.append_nil, Option.toList_some]
      have stop := (Cursor.Reaches.advance cursor count).stop_spanTo
      apply before.addComment rfl stop (place.filled_or_atEnd positive)
      intro earlier member
      exact before.start_lt_limit inside member
  | lexeme kind count positive literal =>
      simp only [Scanned.ofLexeme, Scanned.entries, Option.toList_none,
        List.append_nil]
      exact added _ count positive rfl
  | marker kind count positive marked form more further =>
      simp only [Scanned.entries, Option.toList_some]
      have there : (cursor.advance count).IsPlaceOf text :=
        Cursor.Reaches.thenAdvance place count
      have stop := (Cursor.Reaches.advance (cursor.advance count) more).stop_spanTo
      have marker := added (cursor.lexeme kind count).token count positive rfl
      apply marker.addComment rfl stop (there.filled_or_atEnd further)
      intro earlier member
      have bound := before.behind earlier member
      have forward := earlier.span.start_le_stop
      have moved := Cursor.offset_lt_advance remaining positive
      omega
  | literal form count positive =>
      simp only [Scanned.entries, Option.toList_none, List.append_nil]
      exact added _ count positive rfl
  | element count positive =>
      simp only [Scanned.entries, Option.toList_none, List.append_nil]
      exact added _ count positive rfl

namespace Lexer

theorem covering_of_outerStart {lexer : Lexer} {start : Cursor}
    (outer : lexer.outerStart = some start) :
    ∃ literal, literal ∈ lexer.openLiterals ∧ literal.start = start ∧
      lexer.covering = [literal.covering lexer.cursor] := by
  rw [outerStart, List.getLast?_map, Option.map_eq_some_iff] at outer
  obtain ⟨literal, last, same⟩ := outer
  refine ⟨literal, List.mem_of_getLast? last, same, ?_⟩
  rw [covering, List.getLast?_map, last]
  rfl

/-- While a literal is open, its entry takes in all that is passed over. -/
theorem accounted_of_open {text : Text} {limit : Nat} {tokens run : List Token}
    {comments : List Comment} {lexer after : Lexer}
    (accounted : Accounted text limit (tokens ++ lexer.ledger ++ run) comments)
    (placed : after.Placed text tokens) (opened : lexer.outerStart ≠ none)
    (outer : after.outerStart = lexer.outerStart)
    (stock : after.stock = lexer.stock) (bound : limit ≤ after.cursor.offset) :
    Accounted text after.cursor.offset (tokens ++ after.ledger) comments := by
  obtain ⟨start, outerStart⟩ := Option.ne_none_iff_exists'.mp opened
  obtain ⟨first, _, firstStart, firstCovering⟩ := covering_of_outerStart outerStart
  obtain ⟨last, member, lastStart, lastCovering⟩ :=
    covering_of_outerStart (outer.trans outerStart)
  have stop : (last.covering after.cursor).span.stop = after.cursor.offset :=
    (placed.literals last member).before.stop_spanTo
  rw [ledger, firstCovering] at accounted
  rw [ledger, lastCovering, stock, ← List.append_assoc]
  simp only [List.append_assoc, List.singleton_append] at accounted
  rw [← List.append_assoc] at accounted
  apply accounted.join _ _ stop bound last.kind_encloses
  change last.start.offset = first.start.offset
  rw [firstStart, lastStart]

theorem stock_handBack (lexer : Lexer) (lexemes : List Lexeme) :
    (lexer.handBack lexemes).stock = lexer.stock ++ lexemes.map Lexeme.token := by
  unfold handBack
  split
  · rename_i elements
    simp [stock, elements]
  · rename_i parent outer elements
    simp [stock, elements]

theorem comments_handBack (lexer : Lexer) (lexemes : List Lexeme) :
    (lexer.handBack lexemes).comments = lexer.comments := by
  unfold handBack
  split <;> rfl

theorem openLiterals_handBack (lexer : Lexer) (lexemes : List Lexeme) :
    (lexer.handBack lexemes).openLiterals = lexer.openLiterals := by
  unfold handBack
  split <;> rfl

/-- The tokens handed out and what the lexer holds account for the text in front
of the cursor. -/
def Accounts (text : Text) (tokens : List Token) (lexer : Lexer) : Prop :=
  Accounted text lexer.cursor.offset (tokens ++ lexer.ledger) lexer.comments.toList

theorem interpolations_of_closed {lexer : Lexer} (closed : lexer.openLiterals = []) :
    lexer.interpolations = [] := by
  rw [openLiterals, List.append_eq_nil_iff] at closed
  exact List.map_eq_nil_iff.mp closed.2

theorem accounts_of_closed {text : Text} {tokens : List Token} {lexer : Lexer}
    (closed : lexer.openLiterals = [])
    (accounted : Accounted text lexer.cursor.offset (tokens ++ lexer.stock)
      lexer.comments.toList) : Accounts text tokens lexer := by
  rw [Accounts, ledger_of_nil closed]
  exact accounted

/-- Outside of literals, a lexeme is about to be delivered that is accounted for behind
all that the lexer holds. -/
structure Arrives (text : Text) (tokens : List Token) (lexer : Lexer) (lexeme : Lexeme) :
    Prop where
  ready : lexer.ready = []
  closed : lexer.openLiterals = []
  given : lexeme.PlacedIn text lexer.cursor
  earlier : ∀ held, held ∈ Element.dissolve lexer.elements → held.PlacedIn text lexeme.start
  adjacent : lexeme.kind = .gt → lexeme.stop = lexer.cursor
  accounted : Accounted text lexer.cursor.offset
    (tokens ++ (lexer.stock ++ [lexeme.token])) lexer.comments.toList

namespace Arrives

variable {text : Text} {tokens : List Token} {lexer : Lexer} {lexeme : Lexeme}
  {element after : Element} {outer : List Element}

theorem handing (arrives : lexer.Arrives text tokens lexeme) (elements : lexer.elements = []) :
    Accounts text (tokens ++ [lexeme.token]) lexer := by
  have nothing : lexer.stock = [] := by simp [stock, arrives.ready, elements]
  have accounted := arrives.accounted
  refine accounts_of_closed arrives.closed ?_
  rw [nothing, List.append_nil]
  rw [nothing, List.nil_append] at accounted
  exact accounted

theorem collecting (arrives : lexer.Arrives text tokens lexeme)
    (elements : lexer.elements = element :: outer)
    (receipt : element.receive lexeme = .collecting after) :
    Accounts text tokens { lexer with elements := after :: outer } := by
  refine accounts_of_closed arrives.closed ?_
  have same : { lexer with elements := after :: outer }.stock =
      lexer.stock ++ [lexeme.token] := by
    simp [stock, elements, Element.lexemes_of_collecting receipt]
  rw [same]
  exact arrives.accounted

/-- The lexemes of a closing tag are joined. -/
theorem closing {front name : List Lexeme} {lt slash : Lexeme}
    (arrives : lexer.Arrives text tokens lexeme)
    (elements : lexer.elements = element :: outer) (last : lexeme.kind = .gt)
    (split : element.lexemes = front ++ lt :: slash :: name) :
    Accounted text lexer.cursor.offset
      (tokens ++ ({ lexer with elements := outer }.stock ++
        (front ++ [Element.closing lt lexeme name]).map Lexeme.token))
      lexer.comments.toList := by
  have whole : tokens ++ (lexer.stock ++ [lexeme.token]) =
      (tokens ++ ({ lexer with elements := outer }.stock ++ front.map Lexeme.token)) ++
        lt.token :: slash.token :: (name.map Lexeme.token ++ [lexeme.token]) := by
    simp [stock, elements, split]
  have opener : lt.PlacedIn text lexeme.start := arrives.earlier lt (by simp [elements, split])
  have stop : (Element.closing lt lexeme name).token.span.stop = lexer.cursor.offset := by
    rw [← arrives.adjacent last]
    exact ((opener.stop.trans opener.before).trans arrives.given.stop).stop_spanTo
  have accounted := arrives.accounted
  rw [whole] at accounted
  have tag := accounted.join (Element.closing lt lexeme name).token rfl stop (Nat.le_refl _) rfl
  simpa using tag

theorem complete {lexemes : List Lexeme} (arrives : lexer.Arrives text tokens lexeme)
    (elements : lexer.elements = element :: outer)
    (receipt : element.receive lexeme = .complete lexemes) :
    Accounts text tokens ({ lexer with elements := outer }.handBack lexemes) := by
  refine accounts_of_closed ((openLiterals_handBack _ lexemes).trans arrives.closed) ?_
  rw [cursor_handBack, stock_handBack, comments_handBack]
  rcases Element.lexemes_of_complete receipt with
    whole | ⟨last, front, lt, slash, name, split, joined⟩
  · have same : { lexer with elements := outer }.stock ++ lexemes.map Lexeme.token =
        lexer.stock ++ [lexeme.token] := by
      simp [stock, elements, whole]
    rw [same]
    exact arrives.accounted
  · rw [joined]
    exact arrives.closing elements last split

theorem comment {lt comment : Lexeme} (arrives : lexer.Arrives text tokens lexeme)
    (elements : lexer.elements = element :: outer)
    (receipt : element.receive lexeme = .comment lt after)
    (success : markupComment lt lexer.cursor = .ok comment) :
    Accounts text tokens
      { lexer with cursor := comment.stop, elements := after.push comment :: outer } := by
  obtain ⟨⟨bang, opener⟩, pushed⟩ := Element.lexemes_of_comment receipt
  obtain ⟨kind, start, later⟩ := markupComment_ok success
  refine accounts_of_closed arrives.closed ?_
  have whole : tokens ++ (lexer.stock ++ [lexeme.token]) =
      (tokens ++ ({ lexer with elements := outer }.stock ++ after.lexemes.map Lexeme.token)) ++
        lt.token :: [bang.token, lexeme.token] := by
    simp [stock, elements, opener]
  have same : { lexer with
        cursor := comment.stop
        elements := after.push comment :: outer }.stock =
      { lexer with elements := outer }.stock ++
        (after.lexemes.map Lexeme.token ++ [comment.token]) := by
    simp [stock, pushed]
  have ltPlaced : lt.PlacedIn text lexeme.start :=
    arrives.earlier lt (by simp [elements, opener])
  have reaches := (ltPlaced.stop.trans ltPlaced.before).trans
    ((arrives.given.stop.trans arrives.given.before).trans later)
  have stop : comment.token.span.stop = comment.stop.offset := by
    change (comment.start.spanTo comment.stop).stop = comment.stop.offset
    rw [start]
    exact reaches.stop_spanTo
  have accounted := arrives.accounted
  rw [whole] at accounted
  have merged := accounted.join comment.token (congrArg Cursor.offset start) stop
    later.offset_le (by simp [Lexeme.token, kind, TokenKind.enclosesComments])
  rw [same]
  simpa using merged

end Arrives

theorem Delivery.accounts {text : Text} {tokens : List Token} {lexer : Lexer}
    {lexeme : Lexeme} {step : Step} (delivery : lexer.Delivery lexeme step)
    (arrives : lexer.Arrives text tokens lexeme) :
    step.Keeps (Accounts text) (fun _ => True) tokens := by
  have outside : lexer.interpolations = [] := interpolations_of_closed arrives.closed
  cases delivery with
  | within interpolations =>
      rw [outside] at interpolations
      cases interpolations
  | ended interpolations =>
      rw [outside] at interpolations
      cases interpolations
  | token _ elements => exact arrives.handing elements
  | collecting _ elements receipt => exact arrives.collecting elements receipt
  | complete _ elements receipt => exact arrives.complete elements receipt
  | comment _ elements receipt success => exact arrives.comment elements receipt success
  | unclosedComment => trivial

theorem Accounts.finish {text : Text} {tokens : List Token} {lexer : Lexer}
    (accounts : Accounts text tokens lexer) (ready : lexer.ready = [])
    (literal : lexer.literal = none) :
    (Step.pulled lexer.finish).Keeps (Accounts text) (fun _ => True) tokens := by
  unfold Lexer.finish
  split
  · trivial
  · rename_i outside
    have closed : lexer.openLiterals = [] := by simp [openLiterals, literal, outside]
    split
    · exact accounts
    · rename_i lexeme more dissolved
      rw [Accounts, ledger_of_nil closed] at accounts
      refine accounts_of_closed closed ?_
      simpa [stock, ready, dissolved] using accounts

theorem toList_comments_passing (lexer : Lexer) (scanned : Scanned) :
    (lexer.passing scanned).comments.toList =
      lexer.comments.toList ++ scanned.comment.toList := by
  cases passed : scanned.comment with
  | none => simp [passing, Scanned.commentsBehind, passed]
  | some comment => simp [passing, Scanned.commentsBehind, passed]

/-- Inside an interpolation, what is delivered goes into the open literals. -/
theorem Delivery.inside {lexer : Lexer} {lexeme : Lexeme} {step : Step}
    (delivery : lexer.Delivery lexeme step) (literal : lexer.literal = none)
    (inside : lexer.interpolations ≠ []) :
    ∃ after, step = .moved after ∧ after.cursor = lexer.cursor ∧
      after.stock = lexer.stock ∧ after.comments = lexer.comments ∧
      after.outerStart = lexer.outerStart := by
  cases delivery with
  | @within interpolation after outer interpolations receipt =>
      refine ⟨_, rfl, rfl, rfl, rfl, ?_⟩
      simp [outerStart, openLiterals, literal, interpolations,
        Interpolation.literal_of_within receipt, StringLiteral.append]
  | @ended interpolation outer resumed interpolations receipt =>
      refine ⟨_, rfl, rfl, rfl, rfl, ?_⟩
      simp [outerStart, openLiterals, literal, interpolations,
        Interpolation.literal_of_ended receipt, StringLiteral.append]
  | token outside => exact absurd outside inside
  | collecting outside => exact absurd outside inside
  | complete outside => exact absurd outside inside
  | comment outside => exact absurd outside inside
  | unclosedComment outside => exact absurd outside inside

theorem Delivery.accounts_inside {text : Text} {limit : Nat} {tokens run : List Token}
    {before lexer : Lexer} {lexeme : Lexeme} {step : Step}
    (delivery : lexer.Delivery lexeme step) (literal : lexer.literal = none)
    (inside : lexer.interpolations ≠ [])
    (kept : step.Keeps (Placed text) (LexicalError.PlacedIn text) tokens)
    (accounted : Accounted text limit (tokens ++ before.ledger ++ run) lexer.comments.toList)
    (opened : before.outerStart ≠ none) (outer : lexer.outerStart = before.outerStart)
    (stock : lexer.stock = before.stock) (bound : limit ≤ lexer.cursor.offset) :
    step.Keeps (Accounts text) (fun _ => True) tokens := by
  obtain ⟨after, moved, cursor, sameStock, comments, sameOuter⟩ :=
    delivery.inside literal inside
  subst moved
  change Accounted _ _ _ _
  rw [comments]
  apply accounted_of_open accounted kept opened (sameOuter.trans outer) (sameStock.trans stock)
  rw [cursor]
  exact bound

namespace Accounts

section Turns

variable {text : Text} {tokens : List Token} {lexer : Lexer}

theorem handingReady {token : Token} {more : List Token} (accounts : lexer.Accounts text tokens)
    (ready : lexer.ready = token :: more) :
    Accounts text (tokens ++ [token]) { lexer with ready := more } := by
  have same : (tokens ++ [token]) ++ { lexer with ready := more }.ledger =
      tokens ++ lexer.ledger := by
    simp [ledger, stock, covering, openLiterals, ready]
  rw [Accounts, same]
  exact accounts

/-- Outside of interpolations, a literal that is closed arrives in place of its entry. -/
theorem arrives_closed {literal : StringLiteral} {lexeme : Lexeme}
    (accounts : lexer.Accounts text tokens) (placed : lexer.Placed text tokens)
    (ready : lexer.ready = []) (opened : lexer.literal = some literal)
    (reading : literal.read lexer.cursor = .closed lexeme)
    (outside : lexer.interpolations = []) :
    Arrives text tokens { lexer with cursor := lexeme.stop, literal := none } lexeme := by
  obtain ⟨kind, start, reaches⟩ := StringLiteral.read_closed_places reading
  have given := placed.closed_lexeme opened reading
  have encloses : lexeme.token.kind.enclosesComments = true := by
    change lexeme.kind.enclosesComments = true
    rw [kind]
    exact literal.kind_encloses
  have covers : lexer.ledger = lexer.stock ++ [literal.covering lexer.cursor] := by
    simp [ledger, covering, openLiterals, opened, outside]
  rw [Accounts, covers, ← List.append_assoc] at accounts
  have string := accounts.join lexeme.token (congrArg Cursor.offset start)
    given.stop.stop_spanTo reaches.offset_le encloses
  refine
    { ready, given
      closed := by simp [openLiterals, outside]
      earlier := placed.held_before_closed opened reading outside
      adjacent := fun _ => rfl
      accounted := ?_ }
  rw [← List.append_assoc]
  exact string

theorem closed {literal : StringLiteral} {lexeme : Lexeme} {step : Step}
    (accounts : lexer.Accounts text tokens) (placed : lexer.Placed text tokens)
    (ready : lexer.ready = []) (opened : lexer.literal = some literal)
    (reading : literal.read lexer.cursor = .closed lexeme)
    (delivery : Delivery { lexer with cursor := lexeme.stop, literal := none } lexeme step)
    (kept : step.Keeps (Placed text) (LexicalError.PlacedIn text) tokens) :
    step.Keeps (Accounts text) (fun _ => True) tokens := by
  by_cases outside : lexer.interpolations = []
  · exact delivery.accounts (accounts.arrives_closed placed ready opened reading outside)
  · have within : lexer.openLiterals ≠ [] := by simp [openLiterals, opened]
    have reaches := (StringLiteral.read_closed_places reading).2.2
    rw [Accounts, ← List.append_nil (tokens ++ lexer.ledger)] at accounts
    exact delivery.accounts_inside rfl outside kept accounts (outerStart_ne_none within)
      (outerStart_with_literal none outside) rfl reaches.offset_le

theorem interrupted {literal suspended : StringLiteral} {after : Cursor}
    (accounts : lexer.Accounts text tokens) (opened : lexer.literal = some literal)
    (reading : literal.read lexer.cursor = .interpolation suspended after)
    (kept : Placed text tokens
      { lexer with
        cursor := after
        literal := none
        interpolations := { literal := suspended, depth := 0 } :: lexer.interpolations }) :
    Accounts text tokens
      { lexer with
        cursor := after
        literal := none
        interpolations := { literal := suspended, depth := 0 } :: lexer.interpolations } := by
  obtain ⟨start, reaches⟩ := StringLiteral.read_interpolation_places reading
  have within : lexer.openLiterals ≠ [] := by simp [openLiterals, opened]
  rw [Accounts, ← List.append_nil (tokens ++ lexer.ledger)] at accounts
  apply accounted_of_open accounts kept (outerStart_ne_none within) _ rfl reaches.offset_le
  simp [outerStart, openLiterals, opened, start]

end Turns

section Scans

variable {text : Text} {tokens : List Token} {lexer : Lexer} {scanned : Scanned}
  (accounts : lexer.Accounts text tokens) (placed : lexer.Placed text tokens)
  (remaining : lexer.cursor.rest ≠ [])
  (success : scan lexer.interpolations.isEmpty lexer.cursor = .ok scanned)

include accounts placed remaining success

theorem passing :
    Accounted text scanned.after.offset (tokens ++ lexer.ledger ++ scanned.entries)
      (lexer.passing scanned).comments.toList := by
  rw [toList_comments_passing]
  exact (scan_success success).accounted placed.cursor remaining accounts

theorem layout (found : scanned.found = .layout)
    (kept : (lexer.passing scanned).Placed text tokens) :
    (lexer.passing scanned).Accounts text tokens := by
  have passed := accounts.passing placed remaining success
  have nothing : scanned.entries = [] := by simp [Scanned.entries, found]
  by_cases closed : lexer.openLiterals = []
  · refine accounts_of_closed closed ?_
    rw [nothing, List.append_nil, ledger_of_nil closed] at passed
    exact passed
  · exact accounted_of_open passed kept (outerStart_ne_none closed) rfl rfl (Nat.le_refl _)

variable (noLiteral : lexer.literal = none)

include noLiteral

theorem arrives_lexeme {lexeme : Lexeme} (ready : lexer.ready = [])
    (found : scanned.found = .lexeme lexeme) (outside : lexer.interpolations = []) :
    (lexer.passing scanned).Arrives text tokens lexeme := by
  have outcome := scan_success success
  have passed := accounts.passing placed remaining success
  have added : scanned.entries = [lexeme.token] := by simp [Scanned.entries, found]
  have closed : lexer.openLiterals = [] := by simp [openLiterals, noLiteral, outside]
  rw [added, ledger_of_nil closed, List.append_assoc] at passed
  exact
    { ready, closed
      given := outcome.lexeme_placed placed.cursor remaining found
      earlier := placed.held_before_lexeme noLiteral outcome found outside
      adjacent := outcome.stop_of_gt found
      accounted := passed }

theorem lexeme {lexeme : Lexeme} {step : Step} (ready : lexer.ready = [])
    (found : scanned.found = .lexeme lexeme)
    (delivery : (lexer.passing scanned).Delivery lexeme step)
    (kept : step.Keeps (Placed text) (LexicalError.PlacedIn text) tokens) :
    step.Keeps (Accounts text) (fun _ => True) tokens := by
  by_cases outside : lexer.interpolations = []
  · exact delivery.accounts
      (accounts.arrives_lexeme placed remaining success noLiteral ready found outside)
  · have within : lexer.openLiterals ≠ [] := by simp [openLiterals, outside]
    exact delivery.accounts_inside noLiteral outside kept
      (accounts.passing placed remaining success) (outerStart_ne_none within) rfl rfl
      (Nat.le_refl _)

theorem literal {opened : StringLiteral} (found : scanned.found = .literal opened)
    (kept : Placed text tokens { lexer.passing scanned with literal := some opened }) :
    Accounts text tokens { lexer.passing scanned with literal := some opened } := by
  have passed := accounts.passing placed remaining success
  have added : scanned.entries = [opened.covering scanned.after] := by
    simp [Scanned.entries, found]
  by_cases outside : lexer.interpolations = []
  · have closed : lexer.openLiterals = [] := by simp [openLiterals, noLiteral, outside]
    have same : { lexer.passing scanned with literal := some opened }.ledger =
        lexer.stock ++ [opened.covering scanned.after] := by
      simp [ledger, covering, openLiterals, stock, Lexer.passing, outside]
    rw [added, ledger_of_nil closed, List.append_assoc] at passed
    rw [Accounts, same]
    exact passed
  · have within : lexer.openLiterals ≠ [] := by simp [openLiterals, outside]
    exact accounted_of_open passed kept (outerStart_ne_none within)
      (outerStart_with_literal (some opened) outside) rfl (Nat.le_refl _)

theorem element {name : Lexeme} (found : scanned.found = .element name) :
    Accounts text tokens
      { lexer.passing scanned with elements := .opened name :: lexer.elements } := by
  have passed := accounts.passing placed remaining success
  have added : scanned.entries = [name.token] := by simp [Scanned.entries, found]
  have outside : lexer.interpolations = [] :=
    List.isEmpty_iff.mp ((scan_success success).markup_of_element found)
  have closed : lexer.openLiterals = [] := by simp [openLiterals, noLiteral, outside]
  rw [added, ledger_of_nil closed] at passed
  refine accounts_of_closed closed ?_
  have same : { lexer.passing scanned with
      elements := .opened name :: lexer.elements }.stock =
        lexer.stock ++ [name.token] := by
    simp [stock, Lexer.passing]
  rw [same, ← List.append_assoc]
  exact passed

end Scans

theorem turn {text : Text} {tokens : List Token} {lexer : Lexer} {step : Step}
    (accounts : lexer.Accounts text tokens) (placed : lexer.Placed text tokens)
    (turn : lexer.Turn step)
    (kept : step.Keeps (Placed text) (LexicalError.PlacedIn text) tokens) :
    step.Keeps (Accounts text) (fun _ => True) tokens := by
  cases turn with
  | ready ready => exact accounts.handingReady ready
  | closed ready opened reading delivery =>
      exact accounts.closed placed ready opened reading delivery kept
  | interrupted ready opened reading => exact accounts.interrupted opened reading kept
  | unclosed => trivial
  | finished ready literal finished => exact accounts.finish ready literal
  | failed => trivial
  | layout ready literal remaining success found =>
      exact accounts.layout placed remaining success found kept
  | lexeme ready literal remaining success found delivery =>
      exact accounts.lexeme placed remaining success literal ready found delivery kept
  | literal ready literal remaining success found =>
      exact accounts.literal placed remaining success literal found kept
  | element ready literal remaining success found =>
      exact accounts.element placed remaining success literal found

end Accounts

theorem Run.accounts {text : Text} {tokens : List Token} {lexer : Lexer}
    (run : Run text tokens lexer) : Accounts text tokens lexer := by
  have initially : Accounts text [] (.ofText text) :=
    accounts_of_closed rfl (Accounted.nil text)
  have kept : ∀ tokens lexer, Run text tokens lexer → Accounts text tokens lexer →
      lexer.step.Keeps (Accounts text) (fun _ => True) tokens := by
    intro tokens lexer run accounts
    have turn := lexer.step_turn
    exact accounts.turn run.placed turn (run.placed.turn turn)
  exact run.invariant initially kept

end Lexer

/-- A text that can be lexed is accounted for by its tokens and comments. -/
theorem accounted_of_tokenize {text : Text} {result : Tokenized}
    (success : tokenize text = .ok result) :
    Accounted text (Text.byteLength text) result.tokens result.comments := by
  obtain ⟨before, last, run, answered, comments⟩ := tokenize_ok success
  obtain ⟨same, exhausted⟩ := Lexer.endOfText_step answered
  have accounts := run.accounts
  have atEnd := (run.placed.cursor.measures_of_rest_nil exhausted.finished).1
  have nothing : before.ledger = [] := by
    simp [Lexer.ledger, Lexer.stock, Lexer.covering, Lexer.openLiterals,
      exhausted.ready, exhausted.held, exhausted.literal, exhausted.interpolations]
  rw [Lexer.Accounts, nothing, List.append_nil, atEnd] at accounts
  rw [comments, same]
  exact accounts

/-- What a text that can be lexed is cut into are parts of it. -/
theorem span?_of_tokenize {source : Source} {result : Tokenized}
    (success : tokenize source.content = .ok result) :
    (∀ token, token ∈ result.tokens →
      source.span? token.span.start token.span.stop = some token.span) ∧
    ∀ comment, comment ∈ result.comments →
      source.span? comment.span.start comment.span.stop = some comment.span := by
  obtain ⟨before, last, run, answered, comments⟩ := tokenize_ok success
  obtain ⟨same, _⟩ := Lexer.endOfText_step answered
  have placed := run.placed
  refine ⟨fun token member => (placed.tokens token member).span?_eq, ?_⟩
  intro comment member
  rw [comments, same, Array.mem_toList_iff] at member
  exact (placed.comments comment member).span?_eq

/-- Every byte of a source that can be lexed is accounted for exactly once. -/
theorem tokenize_accounts_for_bytes {source : Source} {result : Tokenized}
    (success : tokenize source.content = .ok result) :
    (∀ token, token ∈ result.tokens →
      source.span? token.span.start token.span.stop = some token.span ∧
        token.span.start < token.span.stop) ∧
    result.tokens.Pairwise (fun earlier later =>
      earlier.span.start < later.span.start ∧ earlier.span.Before later.span) ∧
    (∀ comment, comment ∈ result.comments →
      source.span? comment.span.start comment.span.stop = some comment.span) ∧
    result.comments.Pairwise (fun earlier later =>
      earlier.span.start < later.span.start ∧ earlier.span.Before later.span) ∧
    (∀ comment, comment ∈ result.comments →
      (∀ token, token ∈ result.tokens →
        comment.span.Before token.span ∨ token.span.Before comment.span) ∨
      ∃ token, token ∈ result.tokens ∧ comment.span.Within token.span ∧
        token.kind ∈ [.doubleQuotedString, .heredoc, .xhpClosing, .xhpComment] ∧
        ∀ other, other ∈ result.tokens → comment.span.Within other.span →
          other = token) ∧
    (∀ offset byte, (Text.bytes source.content)[offset]? = some byte →
      (∀ token, token ∈ result.tokens → ¬ token.span.Covers offset) →
      (∀ comment, comment ∈ result.comments → ¬ comment.span.Covers offset) →
      byte ∈ layoutBytes) := by
  have accounted := accounted_of_tokenize success
  obtain ⟨tokenCuts, commentCuts⟩ := span?_of_tokenize success
  refine ⟨?_, accounted.strictlyOrdered, commentCuts, accounted.inOrder, ?_, ?_⟩
  · intro token member
    exact ⟨tokenCuts token member, accounted.nonempty token member⟩
  · intro comment member
    rcases accounted.separate comment member with
      apart | ⟨token, tokenMember, within, encloses⟩
    · exact .inl apart
    · refine .inr ⟨token, tokenMember, within, ?_, ?_⟩
      · exact TokenKind.mem_of_enclosesComments encloses
      · intro other otherMember also
        exact accounted.unique_outer rfl member otherMember tokenMember also within
  · intro offset byte found outside between
    apply accounted.gaps offset byte _ found outside between
    rw [← Text.length_bytes]
    exact (List.getElem?_eq_some_iff.mp found).1

/-- A comment in an interpolation, another one in the closing tag of a nested
element, and an element that the text leaves open: both comments are inside of
tokens, which no others overlap. -/
theorem bytes_accounted_in_nested_markup :
    let source : Source :=
      { path := "a.hack"
        content := "\"b\x7b$c/*d*/\x7d\" <e><f></f\n//g\n> <i".toList }
    ∃ result, tokenize source.content = .ok result ∧
      result.tokens.map (fun token => (token.span.start, token.span.stop)) =
        [(0, 12), (13, 15), (15, 16), (16, 18), (18, 19), (19, 28), (29, 31)] ∧
      result.comments.map (fun comment => (comment.span.start, comment.span.stop)) =
        [(5, 10), (23, 27)] ∧
      result.tokens.Pairwise (fun earlier later =>
        earlier.span.start < later.span.start ∧ earlier.span.Before later.span) := by
  intro source
  have lexed : (tokenize source.content).toOption.map (fun result =>
      (result.tokens.map (fun token => (token.span.start, token.span.stop)),
        result.comments.map fun comment =>
          (comment.span.start, comment.span.stop))) =
      some ([(0, 12), (13, 15), (15, 16), (16, 18), (18, 19), (19, 28), (29, 31)],
        [(5, 10), (23, 27)]) := by
    decide +kernel
  cases outcome : tokenize source.content with
  | error error =>
      rw [outcome] at lexed
      cases lexed
  | ok result =>
      rw [outcome] at lexed
      obtain ⟨tokens, comments⟩ := Prod.mk.inj (Option.some.inj lexed)
      have accounts := tokenize_accounts_for_bytes outcome
      exact ⟨result, rfl, tokens, comments, accounts.2.1⟩

end HackLexer
