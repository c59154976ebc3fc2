import HackLexer.Proofs.LiteralsInContext

/-!
# Lexing a token once more

The characters of a token, taken as a text of their own, are lexed to that token
alone.  So neither what stands before or behind a token nor an element around it
changes what the token is or how its value is decoded.

Three kinds of tokens are no tokens on their own: the marker in front of a block
comment, which is left open, closing tags and markup comments, which stand only
inside of an element.  The main statement is `tokenize_token_text`.
-/

namespace HackLexer

/-- The tokens of these kinds need what stands around them. -/
def TokenKind.needsContext : TokenKind → Bool
  | .fixmeExpr | .xhpClosing | .xhpComment => true
  | _ => false

/-- A token as the only one of a text. -/
def Token.alone (token : Token) : Token :=
  { token with span := { start := 0, text := token.span.text }, line := 0 }

def Pulled.token? : Pulled → Option Token
  | .token handed _ => some handed
  | _ => none

/-- The characters of a token are lexed to that token. -/
def Token.Relexes (token : Token) : Prop :=
  ∃ comments, tokenize token.span.text = .ok { tokens := [token.alone], comments }

/-- A token that needs what stands around it, or else is lexed to itself. -/
def Token.Stable (token : Token) : Prop :=
  token.kind.needsContext = false → token.Relexes

namespace Lexer

theorem drain_of_stride_token {lexer after : Lexer} {token : Token} (outside : lexer.Outside)
    (strode : lexer.stride = .pulled (.token token after)) (done : after.Done) :
    lexer.drain = .ok ([token], after) := by
  rw [drain_of_stride outside, strode]
  dsimp only
  rw [done.drain_eq]
  rfl

end Lexer

section Single

variable {text : Text} {scanned : Scanned}

theorem tokenize_lexeme {lexeme : Lexeme} (remaining : text ≠ [])
    (success : scan true (.atStart text) = .ok scanned)
    (found : scanned.found = .lexeme lexeme) (finished : scanned.after.rest = []) :
    tokenize text =
      .ok
        { tokens := [lexeme.token]
          comments := (scanned.commentsBehind #[]).toList } := by
  let after := (Lexer.ofText text).passing scanned
  have stride : (Lexer.ofText text).stride = .pulled (.token lexeme.token after) := by
    have scans : scan true (Lexer.ofText text).cursor = .ok scanned := success
    rw [Lexer.stride_of_scan rfl remaining, scans]
    simp only [Lexer.takeIn, found, Lexer.accept_eq]
    rfl
  have done : after.Done := ⟨⟨rfl, rfl⟩, rfl, rfl, finished⟩
  unfold tokenize
  rw [Lexer.drain_of_stride_token (Lexer.outside_ofText text) stride done]
  rfl

theorem tokenize_literal {literal : StringLiteral} {read : Piece scanned.after}
    (remaining : text ≠ []) (success : scan true (.atStart text) = .ok scanned)
    (found : scanned.found = .literal literal)
    (reads : readLiteral literal.start literal.form scanned.after #[] = .ok read)
    (finished : read.after.rest = []) :
    tokenize text =
      .ok
        { tokens := [(literal.lexeme read.text read.after).token]
          comments := read.comments.toList } := by
  let after := (Lexer.ofText text).behind read.after read.comments
  have stride : (Lexer.ofText text).stride =
      .pulled (.token (literal.lexeme read.text read.after).token after) := by
    have scans : scan true (Lexer.ofText text).cursor = .ok scanned := success
    rw [Lexer.stride_of_scan rfl remaining, scans]
    simp only [Lexer.takeIn, found, Lexer.readOpened, Lexer.ofText, reads]
    rfl
  have done : after.Done := ⟨⟨rfl, rfl⟩, rfl, rfl, finished⟩
  unfold tokenize
  rw [Lexer.drain_of_stride_token (Lexer.outside_ofText text) stride done]
  rfl

/-- The element of a name is left open and dissolves. -/
theorem tokenize_name {name : Lexeme} (remaining : text ≠ [])
    (success : scan true (.atStart text) = .ok scanned)
    (found : scanned.found = .element name) (finished : scanned.after.rest = []) :
    tokenize text =
      .ok
        { tokens := [name.token]
          comments := (scanned.commentsBehind #[]).toList } := by
  let opened := { (Lexer.ofText text).passing scanned with elements := [.opened name] }
  let after := { opened with elements := [] }
  have stride : (Lexer.ofText text).stride = .moved opened := by
    have scans : scan true (Lexer.ofText text).cursor = .ok scanned := success
    rw [Lexer.stride_of_scan rfl remaining, scans]
    simp only [Lexer.takeIn, found, Lexer.accept_eq]
    rfl
  have last : opened.stride = .pulled (.token name.token after) := by
    have rest : opened.cursor.rest = [] := finished
    simp only [Lexer.stride, rest]
    rfl
  have done : after.Done := ⟨⟨rfl, rfl⟩, rfl, rfl, finished⟩
  have outside : opened.Outside := ⟨rfl, rfl⟩
  unfold tokenize
  rw [Lexer.drain_of_stride (Lexer.outside_ofText text), stride]
  dsimp only
  rw [Lexer.drain_of_stride_token outside last done]
  rfl

/-- The lexeme that a scan has found complete. -/
def Found.lexeme? : Found → Option Lexeme
  | .lexeme complete => some complete
  | .element name => some name
  | _ => none

theorem tokenize_single {lexeme : Lexeme} (remaining : text ≠ [])
    (success : scan true (.atStart text) = .ok scanned)
    (found : scanned.found.lexeme? = some lexeme) (finished : scanned.after.rest = []) :
    ∃ comments, tokenize text = .ok { tokens := [lexeme.token], comments } := by
  cases single : scanned.found with
  | lexeme complete =>
      rw [single] at found
      cases found
      exact ⟨_, tokenize_lexeme remaining success single finished⟩
  | element name =>
      rw [single] at found
      cases found
      exact ⟨_, tokenize_name remaining success single finished⟩
  | _ =>
      rw [single] at found
      cases found

end Single

/-- The context in which a front part of what follows a cursor stands. -/
def Cursor.around (cursor : Cursor) (tail : Text) : Context :=
  { bytes := cursor.offset, lines := cursor.line, tail }

theorem Cursor.atStart_take_inside (cursor : Cursor) (count : Nat) :
    (Cursor.atStart (cursor.rest.take count)).inside
      (cursor.around (cursor.rest.drop count)) = cursor := by
  obtain ⟨offset, line, rest⟩ := cursor
  simp only [atStart, inside, around, Nat.add_zero, List.take_append_drop]

theorem Cursor.take_ne_nil {cursor : Cursor} {count : Nat} (remaining : cursor.rest ≠ [])
    (positive : 0 < count) : cursor.rest.take count ≠ [] := by
  rw [Ne, List.take_eq_nil_iff, not_or]
  exact ⟨Nat.ne_of_gt positive, remaining⟩

section Alone

variable {context : Context} {cursor : Cursor}

/-- A scan that stays within a text gives the same in the text alone. -/
theorem scan_alone {markup : Bool} {scanned : Scanned} (remaining : cursor.rest ≠ [])
    (success : scan markup (cursor.inside context) = .ok scanned)
    (within : context.tail.length ≤ scanned.after.rest.length) :
    ∃ alone, scan markup cursor = .ok alone ∧ scanned = alone.inside context := by
  rcases scan_agrees markup remaining with same | ⟨_, overruns, _⟩
  · have inside : scan markup (cursor.inside context) =
        outcomeInside context (Scanned.inside context) (scan markup cursor) :=
      Option.some.inj same
    rw [success] at inside
    cases alone : scan markup cursor with
    | error error =>
        rw [alone] at inside
        cases inside
    | ok found =>
        rw [alone] at inside
        exact ⟨found, rfl, Except.ok.inj inside⟩
  · rw [success] at overruns
    exact absurd overruns (Nat.not_lt_of_le within)

theorem readLiteral_alone {start : Cursor} {form : LiteralForm} {comments : Array Comment}
    {read : Piece (cursor.inside context)} (proper : form.Proper)
    (success : readLiteral (start.inside context) form (cursor.inside context) comments =
      .ok read)
    (within : context.tail.length ≤ read.after.rest.length) :
    ∃ alone : Piece cursor, readLiteral start form cursor #[] = .ok alone ∧
      read.text = alone.text ∧ read.after = alone.after.inside context := by
  have agrees := (reading_agrees context cursor).1 start form #[] comments _ proper rfl
  have earlier : commentsInside context comments #[] = comments := by simp [commentsInside]
  rw [earlier, success] at agrees
  rcases agrees with alike | ⟨_, overruns, _⟩
  · cases alone : readLiteral start form cursor #[] with
    | error error =>
        rw [alone] at alike
        exact alike.elim
    | ok piece =>
        rw [alone] at alike
        exact ⟨piece, rfl, alike.1, alike.2.1⟩
  · exact absurd overruns (Nat.not_lt_of_le within)

/-- What stands at the front of a text is the same token wherever the text stands. -/
theorem Lexeme.token_alone {lexeme : Lexeme} {text : Text}
    (starts : (lexeme.inside context).start = (Cursor.atStart text).inside context)
    (reaches : lexeme.start.Reaches lexeme.stop) :
    lexeme.token = (lexeme.inside context).token.alone := by
  have start : lexeme.start = .atStart text := Cursor.inside_injective starts
  rw [Lexeme.token_inside reaches]
  simp only [Lexeme.token, Lexeme.span, Cursor.spanTo, Token.alone, Token.shift, Span.shift,
    start, Cursor.atStart]

end Alone

section Front

variable {cursor : Cursor} {scanned : Scanned} {count : Nat}

/-- Scanning only the next characters, if the scan goes no further. -/
theorem scan_front (remaining : cursor.rest ≠ []) (positive : 0 < count)
    (success : scan true cursor = .ok scanned)
    (within : (cursor.rest.drop count).length ≤ scanned.after.rest.length) :
    ∃ alone, scan true (.atStart (cursor.rest.take count)) = .ok alone ∧
      scanned = alone.inside (cursor.around (cursor.rest.drop count)) := by
  rw [← cursor.atStart_take_inside count] at success
  exact scan_alone (Cursor.take_ne_nil remaining positive) success within

/-- Where a counterpart ends with the text, it has come to the end of the text. -/
theorem finished_of_inside {after : Cursor}
    (stops : after.inside (cursor.around (cursor.rest.drop count)) = cursor.advance count) :
    after.rest = [] := by
  have rest : after.rest ++ cursor.rest.drop count = cursor.rest.drop count :=
    congrArg Cursor.rest stops
  exact List.append_left_eq_self.mp rest

theorem lexeme?_inside {context : Context} {found : Found} {lexeme : Lexeme}
    (inside : (found.inside context).lexeme? = some lexeme) :
    ∃ inner, found.lexeme? = some inner ∧ lexeme = inner.inside context := by
  cases found with
  | lexeme complete =>
      cases inside
      exact ⟨complete, rfl, rfl⟩
  | element name =>
      cases inside
      exact ⟨name, rfl, rfl⟩
  | _ => cases inside

theorem literal_inside {context : Context} {found : Found} {literal : StringLiteral}
    (inside : found.inside context = .literal literal) :
    ∃ inner, found = .literal inner ∧ literal = inner.inside context := by
  cases found with
  | literal inner =>
      cases inside
      exact ⟨inner, rfl, rfl⟩
  | _ => cases inside

theorem ScanSuccess.lexeme?_places {lexeme : Lexeme}
    (success : ScanSuccess true cursor scanned) (found : scanned.found.lexeme? = some lexeme) :
    lexeme.start = cursor ∧ lexeme.start.Reaches lexeme.stop := by
  cases success with
  | lexeme kind count =>
      cases found
      exact ⟨rfl, .advance _ _⟩
  | marker kind count =>
      cases found
      exact ⟨rfl, .advance _ _⟩
  | element count =>
      cases found
      exact ⟨rfl, .advance _ _⟩
  | _ => cases found

/-- Without a comment behind it, lexing goes on where a lexeme or name stops. -/
theorem ScanSuccess.lexeme?_stops {lexeme : Lexeme}
    (success : ScanSuccess true cursor scanned) (found : scanned.found.lexeme? = some lexeme)
    (silent : scanned.comment = none) :
    ∃ count, 0 < count ∧ scanned.after = cursor.advance count ∧
      lexeme.stop = cursor.advance count := by
  cases success with
  | lexeme kind count positive =>
      cases found
      exact ⟨count, positive, rfl, rfl⟩
  | element count positive =>
      cases found
      exact ⟨count, positive, rfl, rfl⟩
  | marker => cases silent
  | _ => cases found

theorem lexeme_relexes {lexeme : Lexeme} (remaining : cursor.rest ≠ [])
    (success : scan true cursor = .ok scanned) (found : scanned.found.lexeme? = some lexeme)
    (silent : scanned.comment = none) : lexeme.token.Relexes := by
  obtain ⟨count, positive, after, stop⟩ := (scan_success success).lexeme?_stops found silent
  obtain ⟨alone, scans, rfl⟩ := scan_front remaining positive success
    (by rw [after]; exact Nat.le_refl _)
  have starts := ((scan_success success).lexeme?_places found).1
  have text : lexeme.token.span.text = cursor.rest.take count := by
    change (lexeme.start.spanTo lexeme.stop).text = _
    rw [starts, stop, Cursor.spanTo_advance]
  obtain ⟨inner, here, rfl⟩ := lexeme?_inside found
  have reaches := ((scan_success scans).lexeme?_places here).2
  have same := Lexeme.token_alone (starts.trans (cursor.atStart_take_inside count).symm) reaches
  obtain ⟨comments, single⟩ := tokenize_single (Cursor.take_ne_nil remaining positive) scans here
    (finished_of_inside after)
  exact ⟨comments, by rw [text, single, same]⟩

theorem scan_of_marker {markup : Bool} {kind : TokenKind}
    (marker : marker? cursor.rest = some (kind, count)) :
    scan markup cursor = markedAt cursor kind count := by
  obtain ⟨behind, rest⟩ : ∃ behind, cursor.rest = '/' :: behind := by
    unfold marker? at marker
    split at marker
    · rename_i rest
      exact ⟨_, rest⟩
    · rename_i rest
      exact ⟨_, rest⟩
    · cases marker
  unfold scan recognise
  rw [ModeStack.Machine.layoutAt_none rest (by decide) (by decide), markerAt_eq, marker]
  rfl

theorem marker_relexes {kind : TokenKind} (remaining : cursor.rest ≠ [])
    (marker : marker? cursor.rest = some (kind, count)) (line : kind ≠ .fixmeExpr) :
    (cursor.lexeme kind count).token.Relexes := by
  have fits := (marker?_plain marker).1
  have positive := marker?_positive marker
  have nonempty := Cursor.take_ne_nil remaining positive
  have size : (cursor.rest.take count).length = count := List.length_take_of_le fits
  have alone : marker? (cursor.rest.take count) = some (kind, count) := by
    rw [← List.take_append_drop count cursor.rest] at marker
    exact marker?_local.matched marker (Nat.le_of_eq size.symm)
  let comment := lineComment ((Cursor.atStart (cursor.rest.take count)).advance count)
  have scans : scan true (.atStart (cursor.rest.take count)) =
      .ok (.beforeComment (.lexeme ((Cursor.atStart (cursor.rest.take count)).lexeme kind count))
        comment) := by
    rw [scan_of_marker alone, markedAt]
    exact if_neg line
  have finished : comment.2.rest = [] := by
    change ((cursor.rest.take count).drop count).drop _ = []
    rw [List.drop_of_length_le (Nat.le_of_eq size), List.drop_nil]
  have text : (cursor.lexeme kind count).token.span.text = cursor.rest.take count :=
    congrArg Span.text (cursor.spanTo_advance count)
  have inside : (cursor.lexeme kind count) =
      ((Cursor.atStart (cursor.rest.take count)).lexeme kind count).inside
        (cursor.around (cursor.rest.drop count)) := by
    rw [← lexeme_inside (Nat.le_of_eq size.symm), cursor.atStart_take_inside count]
  obtain ⟨comments, single⟩ := tokenize_single nonempty scans rfl finished
  refine ⟨comments, ?_⟩
  rw [text, single, inside, ← Lexeme.token_alone rfl (.advance _ _)]

theorem literal_relexes {literal : StringLiteral} {comments : Array Comment}
    {read : Piece scanned.after} (remaining : cursor.rest ≠ [])
    (success : scan true cursor = .ok scanned) (found : scanned.found = .literal literal)
    (reads : readLiteral literal.start literal.form scanned.after comments = .ok read) :
    (literal.lexeme read.text read.after).token.Relexes := by
  have outcome := scan_success success
  have starts := outcome.literal_start found
  have proper := scan_literal_proper success found
  obtain ⟨count, stop⟩ := outcome.reaches.trans (readLiteral_reaches reads)
  have positive : 0 < count := by
    apply Nat.pos_of_ne_zero
    rintro rfl
    have shorter := Lexer.scan_shorter remaining success
    have onward := read.onward
    rw [stop, Cursor.advance_zero] at onward
    omega
  have nonempty := Cursor.take_ne_nil remaining positive
  have text : (literal.lexeme read.text read.after).token.span.text = cursor.rest.take count := by
    change (literal.start.spanTo read.after).text = _
    rw [starts, stop, Cursor.spanTo_advance]
  have rest : read.after.rest.length = (cursor.rest.drop count).length := by
    rw [stop]
    rfl
  obtain ⟨alone, scans, rfl⟩ := scan_front remaining positive success (rest ▸ read.onward)
  obtain ⟨inner, here, rfl⟩ := literal_inside found
  obtain ⟨piece, readsAlone, same, after⟩ :=
    readLiteral_alone proper reads (Nat.le_of_eq rest.symm)
  have whole : (inner.inside (cursor.around (cursor.rest.drop count))).lexeme read.text
        read.after =
      (inner.lexeme piece.text piece.after).inside (cursor.around (cursor.rest.drop count)) := by
    rw [same, after]
    rfl
  have reaches : inner.start.Reaches piece.after := by
    rw [(scan_success scans).literal_start here]
    exact (scan_success scans).reaches.trans (readLiteral_reaches readsAlone)
  have token := @Lexeme.token_alone _ (inner.lexeme piece.text piece.after) _
    (starts.trans (cursor.atStart_take_inside count).symm) reaches
  refine ⟨piece.comments.toList, ?_⟩
  rw [text, tokenize_literal nonempty scans here readsAlone
    (finished_of_inside (after.symm.trans stop)), whole, ← token]

/-- Every lexeme that a scan gives is stable. -/
theorem scan_lexeme_stable {lexeme : Lexeme} (remaining : cursor.rest ≠ [])
    (success : scan true cursor = .ok scanned) (found : scanned.found.lexeme? = some lexeme) :
    lexeme.token.Stable := by
  intro free
  cases passed : scanned.comment with
  | none => exact lexeme_relexes remaining success found passed
  | some comment =>
      rcases (scan_passes success passed).marked with layout | ⟨kind, count, marker, same⟩
      · rw [layout] at found
        cases found
      · rw [same] at found
        cases found
        apply marker_relexes remaining marker
        rintro rfl
        cases free

end Front

namespace Lexer

/-- The tokens handed out so far and all that the lexer holds are stable. -/
structure Stable (tokens : List Token) (lexer : Lexer) : Prop extends lexer.Outside where
  tokens : ∀ token, token ∈ tokens → token.Stable
  ready : ∀ token, token ∈ lexer.ready → token.Stable
  lexemes : ∀ lexeme, lexeme ∈ Element.dissolve lexer.elements → lexeme.token.Stable

/-- What becomes of stable tokens in a step. -/
abbrev StaysStable (tokens : List Token) (step : Step) : Prop :=
  step.Keeps Stable (fun _ => True) tokens

variable {lexer : Lexer} {tokens : List Token}

theorem Stable.handBack (stable : Stable tokens lexer) {lexemes : List Lexeme}
    (given : ∀ lexeme, lexeme ∈ lexemes → lexeme.token.Stable) :
    Stable tokens (lexer.handBack lexemes) := by
  unfold Lexer.handBack
  split
  · refine { stable with ready := ?_ }
    intro token member
    rcases List.mem_append.mp member with earlier | later
    · exact stable.ready token earlier
    · obtain ⟨lexeme, lexemeMember, same⟩ := List.mem_map.mp later
      rw [← same]
      exact given lexeme lexemeMember
  · rename_i parent outer elements
    refine { stable with lexemes := ?_ }
    intro lexeme member
    simp only [Element.dissolve_cons, Element.lexemes_extend, List.mem_append] at member
    rcases member with outside | inside | new
    · exact stable.lexemes lexeme (by simp [elements, outside])
    · exact stable.lexemes lexeme (by simp [elements, inside])
    · exact given lexeme new

theorem Stable.handing (stable : Stable tokens lexer) {token : Token} (given : token.Stable) :
    Stable (tokens ++ [token]) lexer := by
  refine { stable with tokens := ?_ }
  intro handed member
  rcases List.mem_append.mp member with before | last
  · exact stable.tokens handed before
  · rw [List.mem_singleton.mp last]
    exact given

/-- A closing tag or markup comment needs its element. -/
theorem stable_of_needsContext {lexeme : Lexeme} (needs : lexeme.kind.needsContext = true) :
    lexeme.token.Stable := by
  intro free
  change lexeme.kind.needsContext = false at free
  rw [needs] at free
  cases free

theorem Stable.exchangeElement (stable : Stable tokens lexer) {element after : Element}
    {outer : List Element} (elements : lexer.elements = element :: outer)
    (given : ∀ lexeme, lexeme ∈ after.lexemes → lexeme.token.Stable) :
    Stable tokens { lexer with elements := after :: outer } := by
  refine { stable with lexemes := ?_ }
  intro lexeme member
  rcases List.mem_append.mp (Element.dissolve_cons after outer ▸ member) with outside | inside
  · exact stable.lexemes lexeme (by simp [elements, outside])
  · exact given lexeme inside

theorem Stable.delivery (stable : Stable tokens lexer) {lexeme : Lexeme} {step : Step}
    (given : lexeme.token.Stable) (delivery : lexer.Delivery lexeme step) :
    StaysStable tokens step := by
  have closed := stable.interpolations
  cases delivery with
  | within interpolations =>
      rw [closed] at interpolations
      cases interpolations
  | ended interpolations =>
      rw [closed] at interpolations
      cases interpolations
  | token => exact stable.handing given
  | @collecting element after outer _ elements receipt =>
      apply stable.exchangeElement elements
      intro inside member
      rw [Element.lexemes_of_collecting receipt] at member
      rcases List.mem_append.mp member with before | last
      · exact stable.lexemes inside (by simp [elements, before])
      · rw [List.mem_singleton.mp last]
        exact given
  | @complete element outer lexemes _ elements receipt =>
      have dropped : Stable tokens { lexer with elements := outer } :=
        { stable with
          lexemes := fun held member => stable.lexemes held (by simp [elements, member]) }
      apply dropped.handBack
      intro inside member
      rcases Element.lexemes_of_complete receipt with
        whole | ⟨_, front, lt, slash, name, split, joined⟩
      · rw [whole] at member
        rcases List.mem_append.mp member with before | last
        · exact stable.lexemes inside (by simp [elements, before])
        · rw [List.mem_singleton.mp last]
          exact given
      · rw [joined] at member
        rcases List.mem_append.mp member with before | last
        · exact stable.lexemes inside (by simp [elements, split, before])
        · rw [List.mem_singleton.mp last]
          exact stable_of_needsContext rfl
  | @comment element after outer lt comment _ elements receipt success =>
      obtain ⟨⟨bang, opener⟩, pushed⟩ := Element.lexemes_of_comment receipt
      have moved : Stable tokens { lexer with cursor := comment.stop } :=
        { stable with }
      apply moved.exchangeElement elements
      intro inside member
      rw [pushed] at member
      rcases List.mem_append.mp member with before | last
      · exact stable.lexemes inside (by simp [elements, opener, before])
      · rw [List.mem_singleton.mp last]
        exact stable_of_needsContext (by rw [(markupComment_ok success).1]; rfl)
  | unclosedComment => trivial

theorem Stable.takeIn {scanned : Scanned} (stable : Stable tokens lexer)
    (remaining : lexer.cursor.rest ≠ []) (success : scan true lexer.cursor = .ok scanned) :
    StaysStable tokens (lexer.takeIn scanned) := by
  have passing : Stable tokens (lexer.passing scanned) := { stable with }
  unfold Lexer.takeIn
  cases found : scanned.found with
  | literal opened =>
      dsimp only
      unfold readOpened
      split
      · trivial
      · rename_i read reads
        have behind : Stable tokens (lexer.behind read.after read.comments) :=
          { stable with literal := rfl }
        apply behind.delivery _ (deliver_delivery _ _)
        exact fun _ => literal_relexes remaining success found reads
  | layout =>
      simp only [accept_eq, found]
      exact passing
  | lexeme lexeme =>
      simp only [accept_eq, found]
      apply passing.delivery _ (deliver_delivery _ _)
      exact scan_lexeme_stable remaining success (by rw [found]; rfl)
  | element name =>
      simp only [accept_eq, found]
      refine { passing with lexemes := ?_ }
      intro lexeme member
      simp only [Element.dissolve_cons, Element.lexemes_opened, List.mem_append,
        List.mem_singleton] at member
      rcases member with around | rfl
      · exact stable.lexemes lexeme around
      · exact scan_lexeme_stable remaining success (by rw [found]; rfl)

theorem Stable.finish (stable : Stable tokens lexer) :
    StaysStable tokens (.pulled lexer.finish) := by
  unfold Lexer.finish
  split
  · trivial
  · split
    · exact stable
    · rename_i lexeme more dissolved
      have held (inside : Lexeme) (member : inside ∈ lexeme :: more) : inside.token.Stable :=
        stable.lexemes inside (dissolved ▸ member)
      have empty : Stable tokens { lexer with elements := [], ready := more.map Lexeme.token } := by
        refine { stable with ready := ?_, lexemes := fun _ => List.not_mem_nil.elim }
        intro token member
        obtain ⟨inside, insideMember, same⟩ := List.mem_map.mp member
        rw [← same]
        exact held inside (List.mem_cons_of_mem _ insideMember)
      exact empty.handing (held lexeme List.mem_cons_self)

theorem Stable.stride (stable : Stable tokens lexer) : StaysStable tokens lexer.stride := by
  unfold Lexer.stride
  split
  · rename_i token more ready
    have fewer : Stable tokens { lexer with ready := more } :=
      { stable with ready := fun later member => stable.ready later (by simp [ready, member]) }
    exact fewer.handing (stable.ready token (by simp [ready]))
  · split
    · exact stable.finish
    · rename_i rest
      split
      · trivial
      · rename_i scanned success
        exact stable.takeIn (by rw [rest]; nofun) success

theorem Stable.next_token {token : Token} {after : Lexer} (stable : Stable tokens lexer)
    (answer : lexer.next = .token token after) : Stable (tokens ++ [token]) after := by
  induction size : lexer.size using Nat.strongRecOn generalizing lexer with
  | ind size ih =>
      subst size
      have next := next_of_stride stable.toOutside
      have kept := stable.stride
      cases strode : lexer.stride with
      | moved later =>
          rw [strode] at next kept
          have shorter := size_of_stride_moved stable.toOutside strode
          exact ih _ shorter kept (next.symm.trans answer) rfl
      | pulled pulled =>
          rw [strode] at next kept
          cases pulled with
          | token handed later =>
              cases next.symm.trans answer
              exact kept
          | endOfText later => cases next.symm.trans answer
          | failed error later =>
              obtain ⟨last, failed⟩ := next
              cases failed.symm.trans answer

/-- The tokens that a lexer hands out if it is asked until it gives none. -/
def handedOut (lexer : Lexer) : List Token :=
  lexer.answers.filterMap Pulled.token?

theorem Stable.handedOut (stable : Stable tokens lexer) :
    ∀ token, token ∈ lexer.handedOut → token.Stable := by
  unfold Lexer.handedOut
  induction lexer using answers.induct generalizing tokens with
  | case1 lexer first after answer ih =>
      have later := stable.next_token answer
      intro token member
      rw [answers_eq, answer] at member
      rcases List.mem_cons.mp member with rfl | further
      · exact later.tokens token (by simp)
      · exact ih later token further
  | case2 lexer final =>
      intro token member
      rw [answers_eq] at member
      cases answer : lexer.next with
      | token first after => exact absurd answer (final first after)
      | endOfText after =>
          rw [answer] at member
          cases member
      | failed error after =>
          rw [answer] at member
          cases member

theorem stable_ofText (text : Text) : Stable [] (ofText text) where
  toOutside := outside_ofText text
  tokens _ member := List.not_mem_nil.elim member
  ready _ member := List.not_mem_nil.elim member
  lexemes _ member := List.not_mem_nil.elim member

end Lexer

/-- Whatever a lexer hands out for a text, apart from the three kinds of tokens that
need what stands around them: if the characters of the token are lexed as a text of
their own, the token is all that they give, with the same kind and value and from
the first to the last of the characters. -/
theorem tokenize_token_text {text : Text} {token : Token}
    (handed : token ∈ (Lexer.ofText text).handedOut) (noFixme : token.kind ≠ .fixmeExpr)
    (noClosing : token.kind ≠ .xhpClosing) (noComment : token.kind ≠ .xhpComment) :
    ∃ comments, tokenize token.span.text =
      .ok
        { tokens :=
            [{ kind := token.kind
               span := { start := 0, text := token.span.text }
               line := 0
               literal := token.literal }]
          comments } := by
  have stable := (Lexer.stable_ofText text).handedOut token handed
  apply stable
  unfold TokenKind.needsContext
  split
  · rename_i fixme
    exact absurd fixme noFixme
  · rename_i closing
    exact absurd closing noClosing
  · rename_i comment
    exact absurd comment noComment
  · rfl

/-- A heredoc among the children of an element, with a line that only begins like
its label and a comment inside of an interpolation. -/
theorem tokenize_heredoc_text :
    let text := "<p>\n<<<AB\n\x7b'c' # d\n\x7d\nAB_\nAB</p>".toList
    let shown := "<<<AB\n\x7b'c' # d\n\x7d\nAB_\nAB".toList
    let heredoc : Token :=
      { kind := .heredoc
        span := { start := 4, text := shown }
        line := 1
        literal := some "\x7b'c'\x7d\nAB_\n".toList }
    heredoc ∈ (Lexer.ofText text).handedOut ∧
      ∃ comments, tokenize shown =
        .ok { tokens := [{ heredoc with span := { start := 0, text := shown }, line := 0 }],
              comments } := by
  intro text shown heredoc
  have handed : heredoc ∈ (Lexer.ofText text).handedOut := by decide +kernel
  exact ⟨handed, tokenize_token_text handed nofun nofun nofun⟩

end HackLexer
