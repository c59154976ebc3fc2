import HackLexer.Proofs.Grammar.Scans
import HackLexer.Proofs.HandedOut

/-!
# The characters of tokens

Every token that a lexer hands out belongs to the language of its kind and has a
value exactly if tokens of its kind carry one.  Open literals are known to have been
opened, so that they make a proper token when they are closed, and a closing tag is
known to start with `<` while its name is still read.

The main statement is `handedOut_justified`.
-/

namespace HackLexer

theorem Cursor.Reaches.text_spanTo_trans {first second third : Cursor}
    (left : first.Reaches second) (right : second.Reaches third) :
    (first.spanTo third).text = (first.spanTo second).text ++ (second.spanTo third).text := by
  obtain ⟨count, rfl⟩ := right
  rw [left.text_spanTo_advance, spanTo_advance]

theorem eq_of_mem_punctuations {kind : TokenKind} {spelling text : Text}
    (only : punctuations.filter (fun entry => entry.2 = kind) = [(spelling, kind)])
    (listed : (text, kind) ∈ punctuations) : text = spelling := by
  have kept : (text, kind) ∈ punctuations.filter fun entry => entry.2 = kind :=
    List.mem_filter.mpr ⟨listed, by simp⟩
  rw [only] at kept
  cases List.mem_singleton.mp kept
  rfl

theorem Token.Justified.text_of_kind {token : Token} {kind : TokenKind} {spelling : Text}
    (justified : token.Justified) (same : token.kind = kind)
    (fixed : kind.language = {text | (text, kind) ∈ punctuations})
    (only : punctuations.filter (fun entry => entry.2 = kind) = [(spelling, kind)]) :
    token.span.text = spelling := by
  have listed := justified.spelled
  rw [same, fixed] at listed
  exact eq_of_mem_punctuations only listed

theorem StringLiteral.openers_of_interpolation {literal suspended : StringLiteral}
    {cursor after : Cursor} (reading : literal.read cursor = .interpolation suspended after) :
    suspended.form.openers = literal.form.openers := by
  simp only [read] at reading
  split at reading <;> cases reading
  exact literal.openers_interrupted

namespace Element

def OpensClosing (element : Element) : Prop :=
  ∀ lt slash name, element.phase = .closingTag lt slash name → lt.kind = .lt

theorem opensClosing_opened (name : Lexeme) : (opened name).OpensClosing := by
  intro lt slash held phase
  cases phase

theorem OpensClosing.extend {element : Element} (opens : element.OpensClosing)
    (lexemes : List Lexeme) : (element.extend lexemes).OpensClosing := by
  intro lt slash name phase
  unfold Element.extend at phase
  split at phase
  · rename_i held
    cases phase
    exact opens _ _ _ held
  · rename_i noClosing
    exact (noClosing lt slash name phase).elim

theorem OpensClosing.collecting {element after : Element} {lexeme : Lexeme}
    (opens : element.OpensClosing) (receipt : element.receive lexeme = .collecting after) :
    after.OpensClosing := by
  intro lt slash name phase
  cases received_of_receipt receipt with
  | tag before => exact absurd (before.symm.trans phase) nofun
  | tagEnd => cases phase
  | child before => exact absurd (before.symm.trans phase) nofun
  | closingTag before slash content opener =>
      cases phase
      exact opener
  | closingName before =>
      cases phase
      exact opens _ _ _ before

theorem OpensClosing.comment {element after : Element} {lexeme lt comment : Lexeme}
    (receipt : element.receive lexeme = .comment lt after) :
    (after.push comment).OpensClosing := by
  intro lt slash name phase
  cases received_of_receipt receipt with
  | comment before => exact absurd (before.symm.trans phase) nofun

theorem lt_of_comment {element after : Element} {lexeme lt : Lexeme}
    (receipt : element.receive lexeme = .comment lt after) : lt.kind = .lt := by
  cases received_of_receipt receipt with
  | comment phase decrement content opener => exact opener

/-- A closing tag from its `<` to its `>`. -/
theorem closing_justified {text : Text} {lt gt : Lexeme} (name : List Lexeme)
    (opener : lt.kind = .lt) (last : gt.kind = .gt) (front : lt.token.Justified)
    (back : gt.token.Justified) (placed : lt.PlacedIn text gt.start)
    (stop : gt.start.Reaches gt.stop) : (closing lt gt name).token.Justified := by
  refine ⟨?_, rfl⟩
  have opening : (lt.start.spanTo lt.stop).text = "<".toList := front.text_of_kind opener rfl (by decide)
  have ending : (gt.start.spanTo gt.stop).text = ">".toList := back.text_of_kind last rfl (by decide)
  change (lt.start.spanTo gt.stop).text ∈ Grammar.between "<" ">"
  rw [(placed.stop.trans placed.before).text_spanTo_trans stop,
    placed.stop.text_spanTo_trans placed.before, opening, ending]
  exact Grammar.mem_between "<" ">" _

theorem complete_justified {text : Text} {element : Element} {lexeme : Lexeme}
    {result : List Lexeme} {limit : Cursor} (opens : element.OpensClosing)
    (held : ∀ inside, inside ∈ element.lexemes → inside.PlacedIn text lexeme.start)
    (justified : ∀ inside, inside ∈ element.lexemes → inside.token.Justified)
    (placed : lexeme.PlacedIn text limit) (given : lexeme.token.Justified)
    (receipt : element.receive lexeme = .complete result) :
    ∀ inside, inside ∈ result → inside.token.Justified := by
  intro inside member
  cases received_of_receipt receipt with
  | selfClosing phase =>
      rw [lexemes_push_of_openingTag lexeme phase] at member
      rcases List.mem_append.mp member with earlier | last
      · exact justified inside earlier
      · rw [List.mem_singleton.mp last]
        exact given
  | @closed lt slash name phase last =>
      have held_lt : lt ∈ element.lexemes := by simp [lexemes, phase]
      rw [@lexemes_push_of_children { element with phase := .children } _ rfl] at member
      rcases List.mem_append.mp member with earlier | joined
      · apply justified inside
        simp only [lexemes, List.append_nil] at earlier
        exact List.mem_append_left _ earlier
      · rw [List.mem_singleton.mp joined]
        exact closing_justified _ (opens lt slash name phase) last (justified lt held_lt) given
          (held lt held_lt) placed.stop

end Element

theorem markupComment_justified {text : Text} {lt comment : Lexeme} {cursor : Cursor}
    (opener : lt.kind = .lt) (front : lt.token.Justified) (placed : lt.PlacedIn text cursor)
    (closed : markupComment lt cursor = .ok comment) : comment.token.Justified := by
  unfold markupComment at closed
  split at closed
  · rename_i count search
    cases closed
    refine ⟨?_, rfl⟩
    have opening : (lt.start.spanTo lt.stop).text = "<".toList := front.text_of_kind opener rfl (by decide)
    have found := List.isPrefixOf_iff_prefix.mp (Text.isPrefixOf_drop_of_find? search)
    have ending : (cursor.rest.drop count).take 3 = "-->".toList :=
      (List.prefix_iff_eq_take.mp found).symm
    change (lt.start.spanTo (cursor.advance (count + 3))).text ∈ Grammar.between "<" "-->"
    rw [(placed.stop.trans placed.before).text_spanTo_advance,
      placed.stop.text_spanTo_trans placed.before, opening, List.take_add, ending,
      ← List.append_assoc, List.append_assoc "<".toList]
    exact Grammar.mem_between "<" "-->" _
  · cases closed

namespace Lexer

/-- The tokens handed out so far and everything that a lexer holds look like what
they are. -/
structure Justified (tokens : List Token) (lexer : Lexer) : Prop where
  literals : ∀ literal, literal ∈ lexer.openLiterals → literal.Opened lexer.cursor
  lexemes : ∀ lexeme, lexeme ∈ Element.dissolve lexer.elements → lexeme.token.Justified
  closings : ∀ element, element ∈ lexer.elements → element.OpensClosing
  ready : ∀ token, token ∈ lexer.ready → token.Justified
  tokens : ∀ token, token ∈ tokens → token.Justified

namespace Justified

variable {text : Text} {tokens : List Token} {lexer : Lexer}

theorem ofText (text : Text) : Justified [] (.ofText text) where
  literals := by simp [openLiterals, Lexer.ofText]
  lexemes := by simp [Lexer.ofText]
  closings := by simp [Lexer.ofText]
  ready := by simp [Lexer.ofText]
  tokens := by simp

theorem moveTo (justified : Justified tokens lexer) {further : Cursor}
    (later : lexer.cursor.Reaches further) :
    Justified tokens { lexer with cursor := further } :=
  { justified with literals := fun literal opened => (justified.literals literal opened).mono later }

theorem passing {markup : Bool} {scanned : Scanned} (justified : Justified tokens lexer)
    (success : ScanSuccess markup lexer.cursor scanned) :
    Justified tokens (lexer.passing scanned) := by
  have moved := justified.moveTo success.reaches
  exact { moved with }

theorem handing {token : Token} (justified : Justified tokens lexer) (given : token.Justified) :
    Justified (tokens ++ [token]) lexer := by
  refine { justified with tokens := ?_ }
  intro handed member
  rcases List.mem_append.mp member with before | last
  · exact justified.tokens handed before
  · rw [List.mem_singleton.mp last]
    exact given

theorem exchangeElement {element after : Element} {outer : List Element}
    (justified : Justified tokens lexer) (elements : lexer.elements = element :: outer)
    (opens : after.OpensClosing)
    (given : ∀ lexeme, lexeme ∈ after.lexemes → lexeme.token.Justified) :
    Justified tokens { lexer with elements := after :: outer } := by
  refine { justified with lexemes := ?_, closings := ?_ }
  · intro lexeme member
    rw [Element.dissolve_cons] at member
    rcases List.mem_append.mp member with outside | inside
    · apply justified.lexemes lexeme
      rw [elements, Element.dissolve_cons]
      exact List.mem_append_left _ outside
    · exact given lexeme inside
  · intro inside member
    rcases List.mem_cons.mp member with rfl | outside
    · exact opens
    · apply justified.closings inside
      rw [elements]
      exact List.mem_cons_of_mem _ outside

theorem handBack {lexemes : List Lexeme} (justified : Justified tokens lexer)
    (given : ∀ lexeme, lexeme ∈ lexemes → lexeme.token.Justified) :
    Justified tokens (lexer.handBack lexemes) := by
  unfold Lexer.handBack
  split
  · refine { justified with ready := ?_ }
    intro token member
    rcases List.mem_append.mp member with earlier | later
    · exact justified.ready token earlier
    · obtain ⟨lexeme, lexemeMember, rfl⟩ := List.mem_map.mp later
      exact given lexeme lexemeMember
  · rename_i parent outer elements
    have around : parent.OpensClosing := justified.closings parent (by simp [elements])
    apply justified.exchangeElement elements (around.extend lexemes)
    intro lexeme member
    rw [Element.lexemes_extend] at member
    rcases List.mem_append.mp member with inside | new
    · apply justified.lexemes lexeme
      rw [elements, Element.dissolve_cons]
      exact List.mem_append_right _ inside
    · exact given lexeme new

theorem exchangeLiterals (justified : Justified tokens lexer) {literal : Option StringLiteral}
    {interpolations : List Interpolation}
    (exchanged : ∀ inside, inside ∈ { lexer with literal, interpolations }.openLiterals →
      ∃ original, original ∈ lexer.openLiterals ∧ inside.start = original.start ∧
        inside.form.openers = original.form.openers) :
    Justified tokens { lexer with literal, interpolations } := by
  refine { justified with literals := ?_ }
  intro inside member
  obtain ⟨original, originalMember, start, form⟩ := exchanged inside member
  obtain ⟨count, opening, before⟩ := justified.literals original originalMember
  exact ⟨count, by rw [start, form]; exact opening, by rw [start]; exact before⟩

section Elements

variable {lexeme : Lexeme} {element after : Element} {outer : List Element}
  (justified : Justified tokens lexer) (given : lexeme.token.Justified)
  (elements : lexer.elements = element :: outer)

include justified given elements

theorem collecting (receipt : element.receive lexeme = .collecting after) :
    Justified tokens { lexer with elements := after :: outer } := by
  have opens := justified.closings element (by simp [elements])
  apply justified.exchangeElement elements (opens.collecting receipt)
  intro inside member
  rw [Element.lexemes_of_collecting receipt] at member
  rcases List.mem_append.mp member with before | last
  · exact justified.lexemes inside (by simp [elements, before])
  · rw [List.mem_singleton.mp last]
    exact given

variable (placed : lexeme.PlacedIn text lexer.cursor)
  (earlier : ∀ held, held ∈ element.lexemes → held.PlacedIn text lexeme.start)

include placed earlier

theorem completing {lexemes : List Lexeme} (receipt : element.receive lexeme = .complete lexemes) :
    Justified tokens ({ lexer with elements := outer }.handBack lexemes) := by
  have dropped : Justified tokens { lexer with elements := outer } := by
    refine { justified with lexemes := ?_, closings := ?_ }
    · intro held member
      exact justified.lexemes held (by simp [elements, member])
    · intro around member
      exact justified.closings around (by simp [elements, member])
  have opens := justified.closings element (by simp [elements])
  apply dropped.handBack
  apply Element.complete_justified opens earlier _ placed given receipt
  intro held member
  exact justified.lexemes held (by simp [elements, member])

omit given in
theorem commenting {lt comment : Lexeme} (receipt : element.receive lexeme = .comment lt after)
    (success : markupComment lt lexer.cursor = .ok comment) :
    Justified tokens
      { lexer with cursor := comment.stop, elements := after.push comment :: outer } := by
  obtain ⟨⟨bang, opener⟩, pushed⟩ := Element.lexemes_of_comment receipt
  have held : ∀ inside, inside ∈ element.lexemes → inside.token.Justified := by
    intro inside member
    exact justified.lexemes inside (by simp [elements, member])
  have start : lt.PlacedIn text lexer.cursor :=
    (earlier lt (by simp [opener])).mono (placed.stop.trans placed.before)
  have moved := justified.moveTo (markupComment_ok success).2.2
  apply moved.exchangeElement elements (.comment receipt)
  intro inside member
  rw [pushed] at member
  rcases List.mem_append.mp member with before | last
  · exact held inside (by simp [opener, before])
  · rw [List.mem_singleton.mp last]
    exact markupComment_justified (Element.lt_of_comment receipt)
      (held lt (by simp [opener])) start success

end Elements

theorem delivery {lexeme : Lexeme} {step : Step} (justified : Justified tokens lexer)
    (given : lexeme.token.Justified) (placed : lexeme.PlacedIn text lexer.cursor)
    (earlier : lexer.interpolations = [] →
      ∀ held, held ∈ Element.dissolve lexer.elements → held.PlacedIn text lexeme.start)
    (delivery : lexer.Delivery lexeme step) :
    step.Keeps Justified (fun _ => True) tokens := by
  have innermost {element : Element} {outer : List Element}
      (interpolations : lexer.interpolations = [])
      (elements : lexer.elements = element :: outer) :
      ∀ held, held ∈ element.lexemes → held.PlacedIn text lexeme.start :=
    fun held member => earlier interpolations held (by simp [elements, member])
  cases delivery with
  | @within interpolation after outer interpolations receipt =>
      apply justified.exchangeLiterals
      intro inside member
      simp only [openLiterals, List.map_cons, List.mem_append, List.mem_cons] at member
      rcases member with current | same | outside
      · exact ⟨inside, List.mem_append_left _ current, rfl, rfl⟩
      · rw [same, Interpolation.literal_of_within receipt]
        exact ⟨interpolation.literal, by simp [openLiterals, interpolations], rfl, rfl⟩
      · refine ⟨inside, ?_, rfl, rfl⟩
        simp only [openLiterals, interpolations, List.map_cons, List.mem_append, List.mem_cons]
        exact .inr (.inr outside)
  | @ended interpolation outer literal interpolations receipt =>
      apply justified.exchangeLiterals
      intro inside member
      simp only [openLiterals, Option.toList_some, List.singleton_append, List.mem_cons] at member
      rcases member with same | outside
      · rw [same, Interpolation.literal_of_ended receipt]
        exact ⟨interpolation.literal, by simp [openLiterals, interpolations], rfl, rfl⟩
      · refine ⟨inside, ?_, rfl, rfl⟩
        simp only [openLiterals, interpolations, List.map_cons, List.mem_append, List.mem_cons]
        exact .inr (.inr outside)
  | token => exact justified.handing given
  | collecting _ elements receipt => exact justified.collecting given elements receipt
  | complete interpolations elements receipt =>
      exact justified.completing given elements placed (innermost interpolations elements) receipt
  | comment interpolations elements receipt success =>
      exact justified.commenting elements placed (innermost interpolations elements) receipt
        success
  | unclosedComment => trivial

theorem finish (justified : Justified tokens lexer) :
    (Step.pulled lexer.finish).Keeps Justified (fun _ => True) tokens := by
  unfold Lexer.finish
  split
  · trivial
  · split
    · exact justified
    · rename_i lexeme more dissolved
      have held : ∀ inside, inside ∈ lexeme :: more → inside.token.Justified := by
        intro inside member
        exact justified.lexemes inside (dissolved ▸ member)
      have emptied : Justified tokens
          { lexer with elements := [], ready := more.map Lexeme.token } := by
        refine { justified with
          lexemes := fun _ => List.not_mem_nil.elim
          closings := fun _ => List.not_mem_nil.elim
          ready := ?_ }
        intro token member
        obtain ⟨inside, insideMember, rfl⟩ := List.mem_map.mp member
        exact held inside (List.mem_cons_of_mem _ insideMember)
      exact emptied.handing (held lexeme List.mem_cons_self)

theorem closeLiteral (justified : Justified tokens lexer) :
    Justified tokens { lexer with literal := none } := by
  refine { justified with literals := ?_ }
  intro inside member
  exact justified.literals inside (List.mem_append_right _ member)

theorem openLiteral {opened : StringLiteral} (justified : Justified tokens lexer)
    (opens : opened.Opened lexer.cursor) :
    Justified tokens { lexer with literal := some opened } := by
  refine { justified with literals := ?_ }
  intro inside member
  simp only [openLiterals, Option.toList_some, List.singleton_append, List.mem_cons] at member
  rcases member with rfl | outside
  · exact opens
  · exact justified.literals inside (List.mem_append_right _ outside)

theorem openElement {name : Lexeme} (justified : Justified tokens lexer)
    (given : name.token.Justified) :
    Justified tokens { lexer with elements := .opened name :: lexer.elements } := by
  refine { justified with lexemes := ?_, closings := ?_ }
  · intro inside member
    rw [Element.dissolve_cons, Element.lexemes_opened] at member
    rcases List.mem_append.mp member with around | last
    · exact justified.lexemes inside around
    · rw [List.mem_singleton.mp last]
      exact given
  · intro inside member
    rcases List.mem_cons.mp member with rfl | around
    · exact Element.opensClosing_opened name
    · exact justified.closings inside around

theorem interrupted {literal suspended : StringLiteral} {after : Cursor}
    (justified : Justified tokens lexer) (opened : lexer.literal = some literal)
    (reading : literal.read lexer.cursor = .interpolation suspended after) :
    Justified tokens
      { lexer with
        cursor := after
        literal := none
        interpolations := { literal := suspended, depth := 0 } :: lexer.interpolations } := by
  obtain ⟨start, reaches⟩ := StringLiteral.read_interpolation_places reading
  apply (justified.moveTo reaches).exchangeLiterals
  intro inside member
  simp only [openLiterals, Option.toList_none, List.nil_append, List.map_cons,
    List.mem_cons] at member
  rcases member with rfl | outside
  · exact ⟨literal, by simp [openLiterals, opened], start,
      StringLiteral.openers_of_interpolation reading⟩
  · exact ⟨inside, List.mem_append_right _ outside, rfl, rfl⟩

theorem turn {step : Step} (justified : Justified tokens lexer) (placed : Placed text tokens lexer)
    (turn : lexer.Turn step) : step.Keeps Justified (fun _ => True) tokens := by
  cases turn with
  | @ready token more ready =>
      have fewer : Justified tokens { lexer with ready := more } :=
        { justified with
          ready := fun later member => justified.ready later (by simp [ready, member]) }
      exact fewer.handing (justified.ready token (by simp [ready]))
  | @closed literal lexeme step ready opened reading delivery =>
      have start := justified.literals literal (by simp [openLiterals, opened])
      have stop := (StringLiteral.read_closed_places reading).2.2
      exact (justified.moveTo stop).closeLiteral.delivery
        (StringLiteral.read_closed_justified start reading) (placed.closed_lexeme opened reading)
        (placed.held_before_closed opened reading) delivery
  | interrupted ready opened reading => exact justified.interrupted opened reading
  | unclosed => trivial
  | finished => exact justified.finish
  | failed => trivial
  | layout ready literal remaining success found =>
      exact justified.passing (scan_success success)
  | @lexeme scanned lexeme step ready literal remaining success found delivery =>
      have outcome := scan_success success
      have given := scan_justified success
      rw [found] at given
      exact (justified.passing outcome).delivery given.1
        (outcome.lexeme_placed placed.cursor remaining found)
        (placed.held_before_lexeme literal outcome found) delivery
  | literal ready literal remaining success found =>
      have given := scan_justified success
      rw [found] at given
      exact (justified.passing (scan_success success)).openLiteral given
  | element ready literal remaining success found =>
      have given := scan_justified success
      rw [found] at given
      exact (justified.passing (scan_success success)).openElement given

end Justified

/-- In the course of every run, everything looks like what it is. -/
theorem Run.justified {text : Text} {tokens : List Token} {lexer : Lexer}
    (run : Run text tokens lexer) : Justified tokens lexer :=
  run.invariant (Justified.ofText text) fun _ lexer run justified =>
    justified.turn run.placed lexer.step_turn

end Lexer

theorem TokenKind.hasValue_iff (kind : TokenKind) :
    kind.hasValue = true ↔
      kind ∈ [.quotedString, .doubleQuotedString, .heredoc, .nowdoc, .xhpClosing, .xhpComment] := by
  cases kind <;> simp [hasValue]

/-- Whatever a lexer hands out for a text: the characters of the token belong to the
language of its kind, no token is an underscore, and exactly strings, closing tags
and markup comments carry a value. -/
theorem handedOut_justified {text : Text} {token : Token}
    (handed : token ∈ (Lexer.ofText text).handedOut) :
    token.span.text ∈ token.kind.language ∧ token.kind ≠ .underscore ∧
      (token.literal.isSome ↔ token.kind ∈ [TokenKind.quotedString, .doubleQuotedString,
        .heredoc, .nowdoc, .xhpClosing, .xhpComment]) := by
  obtain ⟨last, run⟩ := (@Lexer.Run.start text).handedOut
  have justified := run.justified.tokens token handed
  refine ⟨justified.spelled, ?_, ?_⟩
  · intro underscore
    have spelled := justified.spelled
    rw [underscore] at spelled
    exact spelled
  · rw [justified.valued]
    exact token.kind.hasValue_iff

/-- A word of three atoms, the last of which does not take the hyphens behind it. -/
theorem hyphenated_word_justified :
    let word : Token :=
      { kind := .word
        span := { start := 1, text := "\\ns\\\\ab-c".toList }
        line := 0
        literal := none }
    word ∈ (Lexer.ofText "+\\ns\\\\ab-c--.5".toList).handedOut ∧
      (word.span.text ∈ word.kind.language ∧ word.kind ≠ .underscore ∧
        (word.literal.isSome ↔ word.kind ∈ [TokenKind.quotedString, .doubleQuotedString,
          .heredoc, .nowdoc, .xhpClosing, .xhpComment])) := by
  intro word
  have handed : word ∈ (Lexer.ofText "+\\ns\\\\ab-c--.5".toList).handedOut := by
    decide +kernel
  exact ⟨handed, handedOut_justified handed⟩

end HackLexer
