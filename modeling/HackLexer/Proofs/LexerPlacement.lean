import HackLexer.Proofs.LexerRuns
import HackLexer.Proofs.OpenElements
import HackLexer.Proofs.Placement

/-!
# Placement of what a lexer holds

Everything that a lexer holds lies between places of its text: open literals
start before the cursor, and the lexemes of open elements, the ready tokens and
the comments end before it.  Every turn of the lexer keeps it there.
-/

namespace HackLexer

namespace Lexer

/-- The literals that are open around the cursor, innermost first. -/
def openLiterals (lexer : Lexer) : List StringLiteral :=
  lexer.literal.toList ++ lexer.interpolations.map Interpolation.literal

/-- Where the outermost open literal starts. -/
def outerStart (lexer : Lexer) : Option Cursor :=
  (lexer.openLiterals.map StringLiteral.start).getLast?

/-- Where the outermost open literal starts, or else the cursor: what is
delivered to an element or handed out next starts there or later. -/
def frontier (lexer : Lexer) : Cursor :=
  lexer.outerStart.getD lexer.cursor

theorem outerStart_ne_none {lexer : Lexer} (opened : lexer.openLiterals ≠ []) :
    lexer.outerStart ≠ none := by
  simpa [outerStart] using opened

/-- Interpolations lie further out than the literal that is being read. -/
theorem outerStart_with_literal {lexer : Lexer} (literal : Option StringLiteral)
    (inside : lexer.interpolations ≠ []) :
    { lexer with literal }.outerStart = lexer.outerStart := by
  unfold outerStart openLiterals
  rw [List.map_append, List.map_append, List.getLast?_append, List.getLast?_append]
  cases last : ((lexer.interpolations.map Interpolation.literal).map
      StringLiteral.start).getLast? with
  | none =>
      rw [List.getLast?_eq_none_iff, List.map_eq_nil_iff, List.map_eq_nil_iff] at last
      exact absurd last inside
  | some start => rfl

theorem frontier_of_nil {lexer : Lexer} (closed : lexer.openLiterals = []) :
    lexer.frontier = lexer.cursor := by
  simp [frontier, outerStart, closed]

theorem frontier_of_singleton {lexer : Lexer} {literal : StringLiteral}
    (opened : lexer.openLiterals = [literal]) : lexer.frontier = literal.start := by
  simp [frontier, outerStart, opened]

/-- If there are open literals, the frontier is where the outermost starts. -/
theorem frontier_congr {lexer after : Lexer}
    (outer : after.outerStart = lexer.outerStart)
    (opened : lexer.openLiterals ≠ []) : after.frontier = lexer.frontier := by
  obtain ⟨start, known⟩ :=
    Option.ne_none_iff_exists'.mp (outerStart_ne_none opened)
  rw [frontier, frontier, outer, known]
  rfl

/-- The tokens handed out so far and everything that the lexer holds lie
between places of the text in front of the cursor.  What open elements hold
also ends before the open literals. -/
structure Placed (text : Text) (tokens : List Token) (lexer : Lexer) : Prop where
  cursor : lexer.cursor.IsPlaceOf text
  literals : ∀ literal, literal ∈ lexer.openLiterals →
    literal.PlacedIn text lexer.cursor
  lexemes : ∀ lexeme, lexeme ∈ Element.dissolve lexer.elements →
    lexeme.PlacedIn text lexer.frontier
  ready : ∀ token, token ∈ lexer.ready → token.PlacedIn text lexer.cursor
  tokens : ∀ token, token ∈ tokens → token.PlacedIn text lexer.cursor
  comments : ∀ comment, comment ∈ lexer.comments →
    comment.PlacedIn text lexer.cursor

namespace Placed

theorem ofText (text : Text) : Placed text [] (.ofText text) where
  cursor := .atStart text
  literals := by simp [openLiterals, Lexer.ofText]
  lexemes := by simp [Lexer.ofText]
  ready := by simp [Lexer.ofText]
  tokens := by simp
  comments := by simp [Lexer.ofText]

theorem frontier_reaches {text : Text} {tokens : List Token} {lexer : Lexer}
    (placed : Placed text tokens lexer) : lexer.frontier.Reaches lexer.cursor := by
  unfold frontier
  cases outer : lexer.outerStart with
  | none => exact .refl _
  | some start =>
      obtain ⟨literal, member, same⟩ :=
        List.mem_map.mp (List.mem_of_getLast? outer)
      rw [Option.getD_some, ← same]
      exact (placed.literals literal member).before

theorem moveTo {text : Text} {tokens : List Token} {lexer : Lexer}
    (placed : Placed text tokens lexer) {further : Cursor}
    (later : lexer.cursor.Reaches further) :
    Placed text tokens { lexer with cursor := further } where
  cursor := Cursor.Reaches.trans placed.cursor later
  literals literal opened := (placed.literals literal opened).mono later
  lexemes lexeme member := by
    have held := placed.lexemes lexeme member
    by_cases closed : lexer.openLiterals = []
    · have front : { lexer with cursor := further }.frontier = further :=
        frontier_of_nil closed
      rw [frontier_of_nil closed] at held
      rw [front]
      exact held.mono later
    · have front : { lexer with cursor := further }.frontier = lexer.frontier :=
        frontier_congr rfl closed
      rw [front]
      exact held
  ready token member := (placed.ready token member).mono later
  tokens token member := (placed.tokens token member).mono later
  comments comment member := (placed.comments comment member).mono later

theorem exchangeLiterals {text : Text} {tokens : List Token} {lexer : Lexer}
    (placed : Placed text tokens lexer) {literal : Option StringLiteral}
    {interpolations : List Interpolation}
    (starts : { lexer with literal, interpolations }.openLiterals.map
        StringLiteral.start = lexer.openLiterals.map StringLiteral.start)
    (opened : lexer.openLiterals ≠ []) :
    Placed text tokens { lexer with literal, interpolations } := by
  refine { placed with literals := ?_, lexemes := ?_ }
  · intro exchanged member
    have start := List.mem_map_of_mem (f := StringLiteral.start) member
    rw [starts] at start
    obtain ⟨original, originalMember, same⟩ := List.mem_map.mp start
    have there := placed.literals original originalMember
    exact ⟨same ▸ there.start, same ▸ there.before, same ▸ there.nonempty⟩
  · intro lexeme member
    rw [frontier_congr (congrArg List.getLast? starts) opened]
    exact placed.lexemes lexeme member

theorem passing {markup : Bool} {text : Text} {tokens : List Token}
    {lexer : Lexer} {scanned : Scanned} (placed : Placed text tokens lexer)
    (success : ScanSuccess markup lexer.cursor scanned) :
    Placed text tokens (lexer.passing scanned) := by
  have moved := placed.moveTo success.reaches
  refine { moved with comments := ?_ }
  intro comment member
  cases passed : scanned.comment with
  | none =>
      simp only [Lexer.passing, Scanned.commentsBehind, passed] at member
      exact moved.comments comment member
  | some last =>
      simp only [Lexer.passing, Scanned.commentsBehind, passed, Array.mem_push] at member
      rcases member with earlier | same
      · exact moved.comments comment earlier
      · rw [same]
        exact success.comment_placed placed.cursor passed

theorem exchangeElement {text : Text} {tokens : List Token} {lexer : Lexer}
    {element after : Element} {outer : List Element}
    (placed : Placed text tokens lexer) (elements : lexer.elements = element :: outer)
    (given : ∀ lexeme, lexeme ∈ after.lexemes →
      lexeme.PlacedIn text lexer.frontier) :
    Placed text tokens { lexer with elements := after :: outer } := by
  refine { placed with lexemes := ?_ }
  intro lexeme member
  rw [Element.dissolve_cons] at member
  rcases List.mem_append.mp member with outside | inside
  · apply placed.lexemes lexeme
    rw [elements, Element.dissolve_cons]
    exact List.mem_append_left _ outside
  · exact given lexeme inside

theorem handBack {text : Text} {tokens : List Token} {lexer : Lexer}
    {lexemes : List Lexeme} (placed : Placed text tokens lexer)
    (given : ∀ lexeme, lexeme ∈ lexemes → lexeme.PlacedIn text lexer.frontier) :
    Placed text tokens (lexer.handBack lexemes) := by
  unfold Lexer.handBack
  split
  · refine { placed with ready := ?_ }
    intro token member
    rcases List.mem_append.mp member with earlier | later
    · exact placed.ready token earlier
    · obtain ⟨lexeme, lexemeMember, same⟩ := List.mem_map.mp later
      rw [← same]
      exact ((given lexeme lexemeMember).mono placed.frontier_reaches).token
  · rename_i parent outer elements
    apply placed.exchangeElement elements
    intro lexeme member
    rw [Element.lexemes_extend] at member
    rcases List.mem_append.mp member with inside | new
    · apply placed.lexemes lexeme
      rw [elements, Element.dissolve_cons]
      exact List.mem_append_right _ inside
    · exact given lexeme new

/-- Outside of literals, the lexemes of open elements end before the cursor. -/
theorem held_before_cursor {text : Text} {tokens : List Token} {lexer : Lexer}
    (placed : Placed text tokens lexer) (closed : lexer.literal = none)
    (outside : lexer.interpolations = []) {held : Lexeme}
    (member : held ∈ Element.dissolve lexer.elements) :
    held.PlacedIn text lexer.cursor := by
  have inside := placed.lexemes held member
  rwa [frontier_of_nil (by simp [openLiterals, closed, outside])] at inside

theorem held_before_lexeme {text : Text} {tokens : List Token} {lexer : Lexer} {markup : Bool}
    {scanned : Scanned} {lexeme : Lexeme} (placed : Placed text tokens lexer)
    (closed : lexer.literal = none) (success : ScanSuccess markup lexer.cursor scanned)
    (found : scanned.found = .lexeme lexeme) (outside : lexer.interpolations = [])
    (held : Lexeme) (member : held ∈ Element.dissolve lexer.elements) :
    held.PlacedIn text lexeme.start := by
  rw [success.lexeme_start found]
  exact placed.held_before_cursor closed outside member

theorem held_before_closed {text : Text} {tokens : List Token} {lexer : Lexer}
    {literal : StringLiteral} {lexeme : Lexeme} (placed : Placed text tokens lexer)
    (opened : lexer.literal = some literal)
    (reading : literal.read lexer.cursor = .closed lexeme) (outside : lexer.interpolations = [])
    (held : Lexeme) (member : held ∈ Element.dissolve lexer.elements) :
    held.PlacedIn text lexeme.start := by
  have front : lexer.frontier = literal.start :=
    frontier_of_singleton (by simp [openLiterals, opened, outside])
  have inside := placed.lexemes held member
  rwa [front, ← (StringLiteral.read_closed_places reading).2.1] at inside

theorem closed_lexeme {text : Text} {tokens : List Token} {lexer : Lexer}
    {literal : StringLiteral} {lexeme : Lexeme} (placed : Placed text tokens lexer)
    (opened : lexer.literal = some literal)
    (reading : literal.read lexer.cursor = .closed lexeme) :
    lexeme.PlacedIn text lexeme.stop := by
  obtain ⟨_, start, reaches⟩ := StringLiteral.read_closed_places reading
  have there : literal.PlacedIn text lexer.cursor :=
    placed.literals literal (by simp [openLiterals, opened])
  exact
    { start := start ▸ there.start
      stop := start ▸ there.before.trans reaches
      nonempty := start ▸ (there.mono reaches).nonempty
      before := .refl _ }

theorem closeLiteral {text : Text} {tokens : List Token} {lexer : Lexer}
    (placed : Placed text tokens lexer) :
    Placed text tokens { lexer with literal := none } := by
  refine { placed with literals := ?_, lexemes := ?_ }
  · intro literal member
    apply placed.literals literal
    exact List.mem_append_right _ (by simpa [openLiterals] using member)
  · intro lexeme member
    have held := placed.lexemes lexeme member
    by_cases outside : lexer.interpolations = []
    · have front : { lexer with literal := none }.frontier = lexer.cursor :=
        frontier_of_nil (by simp [openLiterals, outside])
      rw [front]
      exact held.mono placed.frontier_reaches
    · have opened : lexer.openLiterals ≠ [] := by simp [openLiterals, outside]
      rw [frontier_congr (outerStart_with_literal none outside) opened]
      exact held

theorem openLiteral {text : Text} {tokens : List Token} {lexer : Lexer}
    {literal : StringLiteral} (placed : Placed text tokens lexer)
    (opened : literal.PlacedIn text lexer.cursor)
    (earlier : lexer.interpolations = [] →
      ∀ held, held ∈ Element.dissolve lexer.elements →
        held.PlacedIn text literal.start) :
    Placed text tokens { lexer with literal := some literal } := by
  refine { placed with literals := ?_, lexemes := ?_ }
  · intro inside member
    simp only [openLiterals, Option.toList_some, List.singleton_append,
      List.mem_cons] at member
    rcases member with same | around
    · rw [same]
      exact opened
    · exact placed.literals inside (List.mem_append_right _ around)
  · intro lexeme member
    by_cases outside : lexer.interpolations = []
    · have front : { lexer with literal := some literal }.frontier = literal.start :=
        frontier_of_singleton (by simp [openLiterals, outside])
      rw [front]
      exact earlier outside lexeme member
    · have around : lexer.openLiterals ≠ [] := by simp [openLiterals, outside]
      rw [frontier_congr (outerStart_with_literal (some literal) outside) around]
      exact placed.lexemes lexeme member

/-- The lexemes of a complete element end before the last one received. -/
theorem complete {text : Text} {element : Element} {lexeme : Lexeme}
    {result : List Lexeme} {limit : Cursor}
    (held : ∀ inside, inside ∈ element.lexemes →
      inside.PlacedIn text lexeme.start)
    (given : lexeme.PlacedIn text limit)
    (receipt : element.receive lexeme = .complete result) :
    ∀ inside, inside ∈ result → inside.PlacedIn text limit := by
  have further : lexeme.start.Reaches limit := given.stop.trans given.before
  intro inside member
  rcases Element.lexemes_of_complete receipt with
    whole | ⟨_, front, lt, slash, name, split, joined⟩
  · rw [whole] at member
    rcases List.mem_append.mp member with earlier | last
    · exact (held inside earlier).mono further
    · rw [List.mem_singleton.mp last]
      exact given
  · rw [joined] at member
    rcases List.mem_append.mp member with earlier | last
    · apply (held inside _).mono further
      rw [split]
      exact List.mem_append_left _ earlier
    · rw [List.mem_singleton.mp last]
      have opener : lt.PlacedIn text lexeme.start := held lt (by simp [split])
      exact opener.join rfl given.stop given.before

theorem handing {text : Text} {tokens : List Token} {lexer : Lexer} {token : Token}
    (placed : Placed text tokens lexer) (given : token.PlacedIn text lexer.cursor) :
    Placed text (tokens ++ [token]) lexer := by
  refine { placed with tokens := ?_ }
  intro handed member
  rcases List.mem_append.mp member with before | last
  · exact placed.tokens handed before
  · rw [List.mem_singleton.mp last]
    exact given

section Elements

variable {text : Text} {tokens : List Token} {lexer : Lexer} {lexeme : Lexeme}
  {element after : Element} {outer : List Element} (placed : Placed text tokens lexer)
  (closed : lexer.literal = none) (interpolations : lexer.interpolations = [])
  (elements : lexer.elements = element :: outer)

include placed closed interpolations elements

theorem collecting (given : lexeme.PlacedIn text lexer.cursor)
    (receipt : element.receive lexeme = .collecting after) :
    Placed text tokens { lexer with elements := after :: outer } := by
  apply placed.exchangeElement elements
  have front : lexer.frontier = lexer.cursor :=
    frontier_of_nil (by simp [openLiterals, closed, interpolations])
  intro inside member
  rw [Element.lexemes_of_collecting receipt] at member
  rcases List.mem_append.mp member with before | last
  · apply placed.lexemes inside
    rw [elements, Element.dissolve_cons]
    exact List.mem_append_right _ before
  · rw [List.mem_singleton.mp last, front]
    exact given

variable (earlier : ∀ held, held ∈ element.lexemes → held.PlacedIn text lexeme.start)

include earlier

theorem completing {lexemes : List Lexeme} (given : lexeme.PlacedIn text lexer.cursor)
    (receipt : element.receive lexeme = .complete lexemes) :
    Placed text tokens ({ lexer with elements := outer }.handBack lexemes) := by
  have dropped : Placed text tokens { lexer with elements := outer } := by
    refine { placed with lexemes := ?_ }
    intro held member
    exact placed.lexemes held (by simp [elements, member])
  have front : { lexer with elements := outer }.frontier = lexer.cursor :=
    frontier_of_nil (by simp [openLiterals, closed, interpolations])
  apply dropped.handBack
  rw [front]
  exact complete earlier given receipt

theorem commenting {lt comment : Lexeme} (given : lexeme.PlacedIn text lexer.cursor)
    (receipt : element.receive lexeme = .comment lt after)
    (success : markupComment lt lexer.cursor = .ok comment) :
    Placed text tokens
      { lexer with cursor := comment.stop, elements := after.push comment :: outer } := by
  obtain ⟨⟨bang, opener⟩, pushed⟩ := Element.lexemes_of_comment receipt
  have inside : ∀ held, held ∈ element.lexemes → held.PlacedIn text lexer.cursor :=
    fun held member => (earlier held member).mono (given.stop.trans given.before)
  obtain ⟨_, start, later⟩ := markupComment_ok success
  apply (placed.moveTo later).exchangeElement elements
  have front : { lexer with cursor := comment.stop }.frontier = comment.stop :=
    frontier_of_nil (by simp [openLiterals, closed, interpolations])
  rw [front]
  intro held member
  rw [pushed] at member
  rcases List.mem_append.mp member with before | last
  · exact (inside held (by simp [opener, before])).mono later
  · rw [List.mem_singleton.mp last]
    have ltPlaced : lt.PlacedIn text lexer.cursor := inside lt (by simp [opener])
    exact ltPlaced.join start later (.refl _)

end Elements

theorem unclosed_markupComment {text : Text} {cursor : Cursor} {element after : Element}
    {lexeme lt : Lexeme} {error : LexicalError} (place : cursor.IsPlaceOf text)
    (earlier : ∀ held, held ∈ element.lexemes → held.PlacedIn text lexeme.start)
    (given : lexeme.PlacedIn text cursor) (receipt : element.receive lexeme = .comment lt after)
    (failure : markupComment lt cursor = .error error) : error.PlacedIn text := by
  obtain ⟨⟨bang, opener⟩, _⟩ := Element.lexemes_of_comment receipt
  have ltPlaced : lt.PlacedIn text lexeme.start := earlier lt (by simp [opener])
  rw [markupComment_error failure]
  apply LexicalError.unclosed_placed ltPlaced.start _ place (by decide) (by decide)
  exact (ltPlaced.stop.trans ltPlaced.before).trans (given.stop.trans given.before)

theorem delivery {text : Text} {tokens : List Token} {lexer : Lexer}
    {lexeme : Lexeme} {step : Step} (placed : Placed text tokens lexer)
    (closed : lexer.literal = none) (given : lexeme.PlacedIn text lexer.cursor)
    (earlier : lexer.interpolations = [] →
      ∀ held, held ∈ Element.dissolve lexer.elements →
        held.PlacedIn text lexeme.start)
    (delivery : lexer.Delivery lexeme step) :
    step.Keeps (Placed text) (LexicalError.PlacedIn text) tokens := by
  have innermost {element : Element} {outer : List Element}
      (interpolations : lexer.interpolations = [])
      (elements : lexer.elements = element :: outer) :
      ∀ held, held ∈ element.lexemes → held.PlacedIn text lexeme.start :=
    fun held member => earlier interpolations held (by simp [elements, member])
  cases delivery with
  | @within interpolation after outer interpolations receipt =>
      apply placed.exchangeLiterals
      · simp [openLiterals, closed, interpolations,
          Interpolation.literal_of_within receipt, StringLiteral.append]
      · simp [openLiterals, interpolations]
  | @ended interpolation outer literal interpolations receipt =>
      apply placed.exchangeLiterals
      · simp [openLiterals, closed, interpolations,
          Interpolation.literal_of_ended receipt, StringLiteral.append]
      · simp [openLiterals, interpolations]
  | token => exact placed.handing given.token
  | collecting interpolations elements receipt =>
      exact placed.collecting closed interpolations elements given receipt
  | complete interpolations elements receipt =>
      exact placed.completing closed interpolations elements (innermost interpolations elements)
        given receipt
  | comment interpolations elements receipt success =>
      exact placed.commenting closed interpolations elements (innermost interpolations elements)
        given receipt success
  | unclosedComment interpolations elements receipt failure =>
      exact unclosed_markupComment placed.cursor (innermost interpolations elements) given receipt
        failure

theorem finish {text : Text} {tokens : List Token} {lexer : Lexer}
    (placed : Placed text tokens lexer) :
    (Step.pulled lexer.finish).Keeps (Placed text) (LexicalError.PlacedIn text)
      tokens := by
  unfold Lexer.finish
  split
  · rename_i interpolation outer interpolations
    have opened := placed.literals interpolation.literal
      (by simp [openLiterals, interpolations])
    exact StringLiteral.unclosed_placed opened.start placed.cursor
  · split
    · exact placed
    · rename_i lexeme more dissolved
      have held : ∀ inside, inside ∈ lexeme :: more →
          inside.PlacedIn text lexer.cursor := by
        intro inside member
        rw [← dissolved] at member
        exact (placed.lexemes inside member).mono placed.frontier_reaches
      have handed := placed.handing (held lexeme List.mem_cons_self).token
      refine { handed with lexemes := ?_, ready := ?_ }
      · intro inside member
        cases member
      · intro token member
        obtain ⟨inside, insideMember, same⟩ := List.mem_map.mp member
        rw [← same]
        exact (held inside (List.mem_cons_of_mem _ insideMember)).token

theorem handingReady {text : Text} {tokens : List Token} {lexer : Lexer} {token : Token}
    {more : List Token} (placed : Placed text tokens lexer)
    (ready : lexer.ready = token :: more) :
    Placed text (tokens ++ [token]) { lexer with ready := more } := by
  have handed := placed.handing (placed.ready token (by simp [ready]))
  refine { handed with ready := ?_ }
  intro later member
  exact placed.ready later (by simp [ready, member])

theorem openElement {text : Text} {tokens : List Token} {lexer : Lexer} {name : Lexeme}
    (placed : Placed text tokens lexer) (closed : lexer.openLiterals = [])
    (given : name.PlacedIn text lexer.cursor) :
    Placed text tokens { lexer with elements := .opened name :: lexer.elements } := by
  refine { placed with lexemes := ?_ }
  intro lexeme member
  rw [Element.dissolve_cons] at member
  rcases List.mem_append.mp member with around | last
  · exact placed.lexemes lexeme around
  · have front : { lexer with elements := .opened name :: lexer.elements }.frontier =
        lexer.cursor :=
      frontier_of_nil closed
    rw [Element.lexemes_opened] at last
    rw [List.mem_singleton.mp last, front]
    exact given

theorem turn {text : Text} {tokens : List Token} {lexer : Lexer} {step : Step}
    (placed : Placed text tokens lexer) (turn : lexer.Turn step) :
    step.Keeps (Placed text) (LexicalError.PlacedIn text) tokens := by
  cases turn with
  | ready ready => exact placed.handingReady ready
  | @closed literal lexeme step ready opened reading delivery =>
      have stop := (StringLiteral.read_closed_places reading).2.2
      exact (placed.moveTo stop).closeLiteral.delivery rfl (placed.closed_lexeme opened reading)
        (placed.held_before_closed opened reading) delivery
  | @interrupted literal suspended after ready opened reading =>
      obtain ⟨start, reaches⟩ := StringLiteral.read_interpolation_places reading
      apply (placed.moveTo reaches).exchangeLiterals
      · simp [openLiterals, opened, start]
      · simp [openLiterals, opened]
  | @unclosed literal error ready opened reading =>
      have there : literal.PlacedIn text lexer.cursor :=
        placed.literals literal (by simp [openLiterals, opened])
      rw [StringLiteral.read_unclosed reading]
      exact StringLiteral.unclosed_placed there.start placed.cursor
  | finished ready literal finished => exact placed.finish
  | failed ready literal remaining failure =>
      exact (scan_failure failure).placed placed.cursor
  | layout ready literal remaining success found =>
      exact placed.passing (scan_success success)
  | @lexeme scanned lexeme step ready literal remaining success found delivery =>
      have outcome := scan_success success
      exact (placed.passing outcome).delivery literal
        (outcome.lexeme_placed placed.cursor remaining found)
        (placed.held_before_lexeme literal outcome found) delivery
  | @literal scanned opened ready literal remaining success found =>
      have outcome := scan_success success
      apply (placed.passing outcome).openLiteral
        (outcome.literal_placed placed.cursor remaining found)
      intro outside held member
      rw [outcome.literal_start found]
      exact placed.held_before_cursor literal outside member
  | @element scanned name ready literal remaining success found =>
      have outcome := scan_success success
      have outside : lexer.interpolations = [] :=
        List.isEmpty_iff.mp (outcome.markup_of_element found)
      apply (placed.passing outcome).openElement
      · simp [openLiterals, Lexer.passing, literal, outside]
      · exact outcome.name_placed placed.cursor remaining found

end Placed

theorem Run.placed {text : Text} {tokens : List Token} {lexer : Lexer}
    (run : Run text tokens lexer) : Placed text tokens lexer :=
  run.invariant (Placed.ofText text) fun _ lexer _ placed =>
    placed.turn lexer.step_turn

theorem Run.error_placed {text : Text} {tokens : List Token} {lexer after : Lexer}
    {error : LexicalError} (run : Run text tokens lexer)
    (failed : lexer.step = .pulled (.failed error after)) : error.PlacedIn text := by
  have kept := run.placed.turn lexer.step_turn
  rwa [failed] at kept

end Lexer

end HackLexer
