import HackLexer.Proofs.Blame
import HackLexer.Proofs.MarkupFlattening

/-!
# Nesting of markup tokens

A closing tag or a markup comment is only made inside of an element, and an element
has a name and the `>` of its opening tag before that.  So among the first tokens
there are never more closing tags than names, and a closing tag or comment has a name
and a `>` in front of it.  This is kept by lists of lexemes: those that an element
holds, those that it gives to the element around it, and those that dissolve at the
end of the text.

The main statement is `markup_well_nested`.
-/

namespace HackLexer

/-- Among the first kinds of a list, there are at most as many closing tags as names. -/
def Balanced (kinds : List TokenKind) : Prop :=
  ∀ count, (kinds.take count).count .xhpClosing ≤ (kinds.take count).count .xhpName

/-- A name and a `>` stand in front of every closing tag and every markup comment. -/
def Introduced (kinds : List TokenKind) : Prop :=
  ∀ index kind, kinds[index]? = some kind → kind.isJoined = true →
    [.xhpName, .gt].Sublist (kinds.take index)

namespace Balanced

variable {kinds more : List TokenKind}

theorem nil : Balanced [] := by
  intro count
  rw [List.take_nil]
  exact Nat.le_refl _

theorem append (front : Balanced kinds) (back : Balanced more) : Balanced (kinds ++ more) := by
  intro count
  have first := front count
  have second := back (count - kinds.length)
  rw [List.take_append, List.count_append, List.count_append]
  omega

theorem of_append (whole : Balanced (kinds ++ more)) : Balanced kinds := by
  intro count
  have least := whole (min count kinds.length)
  rw [List.take_append_of_le_length (Nat.min_le_right _ _)] at least
  rcases Nat.le_total count kinds.length with inside | beyond
  · rwa [Nat.min_eq_left inside] at least
  · rw [Nat.min_eq_right beyond, List.take_length] at least
    rwa [List.take_of_length_le beyond]

theorem single {kind : TokenKind} (plain : kind ≠ .xhpClosing) : Balanced [kind] := by
  intro count
  have none : ([kind].take count).count .xhpClosing = 0 := by
    apply List.count_eq_zero.mpr
    intro member
    exact plain (List.mem_singleton.mp (List.mem_of_mem_take member)).symm
  rw [none]
  exact Nat.zero_le _

/-- A name in front and a closing tag behind cancel out. -/
theorem enclosed (inside : Balanced kinds) : Balanced (.xhpName :: kinds ++ [.xhpClosing]) := by
  intro count
  rcases Nat.lt_or_ge (kinds.length + 1) count with all | part
  · have whole := inside kinds.length
    rw [List.take_length] at whole
    rw [List.take_of_length_le (by simp; omega)]
    simp
    omega
  · rw [List.take_append_of_le_length (by simpa using part)]
    cases count with
    | zero => exact Nat.le_refl _
    | succ count =>
        have fewer := inside count
        rw [List.take_succ_cons]
        simp
        omega

end Balanced

namespace Introduced

variable {kinds more : List TokenKind}

theorem nil : Introduced [] := by
  intro index kind found
  simp at found

/-- What is appended may rely on what stands in front of it. -/
theorem extend (front : Introduced kinds)
    (back : ∀ index kind, more[index]? = some kind → kind.isJoined = true →
      [.xhpName, .gt].Sublist (kinds ++ more.take index)) : Introduced (kinds ++ more) := by
  intro index kind found joined
  rcases Nat.lt_or_ge index kinds.length with inside | beyond
  · rw [List.getElem?_append_left inside] at found
    rw [List.take_append_of_le_length (Nat.le_of_lt inside)]
    exact front index kind found joined
  · rw [List.getElem?_append_right beyond] at found
    rw [List.take_append, List.take_of_length_le beyond]
    exact back _ kind found joined

theorem append (front : Introduced kinds) (back : Introduced more) :
    Introduced (kinds ++ more) := by
  apply front.extend
  intro index kind found joined
  exact (back index kind found joined).trans (List.sublist_append_right _ _)

theorem of_append (whole : Introduced (kinds ++ more)) : Introduced kinds := by
  intro index kind found joined
  have inside := (List.getElem?_eq_some_iff.mp found).1
  have introduced := whole index kind (by rwa [List.getElem?_append_left inside]) joined
  rwa [List.take_append_of_le_length (Nat.le_of_lt inside)] at introduced

/-- Behind a name and a `>`, everything may follow. -/
theorem concat (front : Introduced kinds) (kind : TokenKind)
    (allowed : kind.isJoined = true → [.xhpName, .gt].Sublist kinds) :
    Introduced (kinds ++ [kind]) := by
  apply front.extend
  intro index last found joined
  have same : last = kind :=
    List.mem_singleton.mp (List.mem_of_getElem? found)
  exact (allowed (same ▸ joined)).trans (List.sublist_append_left _ _)

theorem single {kind : TokenKind} (plain : kind.isJoined = false) : Introduced [kind] := by
  apply nil.concat
  intro joined
  rw [plain] at joined
  cases joined

end Introduced

/-- A list of kinds in which closing tags and comments have their elements. -/
structure WellNested (kinds : List TokenKind) : Prop where
  balanced : Balanced kinds
  introduced : Introduced kinds

namespace WellNested

variable {kinds more : List TokenKind}

theorem nil : WellNested [] :=
  ⟨.nil, .nil⟩

theorem append (front : WellNested kinds) (back : WellNested more) :
    WellNested (kinds ++ more) :=
  ⟨front.balanced.append back.balanced, front.introduced.append back.introduced⟩

theorem of_append (whole : WellNested (kinds ++ more)) : WellNested kinds :=
  ⟨whole.balanced.of_append, whole.introduced.of_append⟩

theorem single {kind : TokenKind} (plain : kind.isJoined = false) : WellNested [kind] := by
  refine ⟨.single ?_, .single plain⟩
  rintro rfl
  cases plain

end WellNested

def ElementPhase.isClosing : ElementPhase → Bool
  | .closingTag _ _ _ => true
  | _ => false

namespace Element

/-- The name of an element and what follows it up to its closing tag. -/
def front (element : Element) : List TokenKind :=
  element.name.kind :: element.content.reverse.map Lexeme.kind

/-- An element has a name that no closing tag has used up yet, behind its opening tag
also a `>`, and what it holds back is well nested by itself. -/
structure Nests (element : Element) : Prop where
  named : element.name.kind = .xhpName
  balanced : Balanced (element.content.reverse.map Lexeme.kind)
  introduced : Introduced element.front
  tagged : element.phase ≠ .openingTag → ∃ gt, gt ∈ element.content ∧ gt.kind = .gt
  held : ∀ lt slash name, element.phase = .closingTag lt slash name →
    WellNested (lt.kind :: slash.kind :: name.reverse.map Lexeme.kind)

namespace Nests

variable {element : Element}

theorem opened {name : Lexeme} (named : name.kind = .xhpName) : (opened name).Nests where
  named := named
  balanced := .nil
  introduced := by
    apply Introduced.single
    rw [Element.opened, named]
    rfl
  tagged children := absurd rfl children
  held lt slash held phase := by cases phase

theorem wellNested_front (nests : element.Nests) : WellNested element.front := by
  refine ⟨?_, nests.introduced⟩
  have name : Balanced [element.name.kind] := .single (by rw [nests.named]; nofun)
  exact name.append nests.balanced

theorem opened_front (nests : element.Nests) (children : element.phase ≠ .openingTag) :
    [.xhpName, .gt].Sublist element.front := by
  obtain ⟨gt, member, kind⟩ := nests.tagged children
  rw [front, nests.named]
  apply List.Sublist.cons_cons
  apply List.singleton_sublist.mpr
  rw [← kind]
  exact List.mem_map_of_mem (List.mem_reverse.mpr member)

theorem wellNested_lexemes (nests : element.Nests) :
    WellNested (element.lexemes.map Lexeme.kind) := by
  have front := nests.wellNested_front
  unfold lexemes
  split
  · simpa [Element.front] using front
  · simpa [Element.front] using front
  · rename_i lt slash name phase
    have whole := front.append (nests.held lt slash name phase)
    simpa [Element.front] using whole

/-- Something is added to the content of an element that does not close a tag. -/
theorem grow {lexemes : List Lexeme} (nests : element.Nests)
    (phase : element.phase.isClosing = false)
    (added : Balanced (lexemes.map Lexeme.kind))
    (introduced : Introduced (element.front ++ lexemes.map Lexeme.kind)) :
    Nests { element with content := lexemes.reverse ++ element.content } where
  named := nests.named
  balanced := by
    have whole := nests.balanced.append added
    simpa using whole
  introduced := by simpa [Element.front] using introduced
  tagged children := by
    obtain ⟨gt, member, kind⟩ := nests.tagged children
    exact ⟨gt, List.mem_append_right _ member, kind⟩
  held lt slash name closing := by
    rw [closing] at phase
    cases phase

/-- The last child is taken off, if it is no `>`. -/
theorem shrink {last : Lexeme} {earlier : List Lexeme} (nests : element.Nests)
    (phase : element.phase = .children) (content : element.content = last :: earlier)
    (noGt : last.kind ≠ .gt) : Nests { element with content := earlier } where
  named := nests.named
  balanced := by
    have whole := nests.balanced
    rw [content, List.reverse_cons, List.map_append] at whole
    exact whole.of_append
  introduced := by
    have whole := nests.introduced
    rw [front, content, List.reverse_cons, List.map_append, ← List.cons_append] at whole
    exact whole.of_append
  tagged children := by
    obtain ⟨gt, member, kind⟩ := nests.tagged children
    rw [content] at member
    rcases List.mem_cons.mp member with rfl | before
    · exact absurd kind noGt
    · exact ⟨gt, before, kind⟩
  held lt slash name closing := by
    rw [phase] at closing
    cases closing

section Receiving

variable {after : Element} {lexeme : Lexeme} (plain : lexeme.kind.isJoined = false)

include plain

theorem push (nests : element.Nests) (phase : element.phase.isClosing = false) :
    (element.push lexeme).Nests := by
  have single := WellNested.single plain
  exact @grow element [lexeme] nests phase single.balanced
    (nests.introduced.append single.introduced)

theorem collecting (nests : element.Nests) (receipt : element.receive lexeme = .collecting after) :
    after.Nests := by
  cases received_of_receipt receipt with
  | tag phase =>
      apply nests.push plain
      rw [phase]
      rfl
  | tagEnd phase last =>
      have pushed := nests.push plain (by rw [phase]; rfl)
      exact
        { named := pushed.named
          balanced := pushed.balanced
          introduced := pushed.introduced
          tagged := fun _ => ⟨lexeme, List.mem_cons_self, last⟩
          held := fun lt slash name closing => by cases closing }
  | child phase =>
      apply nests.push plain
      rw [phase]
      rfl
  | @closingTag lt earlier phase slash content opener =>
      have shrunk := nests.shrink phase content (by rw [opener]; nofun)
      refine
        { named := shrunk.named
          balanced := shrunk.balanced
          introduced := shrunk.introduced
          tagged := fun _ => shrunk.tagged (by simp [phase])
          held := ?_ }
      intro first second name closing
      cases closing
      have front : WellNested [lt.kind] := .single (by rw [opener]; rfl)
      exact front.append (.single plain)
  | @closingName lt slash name phase =>
      refine
        { named := nests.named
          balanced := nests.balanced
          introduced := nests.introduced
          tagged := fun _ => nests.tagged (by simp [phase])
          held := ?_ }
      intro first second held closing
      cases closing
      have longer := (nests.held lt slash name phase).append (.single plain)
      simpa using longer

theorem complete {result : List Lexeme} (nests : element.Nests)
    (receipt : element.receive lexeme = .complete result) :
    WellNested (result.map Lexeme.kind) := by
  cases received_of_receipt receipt with
  | selfClosing phase =>
      rw [lexemes_push_of_openingTag lexeme phase, List.map_append]
      exact nests.wellNested_lexemes.append (.single plain)
  | @closed lt slash name phase =>
      have joined := nests.balanced.enclosed
      have introduced := nests.introduced.concat .xhpClosing fun _ =>
        nests.opened_front (by simp [phase])
      have kinds : (lexemes (Element.push { element with phase := .children }
          (closing lt lexeme name.reverse))).map Lexeme.kind = element.front ++ [.xhpClosing] := by
        simp [lexemes, Element.push, front, closing]
      rw [kinds]
      refine ⟨?_, introduced⟩
      rw [front, nests.named]
      exact joined

end Receiving

/-- A comment takes the place of its opener. -/
theorem comment {after : Element} {lexeme lt comment : Lexeme} (nests : element.Nests)
    (receipt : element.receive lexeme = .comment lt after) (kind : comment.kind = .xhpComment) :
    (after.push comment).Nests := by
  cases received_of_receipt receipt with
  | comment phase decrement content opener exclaimed =>
      have first := nests.shrink phase content (by rw [exclaimed]; nofun)
      have second := first.shrink phase rfl (by rw [opener]; nofun)
      refine @grow _ [comment] second ?_ ?_ ?_
      · change element.phase.isClosing = false
        rw [phase]
        rfl
      · exact .single (by rw [kind]; nofun)
      · apply second.introduced.concat
        intro joined
        exact second.opened_front (by simp [phase])

theorem extend {lexemes : List Lexeme} (nests : element.Nests)
    (given : WellNested (lexemes.map Lexeme.kind)) : (element.extend lexemes).Nests := by
  unfold Element.extend
  split
  · rename_i lt slash name phase
    refine
      { named := nests.named
        balanced := nests.balanced
        introduced := nests.introduced
        tagged := fun _ => nests.tagged (by simp [phase])
        held := ?_ }
    intro first second held closing
    cases closing
    have longer := (nests.held lt slash name phase).append given
    simpa using longer
  · rename_i noClosing
    have phase : element.phase.isClosing = false := by
      unfold ElementPhase.isClosing
      split
      · rename_i lt slash name closing
        exact (noClosing lt slash name closing).elim
      · rfl
    exact nests.grow phase given.balanced (nests.introduced.append given.introduced)

end Nests

theorem wellNested_dissolve {elements : List Element}
    (nests : ∀ element, element ∈ elements → element.Nests) :
    WellNested ((dissolve elements).map Lexeme.kind) := by
  induction elements with
  | nil => exact .nil
  | cons element outer ih =>
      rw [dissolve_cons, List.map_append]
      have around := ih fun other member => nests other (List.mem_cons_of_mem _ member)
      exact around.append (nests element List.mem_cons_self).wellNested_lexemes

end Element

theorem map_kind_token (lexemes : List Lexeme) :
    (lexemes.map Lexeme.token).map Token.kind = lexemes.map Lexeme.kind := by
  rw [List.map_map]
  rfl

theorem StringLiteral.isJoined_kind (literal : StringLiteral) :
    literal.kind.isJoined = false := by
  unfold kind
  split
  · rfl
  · rfl

namespace Lexer

/-- The tokens that are handed out or ready are well nested, and so are the open
elements. -/
structure KeepsNesting (tokens : List Token) (lexer : Lexer) : Prop where
  tokens : WellNested ((tokens ++ lexer.ready).map Token.kind)
  elements : ∀ element, element ∈ lexer.elements → element.Nests

namespace KeepsNesting

variable {text : Text} {tokens : List Token} {lexer : Lexer}

theorem ofText (text : Text) : KeepsNesting [] (.ofText text) where
  tokens := .nil
  elements _ := List.not_mem_nil.elim

theorem of_eq {other : Lexer} (keeps : KeepsNesting tokens lexer)
    (elements : other.elements = lexer.elements) (ready : other.ready = lexer.ready) :
    KeepsNesting tokens other where
  tokens := ready ▸ keeps.tokens
  elements := elements ▸ keeps.elements

theorem exchangeElement {element after : Element} {outer : List Element}
    (keeps : KeepsNesting tokens lexer) (elements : lexer.elements = element :: outer)
    (nests : after.Nests) : KeepsNesting tokens { lexer with elements := after :: outer } := by
  refine { keeps with elements := ?_ }
  intro inside member
  rcases List.mem_cons.mp member with rfl | around
  · exact nests
  · exact keeps.elements inside (by simp [elements, around])

theorem handBack {lexemes : List Lexeme} (keeps : KeepsNesting tokens lexer)
    (given : WellNested (lexemes.map Lexeme.kind)) :
    KeepsNesting tokens (lexer.handBack lexemes) := by
  unfold Lexer.handBack
  split
  · refine { keeps with tokens := ?_ }
    have longer := keeps.tokens.append given
    rw [← map_kind_token, ← List.map_append, List.append_assoc] at longer
    exact longer
  · rename_i parent outer elements
    have nests := keeps.elements parent (by simp [elements])
    exact keeps.exchangeElement elements (nests.extend given)

theorem delivery {lexeme : Lexeme} {step : Step} (keeps : KeepsNesting tokens lexer)
    (ready : lexer.ready = []) (plain : lexeme.kind.isJoined = false)
    (delivery : lexer.Delivery lexeme step) :
    step.Keeps KeepsNesting (fun _ => True) tokens := by
  cases delivery with
  | within => exact keeps.of_eq rfl rfl
  | ended => exact keeps.of_eq rfl rfl
  | token =>
      refine { keeps with tokens := ?_ }
      have longer := keeps.tokens.append (.single plain)
      simpa [ready, Lexeme.token] using longer
  | collecting interpolations elements receipt =>
      have nests := keeps.elements _ (by rw [elements]; exact List.mem_cons_self)
      exact keeps.exchangeElement elements (nests.collecting plain receipt)
  | @complete element outer lexemes interpolations elements receipt =>
      have dropped : KeepsNesting tokens { lexer with elements := outer } :=
        { keeps with
          elements := fun around member => keeps.elements around (by simp [elements, member]) }
      have nests := keeps.elements element (by simp [elements])
      exact dropped.handBack (nests.complete plain receipt)
  | comment interpolations elements receipt closed =>
      have nests := keeps.elements _ (by rw [elements]; exact List.mem_cons_self)
      have commented := nests.comment receipt (markupComment_ok closed).1
      exact (keeps.exchangeElement elements commented).of_eq rfl rfl
  | unclosedComment => trivial

theorem finish (keeps : KeepsNesting tokens lexer) (ready : lexer.ready = []) :
    (Step.pulled lexer.finish).Keeps KeepsNesting (fun _ => True) tokens := by
  unfold Lexer.finish
  split
  · trivial
  · split
    · exact keeps
    · rename_i lexeme more dissolved
      have held := Element.wellNested_dissolve keeps.elements
      have longer := keeps.tokens.append held
      rw [dissolved, ← map_kind_token, ← List.map_append, ready, List.append_nil] at longer
      refine ⟨?_, fun _ => List.not_mem_nil.elim⟩
      rw [List.append_assoc]
      exact longer

theorem turn {step : Step} (keeps : KeepsNesting tokens lexer) (turn : lexer.Turn step) :
    step.Keeps KeepsNesting (fun _ => True) tokens := by
  cases turn with
  | @ready token more ready =>
      refine { keeps with tokens := ?_ }
      have waiting := keeps.tokens
      rw [ready] at waiting
      simpa using waiting
  | @closed literal lexeme step ready opened reading delivery =>
      have moved : KeepsNesting tokens { lexer with cursor := lexeme.stop, literal := none } :=
        keeps.of_eq rfl rfl
      apply moved.delivery ready _ delivery
      rw [(StringLiteral.read_closed_places reading).1]
      exact literal.isJoined_kind
  | interrupted => exact keeps.of_eq rfl rfl
  | unclosed => trivial
  | finished ready => exact keeps.finish ready
  | failed => trivial
  | layout => exact keeps.of_eq rfl rfl
  | @lexeme scanned lexeme step ready literal remaining success found delivery =>
      have passed : KeepsNesting tokens (lexer.passing scanned) := keeps.of_eq rfl rfl
      have given := scan_justified success
      rw [found] at given
      exact passed.delivery ready given.2 delivery
  | literal => exact keeps.of_eq rfl rfl
  | @element scanned name ready literal remaining success found =>
      refine { keeps with elements := ?_ }
      intro inside member
      rcases List.mem_cons.mp member with rfl | around
      · exact .opened ((scan_success success).name_kind found)
      · exact keeps.elements inside around

end KeepsNesting

theorem Run.keepsNesting {text : Text} {tokens : List Token} {lexer : Lexer}
    (run : Run text tokens lexer) : KeepsNesting tokens lexer :=
  run.invariant (KeepsNesting.ofText text) fun _ lexer _ keeps => keeps.turn lexer.step_turn

/-- Nothing is open and nothing waits. -/
structure Bare (lexer : Lexer) : Prop extends lexer.Outside where
  elements : lexer.elements = []
  ready : lexer.ready = []

/-- Outside of elements, what a scan gives is handed out as it is. -/
theorem Bare.next_of_scan {lexer : Lexer} {kind : TokenKind} {count : Nat} (bare : lexer.Bare)
    (remaining : lexer.cursor.rest ≠ [])
    (success : scan true lexer.cursor = .ok (.ofLexeme (lexer.cursor.lexeme kind count))) :
    ∃ after, lexer.next = .token (lexer.cursor.lexeme kind count).token after ∧ after.Bare ∧
      after.cursor = lexer.cursor.advance count := by
  have scans : scan lexer.interpolations.isEmpty lexer.cursor =
      .ok (.ofLexeme (lexer.cursor.lexeme kind count)) := by
    rw [bare.interpolations]
    exact success
  have step := step_of_scanned bare.ready bare.literal remaining scans
  let after := lexer.passing (.ofLexeme (lexer.cursor.lexeme kind count))
  have handed : lexer.step = .pulled (.token (lexer.cursor.lexeme kind count).token after) := by
    rw [step]
    change after.deliver _ = _
    unfold deliver
    rw [show after.interpolations = [] from bare.interpolations,
      show after.elements = [] from bare.elements]
  exact ⟨after, next_of_pulled handed,
    ⟨⟨bare.literal, bare.interpolations⟩, bare.elements, bare.ready⟩, rfl⟩

end Lexer

section Stray

variable {cursor : Cursor} {rest : Text}

theorem scan_commentLt (here : cursor.rest = '<' :: '!' :: rest) :
    scan true cursor = .ok (.ofLexeme (cursor.lexeme .lt 1)) := by
  have spelled := recognise_spelled true here rfl (by decide) nofun (by simp [here])
  exact scan_mark here spelled rfl rfl rfl rfl rfl

theorem scan_bang (here : cursor.rest = '!' :: '-' :: rest) :
    scan true cursor = .ok (.ofLexeme (cursor.lexeme .bang 1)) :=
  scan_sign (by decide) here rfl

theorem scan_decrement (here : cursor.rest = '-' :: '-' :: rest) :
    scan true cursor = .ok (.ofLexeme (cursor.lexeme .decrement 2)) :=
  scan_sign (by decide) here rfl

end Stray

namespace Lexer

theorem Bare.stray_closing {lexer : Lexer} {next : Char} {behind : Text} (bare : lexer.Bare)
    (here : lexer.cursor.rest = '<' :: '/' :: next :: behind)
    (other : next ≠ '/' ∧ next ≠ '*' ∧ next ≠ '=') :
    ∃ tokens after, Calls 2 lexer tokens after ∧ tokens.map Token.kind = [.lt, .slash] ∧
      after.Bare := by
  obtain ⟨middle, first, middleBare, moved⟩ :=
    bare.next_of_scan (by rw [here]; exact List.cons_ne_nil _ _) (scan_lt here)
  have there : middle.cursor.rest = '/' :: next :: behind := by
    rw [moved, Cursor.rest_advance, here]
    rfl
  obtain ⟨after, second, afterBare, _⟩ :=
    middleBare.next_of_scan (by rw [there]; exact List.cons_ne_nil _ _) (scan_slash next there other)
  exact ⟨_, after, .token first (.token second .none), rfl, afterBare⟩

theorem Bare.stray_comment {lexer : Lexer} {behind : Text} (bare : lexer.Bare)
    (here : lexer.cursor.rest = '<' :: '!' :: '-' :: '-' :: behind) :
    ∃ tokens after, Calls 3 lexer tokens after ∧
      tokens.map Token.kind = [.lt, .bang, .decrement] ∧ after.Bare := by
  obtain ⟨opened, first, openedBare, moved⟩ :=
    bare.next_of_scan (by rw [here]; exact List.cons_ne_nil _ _) (scan_commentLt here)
  have there : opened.cursor.rest = '!' :: '-' :: '-' :: behind := by
    rw [moved, Cursor.rest_advance, here]
    rfl
  obtain ⟨exclaimed, second, exclaimedBare, further⟩ :=
    openedBare.next_of_scan (by rw [there]; exact List.cons_ne_nil _ _) (scan_bang there)
  have last : exclaimed.cursor.rest = '-' :: '-' :: behind := by
    rw [further, Cursor.rest_advance, there]
    rfl
  obtain ⟨after, third, afterBare, _⟩ :=
    exclaimedBare.next_of_scan (by rw [last]; exact List.cons_ne_nil _ _) (scan_decrement last)
  exact ⟨_, after, .token first (.token second (.token third .none)), rfl, afterBare⟩

end Lexer

/-- What a lexer hands out for a text is well nested: among the first tokens there are
never more closing tags than names, a name and a `>` stand in front of every closing
tag and markup comment, and without a name there are none of them.  Outside of
elements, `</` and `<!--` are handed out as plain tokens. -/
theorem markup_well_nested (text : Text) :
    let kinds := (Lexer.ofText text).handedOut.map Token.kind
    (∀ count, (kinds.take count).count .xhpClosing ≤ (kinds.take count).count .xhpName) ∧
    (∀ index, kinds[index]? = some TokenKind.xhpClosing ∨ kinds[index]? = some .xhpComment →
      [.xhpName, .gt].Sublist (kinds.take index)) ∧
    (.xhpName ∉ kinds → .xhpClosing ∉ kinds ∧ .xhpComment ∉ kinds) ∧
    ∀ lexer : Lexer, lexer.Bare →
      (∀ next behind, lexer.cursor.rest = '<' :: '/' :: next :: behind →
        next ≠ '/' ∧ next ≠ '*' ∧ next ≠ '=' →
        ∃ handed after, Lexer.Calls 2 lexer handed after ∧
          handed.map Token.kind = [.lt, .slash] ∧ after.Bare) ∧
      ∀ behind, lexer.cursor.rest = '<' :: '!' :: '-' :: '-' :: behind →
        ∃ handed after, Lexer.Calls 3 lexer handed after ∧
          handed.map Token.kind = [.lt, .bang, .decrement] ∧ after.Bare := by
  intro kinds
  obtain ⟨last, run⟩ := (@Lexer.Run.start text).handedOut
  have nested : WellNested kinds := by
    have whole := run.keepsNesting.tokens
    rw [List.map_append] at whole
    exact whole.of_append
  have introduced : ∀ index, kinds[index]? = some TokenKind.xhpClosing ∨ kinds[index]? = some .xhpComment →
      [.xhpName, .gt].Sublist (kinds.take index) := by
    rintro index (closing | comment)
    · exact nested.introduced index _ closing rfl
    · exact nested.introduced index _ comment rfl
  have named (index : Nat)
      (joined : kinds[index]? = some TokenKind.xhpClosing ∨
        kinds[index]? = some TokenKind.xhpComment) : TokenKind.xhpName ∈ kinds := by
    have inFront := (introduced index joined).subset List.mem_cons_self
    exact List.mem_of_mem_take inFront
  refine ⟨nested.balanced, introduced, ?_, ?_⟩
  · intro nameless
    constructor
    · intro member
      obtain ⟨index, found⟩ := List.mem_iff_getElem?.mp member
      exact nameless (named index (.inl found))
    · intro member
      obtain ⟨index, found⟩ := List.mem_iff_getElem?.mp member
      exact nameless (named index (.inr found))
  · intro lexer bare
    constructor
    · intro next behind here other
      exact bare.stray_closing here other
    · intro behind here
      exact bare.stray_comment here

/-- The closing tag of an element behind its name, its `>` and a child, and one that
closes no element. -/
theorem closing_tags_well_nested :
    let closed := (Lexer.ofText "<p>b</p>".toList).handedOut.map Token.kind
    let lexer := Lexer.ofText "</a>".toList
    let stray := lexer.handedOut.map Token.kind
    (closed[3]? = some .xhpClosing ∧ [.xhpName, .gt].Sublist (closed.take 3)) ∧
    (.xhpName ∉ stray ∧ .xhpClosing ∉ stray ∧ .xhpComment ∉ stray) ∧ lexer.Bare ∧
      ∃ handed after, Lexer.Calls 2 lexer handed after ∧
        handed.map Token.kind = [.lt, .slash] ∧ after.Bare := by
  intro closed lexer stray
  have found : closed[3]? = some .xhpClosing := by decide +kernel
  have nameless : .xhpName ∉ stray := by decide +kernel
  have bare : lexer.Bare := ⟨⟨rfl, rfl⟩, rfl, rfl⟩
  have enclosed := markup_well_nested "<p>b</p>".toList
  have outside := markup_well_nested "</a>".toList
  refine ⟨⟨found, enclosed.2.1 3 (.inl found)⟩, ⟨nameless, outside.2.2.1 nameless⟩, bare, ?_⟩
  exact (outside.2.2.2 lexer bare).1 'a' ['>'] rfl (by decide)

end HackLexer
