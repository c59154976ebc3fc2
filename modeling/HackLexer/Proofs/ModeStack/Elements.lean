import HackLexer.Proofs.ModeStack.Scans
import HackLexer.Proofs.LexerPlacement

/-!
# Elements on the stack of modes

An open element stands on the stack as the tokens of its lexemes.  The phases of
the two agree, so a token that is handed to the one has the effect that its
lexeme has on the other.
-/

namespace HackLexer

theorem ModeStack.raw?_eq {source : Source} {limit : Cursor} {lexeme : Lexeme}
    (placed : lexeme.PlacedIn source.content limit) :
    ModeStack.raw? source lexeme.token = some lexeme.raw := by
  have cut := placed.start.slice?_eq placed.stop
  have stop : lexeme.token.span.stop = lexeme.stop.offset := placed.stop.stop_spanTo
  rw [ModeStack.raw?, stop]
  exact cut

namespace ModeStack

namespace Markup

/-- The tokens of an element that its phase does not hold back. -/
def collected (name : Lexeme) (content : List Lexeme) : List Token :=
  (name :: content.reverse).map Lexeme.token

theorem collected_cons (name last : Lexeme) (earlier : List Lexeme) :
    collected name (last :: earlier) = collected name earlier ++ [last.token] := by
  simp [collected]

theorem lastKinds_collected (name : Lexeme) (content : List Lexeme) :
    lastKinds (collected name content) =
      match content with
      | [] => (none, some name.kind)
      | last :: earlier => (some (earlier.head?.getD name).kind, some last.kind) := by
  cases content with
  | nil => rfl
  | cons last earlier =>
      cases earlier with
      | nil => rfl
      | cons before more => simp [lastKinds, collected_cons, Lexeme.token]

/-- How an element stands on the stack. -/
def ofElement (element : Element) : Markup :=
  { tokens := collected element.name element.content
    phase :=
      match element.phase with
      | .openingTag => .openingTag
      | .children => .children
      | .closingTag lt slash name =>
          .closingTag lt.token slash.token (name.reverse.map Lexeme.token) }

theorem intoTokens_ofElement (element : Element) :
    (ofElement element).intoTokens = element.lexemes.map Lexeme.token := by
  obtain ⟨name, content, phase⟩ := element
  cases phase with
  | openingTag => simp [ofElement, intoTokens, Element.lexemes, collected]
  | children => simp [ofElement, intoTokens, Element.lexemes, collected]
  | closingTag lt slash held => simp [ofElement, intoTokens, Element.lexemes, collected]

theorem extend_ofElement (element : Element) (lexemes : List Lexeme) :
    (ofElement element).extend (lexemes.map Lexeme.token) =
      ofElement (element.extend lexemes) := by
  obtain ⟨name, content, phase⟩ := element
  cases phase with
  | openingTag => simp [ofElement, extend, Element.extend, collected]
  | children => simp [ofElement, extend, Element.extend, collected]
  | closingTag lt slash held => simp [ofElement, extend, Element.extend]

theorem push_ofElement (element : Element) (lexeme : Lexeme) :
    ofElement (element.push lexeme) =
      { ofElement element with
        tokens := (ofElement element).tokens ++ [lexeme.token] } := by
  rw [ofElement, Element.push, collected_cons]
  rfl

end Markup

/-- An element on the stack says to a token what the element says to its
lexeme. -/
def Progress.Follows : Progress → Element.Receipt → Prop
  | .pending markup, .collecting element => markup = .ofElement element
  | .comment lt markup, .comment lexeme element =>
      lt = lexeme.token ∧ markup = .ofElement element
  | .complete markup, .complete lexemes => markup.intoTokens = lexemes.map Lexeme.token
  | _, _ => False

namespace Markup

variable {source : Source} {name lexeme : Lexeme} {content : List Lexeme}

theorem push?_openingTag (named : name.kind = .xhpName) :
    ∃ progress,
      (ofElement ⟨name, content, .openingTag⟩).push? source lexeme.token = some progress ∧
      progress.Follows (Element.receive ⟨name, content, .openingTag⟩ lexeme) := by
  have slash : (content.head?.getD name).kind = .slash ↔
      content.head?.map Lexeme.kind = some .slash := by
    cases content with
    | nil => simp [named]
    | cons last earlier => simp
  have kind : lexeme.token.kind = lexeme.kind := rfl
  simp only [push?, ofElement, Element.receive, Element.push, ← collected_cons,
    lastKinds_collected, Option.some.injEq, slash, kind]
  by_cases gt : lexeme.kind = .gt
  · rw [if_pos gt, if_pos gt]
    by_cases empty : content.head?.map Lexeme.kind = some .slash
    · rw [if_pos empty, if_pos empty]
      exact ⟨_, rfl, intoTokens_ofElement ⟨name, lexeme :: content, .openingTag⟩⟩
    · rw [if_neg empty, if_neg empty]
      exact ⟨_, rfl, rfl⟩
  · rw [if_neg gt, if_neg gt]
    exact ⟨_, rfl, rfl⟩

theorem ofElement_children (name : Lexeme) (content : List Lexeme) :
    ofElement ⟨name, content, .children⟩ =
      { tokens := collected name content, phase := .children } := rfl

/-- Among the children, a token is kept unless it completes `</` or `<!--`. -/
theorem push?_kept
    (noClosing : lexeme.kind = .slash →
      (lastKinds (collected name content)).2 ≠ some .lt)
    (noComment : lexeme.kind = .decrement →
      lastKinds (collected name content) ≠ (some .lt, some .bang)) :
    (ofElement ⟨name, content, .children⟩).push? source lexeme.token =
      some (.pending (ofElement ⟨name, lexeme :: content, .children⟩)) := by
  rw [ofElement_children, push?]
  dsimp only
  split
  · rename_i closing
    exact absurd closing.1 (noClosing closing.2)
  · split
    · rename_i comment
      exact absurd comment.1 (noComment comment.2)
    · rw [ofElement_children, collected_cons]

theorem push?_closing {lt : Lexeme} {earlier : List Lexeme} (opener : lt.kind = .lt)
    (slash : lexeme.kind = .slash) :
    (ofElement ⟨name, lt :: earlier, .children⟩).push? source lexeme.token =
      some (.pending (ofElement ⟨name, earlier, .closingTag lt lexeme []⟩)) := by
  have last : (lastKinds (collected name (lt :: earlier))).2 = some .lt := by
    rw [lastKinds_collected]
    exact congrArg some opener
  rw [ofElement_children, push?]
  dsimp only
  split
  · simp [collected_cons, ofElement]
  · rename_i other
    exact absurd ⟨last, slash⟩ other

theorem push?_comment {lt bang : Lexeme} {earlier : List Lexeme}
    (opener : lt.kind = .lt ∧ bang.kind = .bang) (decrement : lexeme.kind = .decrement) :
    (ofElement ⟨name, bang :: lt :: earlier, .children⟩).push? source lexeme.token =
      some (.comment lt.token (ofElement ⟨name, earlier, .children⟩)) := by
  have last : lastKinds (collected name (bang :: lt :: earlier)) =
      (some .lt, some .bang) := by
    rw [lastKinds_collected]
    simp [opener]
  rw [ofElement_children, push?]
  dsimp only
  split
  · rename_i closing
    have slash : lexeme.kind = .slash := closing.2
    rw [decrement] at slash
    cases slash
  · split
    · simp [collected_cons, ofElement]
    · rename_i other
      exact absurd ⟨last, decrement⟩ other

theorem push?_children (named : name.kind = .xhpName) :
    ∃ progress,
      (ofElement ⟨name, content, .children⟩).push? source lexeme.token = some progress ∧
      progress.Follows (Element.receive ⟨name, content, .children⟩ lexeme) := by
  simp only [Element.receive, Element.push]
  split
  · rename_i lt earlier slash
    split
    · rename_i opener
      exact ⟨_, push?_closing opener slash, rfl⟩
    · rename_i other
      refine ⟨_, push?_kept ?_ ?_, rfl⟩
      · intro _
        rw [lastKinds_collected]
        simpa using other
      · intro decrement
        rw [slash] at decrement
        cases decrement
  · rename_i bang lt earlier decrement
    split
    · rename_i opener
      exact ⟨_, push?_comment opener decrement, rfl, rfl⟩
    · rename_i other
      refine ⟨_, push?_kept ?_ ?_, rfl⟩
      · intro slash
        rw [decrement] at slash
        cases slash
      · intro _
        rw [lastKinds_collected]
        simpa using other
  · rename_i content kind held noSlash noDecrement
    refine ⟨_, push?_kept ?_ ?_, rfl⟩
    · intro slash
      rw [lastKinds_collected]
      cases content with
      | nil => simp [named]
      | cons lt earlier => exact (noSlash lt earlier slash rfl).elim
    · intro decrement
      rw [lastKinds_collected]
      cases content with
      | nil => simp
      | cons bang earlier =>
          cases earlier with
          | nil => simp [named]
          | cons lt more => exact (noDecrement bang lt more decrement rfl).elim

theorem mapM_raw? {limit : Cursor} {lexemes : List Lexeme}
    (placed : ∀ lexeme, lexeme ∈ lexemes → lexeme.PlacedIn source.content limit) :
    (lexemes.map Lexeme.token).mapM (raw? source) = some (lexemes.map Lexeme.raw) := by
  induction lexemes with
  | nil => rfl
  | cons first rest ih =>
      have here := raw?_eq (placed first List.mem_cons_self)
      have later := ih fun lexeme member => placed lexeme (List.mem_cons_of_mem _ member)
      simp [here, later]

theorem push?_closingTag {lt slash : Lexeme} {held : List Lexeme} {limit : Cursor}
    (opener : lt.PlacedIn source.content lexeme.start)
    (inside : ∀ lexeme, lexeme ∈ held → lexeme.PlacedIn source.content limit)
    (given : lexeme.PlacedIn source.content limit) :
    ∃ progress,
      (ofElement ⟨name, content, .closingTag lt slash held⟩).push? source lexeme.token =
        some progress ∧
      progress.Follows
        (Element.receive ⟨name, content, .closingTag lt slash held⟩ lexeme) := by
  have kind : lexeme.token.kind = lexeme.kind := rfl
  simp only [push?, ofElement, Element.receive, kind]
  split
  · have reaches : lt.start.Reaches lexeme.stop :=
      (opener.stop.trans opener.before).trans given.stop
    have cut := opener.start.span?_eq reaches
    have stop : lexeme.token.span.stop = lexeme.stop.offset := given.stop.stop_spanTo
    have start : lt.token.span.start = lt.start.offset := rfl
    have texts : (held.reverse.map Lexeme.token).mapM (raw? source) =
        some (held.reverse.map Lexeme.raw) := by
      apply mapM_raw?
      intro lexeme member
      exact inside lexeme (List.mem_reverse.mp member)
    rw [stop, start, cut]
    simp only [texts, Option.bind_eq_bind, Option.bind_some]
    refine ⟨_, rfl, ?_⟩
    change collected name content ++ [(Element.closing lt lexeme held.reverse).token] = _
    simp [Element.lexemes, Element.push, collected]
  · refine ⟨_, rfl, ?_⟩
    simp [Progress.Follows, ofElement]

theorem push?_follows {element : Element} {limit : Cursor}
    (named : element.name.kind = .xhpName)
    (held : ∀ inside, inside ∈ element.lexemes →
      inside.PlacedIn source.content lexeme.start)
    (given : lexeme.PlacedIn source.content limit) :
    ∃ progress, (ofElement element).push? source lexeme.token = some progress ∧
      progress.Follows (element.receive lexeme) := by
  obtain ⟨name, content, phase⟩ := element
  cases phase with
  | openingTag => exact push?_openingTag named
  | children => exact push?_children named
  | closingTag lt slash closing =>
      have further : lexeme.start.Reaches limit := given.stop.trans given.before
      apply push?_closingTag (held lt _) _ given
      · simp [Element.lexemes]
      · intro inside member
        apply (held inside _).mono further
        simp [Element.lexemes, member]

end Markup

end ModeStack

end HackLexer
