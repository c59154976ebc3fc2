import HackLexer.Lexer

/-!
# Progress of the lexer

A step that answers nothing leaves fewer characters to read, so a lexer cannot
go on forever without an answer.  Counting also the lexemes that open elements
and ready tokens hold bounds the number of tokens that a lexer can still hand
out.

The main statements are `step_moved` and `step_token`.
-/

namespace HackLexer

namespace Element

/-- Number of lexemes that an element holds. -/
def weight (element : Element) : Nat :=
  element.lexemes.length

@[simp]
theorem weight_opened (name : Lexeme) : (opened name).weight = 1 := rfl

@[simp]
theorem weight_push (element : Element) (lexeme : Lexeme) :
    (element.push lexeme).weight = element.weight + 1 := by
  cases phase : element.phase with
  | openingTag => simp [weight, lexemes, push, phase]
  | children => simp [weight, lexemes, push, phase]
  | closingTag lt slash name =>
      simp [weight, lexemes, push, phase]
      omega

@[simp]
theorem weight_extend (element : Element) (lexemes : List Lexeme) :
    (element.extend lexemes).weight = element.weight + lexemes.length := by
  cases phase : element.phase with
  | openingTag =>
      simp [weight, Element.lexemes, extend, phase]
      omega
  | children =>
      simp [weight, Element.lexemes, extend, phase]
      omega
  | closingTag lt slash name =>
      simp [weight, Element.lexemes, extend, phase]
      omega

@[simp]
theorem dissolve_nil : dissolve [] = [] := rfl

@[simp]
theorem length_dissolve_cons (element : Element) (outer : List Element) :
    (dissolve (element :: outer)).length = (dissolve outer).length + element.weight := by
  simp [dissolve, weight]

theorem weight_receive_collecting {element after : Element} {lexeme : Lexeme}
    (receipt : element.receive lexeme = .collecting after) :
    after.weight ≤ element.weight + 1 := by
  unfold receive at receipt
  split at receipt
  · rename_i phase
    split at receipt
    · split at receipt
      · simp at receipt
      · simp only [Receipt.collecting.injEq] at receipt
        subst receipt
        simp [weight, lexemes, push, phase]
    · simp only [Receipt.collecting.injEq] at receipt
      simp [← receipt]
  · rename_i phase
    split at receipt
    · split at receipt
      · simp only [Receipt.collecting.injEq] at receipt
        subst receipt
        rename_i content _
        simp [weight, lexemes, phase, content]
      · simp only [Receipt.collecting.injEq] at receipt
        simp [← receipt]
    · split at receipt
      · simp at receipt
      · simp only [Receipt.collecting.injEq] at receipt
        simp [← receipt]
    · simp only [Receipt.collecting.injEq] at receipt
      simp [← receipt]
  · rename_i phase
    split at receipt
    · simp at receipt
    · simp only [Receipt.collecting.injEq] at receipt
      subst receipt
      simp [weight, lexemes, phase]
      omega

/-- A complete element has at most one lexeme more than it held. -/
theorem weight_receive_complete {element : Element} {lexeme : Lexeme} {result : List Lexeme}
    (receipt : element.receive lexeme = .complete result) :
    result.length ≤ element.weight + 1 := by
  unfold receive at receipt
  split at receipt
  · split at receipt
    · split at receipt
      · simp only [Receipt.complete.injEq] at receipt
        rw [← receipt]
        exact Nat.le_of_eq (weight_push element lexeme)
      · simp at receipt
    · simp at receipt
  · split at receipt
    · split at receipt <;> simp at receipt
    · split at receipt <;> simp at receipt
    · simp at receipt
  · rename_i phase
    split at receipt
    · simp only [Receipt.complete.injEq] at receipt
      subst receipt
      simp [weight, lexemes, push, phase]
    · simp at receipt

/-- A markup comment takes its opener from the element. -/
theorem weight_receive_comment {element after : Element} {lexeme lt : Lexeme}
    (receipt : element.receive lexeme = .comment lt after) :
    after.weight + 2 = element.weight := by
  unfold receive at receipt
  split at receipt
  · split at receipt
    · split at receipt <;> simp at receipt
    · simp at receipt
  · rename_i phase
    split at receipt
    · split at receipt <;> simp at receipt
    · rename_i content
      split at receipt
      · simp only [Receipt.comment.injEq] at receipt
        obtain ⟨_, same⟩ := receipt
        subst same
        simp [weight, lexemes, phase, content]
      · simp at receipt
    · simp at receipt
  · split at receipt <;> simp at receipt

end Element

namespace Lexer

/-- Number of lexemes and tokens that a lexer holds. -/
def held (lexer : Lexer) : Nat :=
  (Element.dissolve lexer.elements).length + lexer.ready.length

/-- Bound on the number of tokens that a lexer can still hand out. -/
def potential (lexer : Lexer) : Nat :=
  lexer.cursor.rest.length + lexer.held

theorem held_handBack (lexer : Lexer) (lexemes : List Lexeme) :
    (lexer.handBack lexemes).held = lexer.held + lexemes.length := by
  cases elements : lexer.elements with
  | nil =>
      simp [held, handBack, elements]
  | cons parent outer =>
      simp [held, handBack, elements]
      omega

theorem cursor_handBack (lexer : Lexer) (lexemes : List Lexeme) :
    (lexer.handBack lexemes).cursor = lexer.cursor := by
  cases elements : lexer.elements <;> simp [handBack, elements]

/-- A delivery that answers nothing adds at most one to what is held. -/
theorem deliver_moved {lexer after : Lexer} {lexeme : Lexeme}
    (result : lexer.deliver lexeme = .moved after) :
    after.cursor.rest.length ≤ lexer.cursor.rest.length ∧ after.held ≤ lexer.held + 1 := by
  unfold deliver at result
  split at result
  · split at result <;> simp only [Step.moved.injEq] at result <;> simp [← result, held]
  · split at result
    · simp at result
    · rename_i element outer elements
      split at result
      · rename_i received receipt
        simp only [Step.moved.injEq] at result
        have bound := Element.weight_receive_collecting receipt
        simp [← result, held, elements]
        omega
      · rename_i lexemes receipt
        simp only [Step.moved.injEq] at result
        have bound := Element.weight_receive_complete receipt
        rw [← result, held_handBack, cursor_handBack]
        simp [held, elements]
        omega
      · rename_i lt received receipt
        have bound := Element.weight_receive_comment receipt
        split at result
        · simp at result
        · rename_i comment success
          simp only [Step.moved.injEq] at result
          unfold markupComment at success
          split at success
          · simp only [Except.ok.injEq] at success
            simp [← result, ← success, held, elements]
            omega
          · simp at success

theorem deliver_token {lexer after : Lexer} {lexeme : Lexeme} {token : Token}
    (result : lexer.deliver lexeme = .pulled (.token token after)) : after = lexer := by
  unfold deliver at result
  split at result
  · split at result <;> simp at result
  · split at result
    · simp only [Step.pulled.injEq, Pulled.token.injEq] at result
      exact result.2.symm
    · split at result
      · simp at result
      · simp at result
      · split at result <;> simp at result

theorem scan_shorter {markup : Bool} {cursor : Cursor} {scanned : Scanned}
    (remaining : cursor.rest ≠ []) (success : scan markup cursor = .ok scanned) :
    scanned.after.rest.length < cursor.rest.length := by
  obtain ⟨count, positive, after⟩ := scan_advances success
  rw [after]
  exact Cursor.length_rest_advance_lt remaining positive

/-- A step that answers nothing leaves fewer characters to read and does not
raise the bound. -/
theorem step_moved {lexer after : Lexer} (result : lexer.step = .moved after) :
    after.cursor.rest.length < lexer.cursor.rest.length ∧
      after.potential ≤ lexer.potential := by
  unfold step at result
  split at result
  · simp at result
  · rename_i ready
    split at result
    · split at result
      · rename_i lexeme reading
        have shorter := StringLiteral.read_closed_shorter reading
        have delivered := deliver_moved result
        simp only [held] at delivered
        simp only [potential, held]
        omega
      · rename_i literal cursor reading
        have shorter := StringLiteral.read_interpolation_shorter reading
        simp only [Step.moved.injEq] at result
        subst result
        simp only [potential, held]
        omega
      · simp at result
    · split at result
      · simp at result
      · rename_i remaining
        split at result
        · simp at result
        · rename_i scanned success
          have shorter := scan_shorter (by simp [remaining]) success
          simp only [accept] at result
          split at result
          · simp only [Step.moved.injEq] at result
            subst result
            simp only [potential, held]
            omega
          · have delivered := deliver_moved result
            simp only [held] at delivered
            simp only [potential, held]
            omega
          · simp only [Step.moved.injEq] at result
            subst result
            simp only [potential, held]
            omega
          · simp only [Step.moved.injEq] at result
            subst result
            simp only [potential, held, Element.length_dissolve_cons, Element.weight_opened]
            omega

/-- Handing out a token lowers the bound. -/
theorem step_token {lexer after : Lexer} {token : Token}
    (result : lexer.step = .pulled (.token token after)) :
    after.potential < lexer.potential := by
  unfold step at result
  split at result
  · rename_i ready
    simp only [Step.pulled.injEq, Pulled.token.injEq] at result
    obtain ⟨_, same⟩ := result
    subst same
    simp [potential, held, ready]
  · rename_i ready
    split at result
    · split at result
      · rename_i lexeme reading
        have shorter := StringLiteral.read_closed_shorter reading
        have same := deliver_token result
        subst same
        simp only [potential, held]
        omega
      · simp at result
      · simp at result
    · split at result
      · rename_i finished
        simp only [Step.pulled.injEq] at result
        unfold finish at result
        split at result
        · simp at result
        · split at result
          · simp at result
          · rename_i lexeme more dissolved
            simp only [Pulled.token.injEq] at result
            obtain ⟨_, same⟩ := result
            subst same
            have count := congrArg List.length dissolved
            simp only [List.length_cons] at count
            simp [potential, held, count]
            omega
      · rename_i remaining
        split at result
        · simp at result
        · rename_i scanned success
          have shorter := scan_shorter (by simp [remaining]) success
          simp only [accept] at result
          split at result
          · simp at result
          · have same := deliver_token result
            subst same
            simp only [potential, held]
            omega
          · simp at result
          · simp at result

end Lexer

end HackLexer
