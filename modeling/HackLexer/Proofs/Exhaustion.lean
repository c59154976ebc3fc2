import HackLexer.Proofs.Cuts
import HackLexer.Proofs.LexerPlacement

/-!
# Progress and exhaustion

The cursor of a lexer never goes back, and a step without an answer takes it
forward.  So every question is answered after a bounded number of steps, and a
lexer hands out at most as many tokens as its text has bytes.  At the end of the
text the lexer stays as it is, however often it is asked.

The main statement is `lexing_progresses_and_ends`.
-/

namespace HackLexer

namespace Cursor.Reaches

theorem line_le {start stop : Cursor} (reaches : start.Reaches stop) :
    start.line ≤ stop.line := by
  obtain ⟨moved, _, _, line⟩ := reaches.exists_moved
  omega

theorem length_rest_le {start stop : Cursor} (reaches : start.Reaches stop) :
    stop.rest.length ≤ start.rest.length := by
  obtain ⟨moved, rest, _⟩ := reaches.exists_moved
  rw [rest, List.length_append]
  exact Nat.le_add_left _ _

theorem offset_lt {start stop : Cursor} (reaches : start.Reaches stop)
    (shorter : stop.rest.length < start.rest.length) : start.offset < stop.offset := by
  obtain ⟨moved, rest, offset, _⟩ := reaches.exists_moved
  have size := Text.length_le_byteLength moved
  rw [rest, List.length_append] at shorter
  omega

end Cursor.Reaches

def Pulled.after : Pulled → Lexer
  | .token _ after => after
  | .endOfText after => after
  | .failed _ after => after

def Step.after : Step → Lexer
  | .pulled answer => answer.after
  | .moved after => after

/-- An answer behind which no token follows. -/
def Pulled.IsFinal : Pulled → Prop
  | .token _ _ => False
  | .endOfText _ => True
  | .failed _ _ => True

namespace Lexer

theorem cursor_finish (lexer : Lexer) : lexer.finish.after.cursor = lexer.cursor := by
  unfold finish
  split
  · rfl
  · split
    · rfl
    · rfl

theorem Delivery.reaches {lexer : Lexer} {lexeme : Lexeme} {step : Step}
    (delivery : lexer.Delivery lexeme step) :
    lexer.cursor.Reaches step.after.cursor := by
  cases delivery with
  | within => exact .refl _
  | ended => exact .refl _
  | token => exact .refl _
  | collecting => exact .refl _
  | complete =>
      rw [Step.after, cursor_handBack]
      exact .refl _
  | comment interpolations elements receipt closed =>
      exact (markupComment_ok closed).2.2
  | unclosedComment => exact .refl _

/-- No turn takes the cursor back. -/
theorem Turn.reaches {lexer : Lexer} {step : Step} (turn : lexer.Turn step) :
    lexer.cursor.Reaches step.after.cursor := by
  cases turn with
  | ready => exact .refl _
  | closed ready opened reading delivery =>
      have stop := (StringLiteral.read_closed_places reading).2.2
      exact stop.trans delivery.reaches
  | interrupted ready opened reading =>
      exact (StringLiteral.read_interpolation_places reading).2
  | unclosed => exact .refl _
  | finished =>
      rw [Step.after, cursor_finish]
      exact .refl _
  | failed => exact .refl _
  | layout ready literal remaining success found => exact (scan_success success).reaches
  | lexeme ready literal remaining success found delivery =>
      exact (scan_success success).reaches.trans delivery.reaches
  | literal ready literal remaining success found => exact (scan_success success).reaches
  | element ready literal remaining success found => exact (scan_success success).reaches

theorem reaches_step (lexer : Lexer) : lexer.cursor.Reaches lexer.step.after.cursor :=
  lexer.step_turn.reaches

theorem offset_lt_of_moved {lexer after : Lexer} (step : lexer.step = .moved after) :
    lexer.cursor.offset < after.cursor.offset := by
  have reaches := lexer.reaches_step
  rw [step] at reaches
  exact reaches.offset_lt (step_moved step).1

/-- The given number of steps without an answer leads from one lexer to
another. -/
inductive Passes : Nat → Lexer → Lexer → Prop where
  | none {lexer : Lexer} : Passes 0 lexer lexer
  | more {count : Nat} {lexer middle last : Lexer} (step : lexer.step = .moved middle)
      (further : Passes count middle last) : Passes (count + 1) lexer last

/-- A question is answered after at most as many steps as there are characters
left to read. -/
theorem exists_passes (lexer : Lexer) :
    ∃ count last, count ≤ lexer.cursor.rest.length ∧ Passes count lexer last ∧
      last.step = .pulled lexer.next := by
  induction lexer using next.induct with
  | case1 lexer answer step =>
      exact ⟨0, lexer, Nat.zero_le _, .none, by rw [next_of_pulled step, step]⟩
  | case2 lexer after step ih =>
      obtain ⟨count, last, bound, passes, answered⟩ := ih
      have shorter := (step_moved step).1
      exact ⟨count + 1, last, by omega, .more step passes,
        by rw [next_of_moved step, answered]⟩

theorem answers_eq (lexer : Lexer) :
    lexer.answers =
      match lexer.next with
      | .token token after => .token token after :: after.answers
      | last => [last] := by
  rw [answers]
  split
  · rename_i answer
    rw [answer]
  · rename_i final
    split
    · rename_i token after answer
      exact absurd answer (final token after)
    · rfl

/-- A lexer that is asked until it gives a final answer gives as many others
before as it can still hand out tokens, at most. -/
theorem answers_end (lexer : Lexer) :
    ∃ handed last, lexer.answers = handed ++ [last] ∧ handed.length ≤ lexer.potential ∧
      (∀ answer, answer ∈ handed → ¬ answer.IsFinal) ∧ last.IsFinal := by
  induction lexer using answers.induct with
  | case1 lexer token after answer ih =>
      obtain ⟨handed, last, whole, bound, tokens, final⟩ := ih
      have fewer := next_token answer
      refine ⟨.token token after :: handed, last, ?_, ?_, ?_, final⟩
      · rw [answers_eq, answer]
        exact congrArg (Pulled.token token after :: ·) whole
      · rw [List.length_cons]
        omega
      · intro other member
        rcases List.mem_cons.mp member with rfl | later
        · exact id
        · exact tokens other later
  | case2 lexer final =>
      rw [answers_eq]
      cases answer : lexer.next with
      | token token after => exact absurd answer (final token after)
      | endOfText after => exact ⟨[], _, rfl, Nat.zero_le _, by simp, trivial⟩
      | failed error after => exact ⟨[], _, rfl, Nat.zero_le _, by simp, trivial⟩

/-- A number of calls that do not fail takes a lexer to another one and hands
out the given tokens. -/
inductive Calls : Nat → Lexer → List Token → Lexer → Prop where
  | none {lexer : Lexer} : Calls 0 lexer [] lexer
  | token {count : Nat} {lexer after last : Lexer} {token : Token} {tokens : List Token}
      (answer : lexer.next = .token token after)
      (further : Calls count after tokens last) :
      Calls (count + 1) lexer (token :: tokens) last
  | endOfText {count : Nat} {lexer after last : Lexer} {tokens : List Token}
      (answer : lexer.next = .endOfText after)
      (further : Calls count after tokens last) :
      Calls (count + 1) lexer tokens last

theorem next_of_endOfText {lexer after : Lexer} (answer : lexer.next = .endOfText after) :
    after.next = .endOfText after := by
  obtain ⟨count, last, _, _, answered⟩ := lexer.exists_passes
  rw [answer] at answered
  obtain ⟨same, _⟩ := endOfText_step answered
  rw [← same] at answered
  exact next_of_pulled answered

theorem Calls.of_exhausted {count : Nat} {lexer last : Lexer} {tokens : List Token}
    (calls : Calls count lexer tokens last) (exhausted : lexer.next = .endOfText lexer) :
    tokens = [] ∧ last = lexer := by
  induction calls with
  | none => exact ⟨rfl, rfl⟩
  | token answer =>
      rw [answer] at exhausted
      cases exhausted
  | endOfText answer further ih =>
      rw [answer] at exhausted
      cases exhausted
      exact ih answer

end Lexer

/-- In the course of every run the cursor and its line do not go back, a step
without an answer takes the cursor forward, and the next answer is at most as
many steps away as there are bytes left.  The answers end after at most one more
than the text has bytes, and the end of the text is a state that no further call
leaves. -/
theorem lexing_progresses_and_ends (text : Text) :
    (∀ tokens lexer, Lexer.Run text tokens lexer →
      lexer.cursor.offset ≤ lexer.step.after.cursor.offset ∧
      lexer.cursor.line ≤ lexer.step.after.cursor.line ∧
      (∀ after, lexer.step = .moved after → lexer.cursor.offset < after.cursor.offset) ∧
      ∃ count last, count ≤ Text.byteLength lexer.cursor.rest ∧
        Lexer.Passes count lexer last ∧ last.step = .pulled lexer.next) ∧
    (Lexer.ofText text).answers.length ≤ Text.byteLength text + 1 ∧
    (∃ handed last, (Lexer.ofText text).answers = handed ++ [last] ∧
      (∀ answer, answer ∈ handed → ¬ answer.IsFinal) ∧ last.IsFinal) ∧
    (∀ tokens lexer after, Lexer.Run text tokens lexer →
      lexer.next = .endOfText after →
      ∀ count more last, Lexer.Calls count after more last →
        more = [] ∧ last.next = .endOfText last ∧ last.comments = after.comments ∧
          last.cursor.offset = after.cursor.offset ∧
          last.cursor.line = after.cursor.line) := by
  obtain ⟨handed, final, whole, bound, handing, ends⟩ := (Lexer.ofText text).answers_end
  refine ⟨?_, ?_, ⟨handed, final, whole, handing, ends⟩, ?_⟩
  · intro tokens lexer _
    have reaches := lexer.reaches_step
    obtain ⟨count, last, bound, passes, answered⟩ := lexer.exists_passes
    have size := Text.length_le_byteLength lexer.cursor.rest
    exact ⟨reaches.offset_le, reaches.line_le, fun after => Lexer.offset_lt_of_moved,
      count, last, Nat.le_trans bound size, passes, answered⟩
  · have size := Text.length_le_byteLength text
    have start : (Lexer.ofText text).potential = text.length := rfl
    rw [whole, List.length_append, List.length_singleton]
    omega
  · intro tokens lexer after _ answer count more last calls
    have exhausted := Lexer.next_of_endOfText answer
    obtain ⟨silent, same⟩ := calls.of_exhausted exhausted
    rw [same]
    exact ⟨silent, exhausted, rfl, rfl, rfl⟩

/-- A comment in front of a string over two lines: the string is the only token,
and the call after it finds nothing. -/
theorem commented_string_progresses_and_ends :
    let text := "# a\n'b\n'".toList
    let string : Token :=
      { kind := .quotedString, span := ⟨4, "'b\n'".toList⟩, line := 1,
        literal := some "b\n".toList }
    let after : Lexer :=
      { Lexer.ofText [] with
        cursor := ⟨8, 2, []⟩
        comments := #[{ kind := .line, span := ⟨0, "# a\n".toList⟩ }] }
    Lexer.Run text [string] after ∧ after.next = .endOfText after ∧
      (Lexer.ofText text).cursor.offset ≤ (Lexer.ofText text).step.after.cursor.offset ∧
      (Lexer.ofText text).answers.length ≤ 9 ∧
      ∀ count more last, Lexer.Calls count after more last →
        more = [] ∧ last.next = .endOfText last ∧ last.comments = after.comments := by
  intro text string after
  obtain ⟨steps, bound, _, exhausted⟩ := lexing_progresses_and_ends text
  have passed : Lexer.Run text [] (Lexer.ofText text).step.after := .moved .start rfl
  have run : Lexer.Run text [string] after := .token passed rfl
  have answer : after.next = .endOfText after := Lexer.next_of_pulled rfl
  refine ⟨run, answer, (steps [] _ .start).1, bound, ?_⟩
  intro count more last calls
  obtain ⟨silent, stays, comments, _⟩ :=
    exhausted [string] after after run answer count more last calls
  exact ⟨silent, stays, comments⟩

end HackLexer
