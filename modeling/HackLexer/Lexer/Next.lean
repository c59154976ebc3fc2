import HackLexer.Lexer.Progress

/-!
# Asking for the next token

The lexer steps until its question is answered.  That it always is follows from
the progress of single steps, and that the tokens come to an end follows from
the bound on what a lexer can still hand out.
-/

namespace HackLexer

namespace Lexer

/-- The next token of a lexer, the end of the text, or a failure. -/
def next (lexer : Lexer) : Pulled :=
  match _result : lexer.step with
  | .pulled pulled => pulled
  | .moved after => next after
termination_by lexer.cursor.rest.length
decreasing_by exact (step_moved _result).1

/-- A lexer that hands out a token can hand out fewer afterwards. -/
theorem next_token {lexer after : Lexer} {token : Token}
    (result : lexer.next = .token token after) : after.potential < lexer.potential := by
  induction lexer using next.induct with
  | case1 lexer pulled stepped =>
      rw [next] at result
      split at result
      · rename_i pulled same
        subst result
        exact step_token same
      · rename_i same
        rw [stepped] at same
        simp at same
  | case2 lexer moved stepped hypothesis =>
      rw [next] at result
      split at result
      · rename_i same
        rw [stepped] at same
        simp at same
      · rename_i continued same
        rw [stepped] at same
        simp only [Step.moved.injEq] at same
        subst same
        exact Nat.lt_of_lt_of_le (hypothesis result) (step_moved stepped).2

/-- The answers of a lexer that is asked for tokens until the text ends or
lexing fails. -/
def answers (lexer : Lexer) : List Pulled :=
  match _result : lexer.next with
  | .token token after => .token token after :: answers after
  | last => [last]
termination_by lexer.potential
decreasing_by exact next_token _result

/-- All tokens that a lexer hands out until the text ends, and the lexer as it
is left. -/
def drain (lexer : Lexer) : Except LexicalError (List Token × Lexer) :=
  match _result : lexer.next with
  | .failed error _ => .error error
  | .endOfText after => .ok ([], after)
  | .token token after =>
      match drain after with
      | .error error => .error error
      | .ok (tokens, last) => .ok (token :: tokens, last)
termination_by lexer.potential
decreasing_by exact next_token _result

end Lexer

end HackLexer
