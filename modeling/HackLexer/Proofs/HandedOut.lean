import HackLexer.Proofs.Relexing

/-!
# Runs and what is handed out

A run hands out the first of the tokens that its text gives, and the lexer in which
it ends hands out the others.  The same holds of draining, so a failure in the course
of a run is the failure of its text.
-/

namespace HackLexer

namespace Lexer

theorem handedOut_eq (lexer : Lexer) :
    lexer.handedOut =
      match lexer.next with
      | .token token after => token :: after.handedOut
      | _ => [] := by
  rw [handedOut, answers_eq]
  cases lexer.next with
  | token token after => rfl
  | endOfText after => rfl
  | failed error after => rfl

theorem handedOut_of_moved {lexer after : Lexer} (step : lexer.step = .moved after) :
    lexer.handedOut = after.handedOut := by
  rw [handedOut_eq, handedOut_eq after, next_of_moved step]

theorem handedOut_of_token {lexer after : Lexer} {token : Token}
    (step : lexer.step = .pulled (.token token after)) :
    lexer.handedOut = token :: after.handedOut := by
  rw [handedOut_eq, next_of_pulled step]

theorem handedOut_of_failed {lexer after : Lexer} {error : LexicalError}
    (step : lexer.step = .pulled (.failed error after)) : lexer.handedOut = [] := by
  rw [handedOut_eq, next_of_pulled step]

theorem drain_of_moved {lexer after : Lexer} (step : lexer.step = .moved after) :
    lexer.drain = after.drain := by
  rw [drain_eq, drain_eq after, next_of_moved step]

theorem drain_of_token {lexer after : Lexer} {token : Token}
    (step : lexer.step = .pulled (.token token after)) :
    lexer.drain = drainedBehind [token] after.drain := by
  rw [drain_eq, next_of_pulled step]
  dsimp only
  cases after.drain with
  | error error => rfl
  | ok result => rfl

theorem drain_of_failed {lexer after : Lexer} {error : LexicalError}
    (step : lexer.step = .pulled (.failed error after)) : lexer.drain = .error error := by
  rw [drain_eq, next_of_pulled step]

namespace Run

/-- What a text gives in all: the tokens of a run, and then those of its lexer. -/
theorem handedOut_eq {text : Text} {tokens : List Token} {lexer : Lexer}
    (run : Run text tokens lexer) :
    (ofText text).handedOut = tokens ++ lexer.handedOut := by
  induction run with
  | start => rfl
  | moved run step ih => rw [ih, handedOut_of_moved step]
  | token run step ih => rw [ih, handedOut_of_token step, List.append_assoc]; rfl
  | endOfText run step ih => rw [ih, (endOfText_step step).1]

theorem drain_eq {text : Text} {tokens : List Token} {lexer : Lexer}
    (run : Run text tokens lexer) :
    (ofText text).drain = drainedBehind tokens lexer.drain := by
  induction run with
  | start => exact (drainedBehind_nil _).symm
  | moved run step ih => rw [ih, drain_of_moved step]
  | token run step ih => rw [ih, drain_of_token step, drainedBehind_append]
  | endOfText run step ih => rw [ih, (endOfText_step step).1]

theorem handedOut {text : Text} {tokens : List Token} {lexer : Lexer}
    (run : Run text tokens lexer) : ∃ last, Run text (tokens ++ lexer.handedOut) last := by
  unfold Lexer.handedOut
  induction lexer using answers.induct generalizing tokens with
  | case1 lexer first after answer ih =>
      obtain ⟨last, lastRun⟩ := ih (run.next_token answer)
      refine ⟨last, ?_⟩
      rw [answers_eq, answer]
      simpa [Pulled.token?] using lastRun
  | case2 lexer final =>
      refine ⟨lexer, ?_⟩
      rw [answers_eq]
      cases answer : lexer.next with
      | token first after => exact absurd answer (final first after)
      | endOfText after =>
          rw [← List.append_nil tokens] at run
          exact run
      | failed error after =>
          rw [← List.append_nil tokens] at run
          exact run

theorem tokenize_of_failed {text : Text} {tokens : List Token} {lexer after : Lexer}
    {error : LexicalError} (run : Run text tokens lexer)
    (step : lexer.step = .pulled (.failed error after)) : tokenize text = .error error := by
  rw [tokenize, run.drain_eq, drain_of_failed step]
  rfl

end Run

end Lexer

/-- The step at which a text fails, behind all tokens that it gives. -/
theorem failing_step {text : Text} {error : LexicalError} (failure : tokenize text = .error error) :
    ∃ last after, Lexer.Run text (Lexer.ofText text).handedOut last ∧
      last.step = .pulled (.failed error after) := by
  obtain ⟨tokens, last, after, run, step⟩ := tokenize_error failure
  have handed := run.handedOut_eq
  rw [Lexer.handedOut_of_failed step, List.append_nil] at handed
  rw [handed]
  exact ⟨last, after, run, step⟩

end HackLexer
