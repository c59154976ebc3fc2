import HackLexer.Proofs.LayoutGaps.Fillings
import HackLexer.Proofs.LayoutGaps.Steps

/-!
# Lexing in front of the gap

As long as a run stays in the front part of a text, it is a run of the front part
alone.  With other characters behind the front part, where layout comes first, the
lexer hands out the same tokens and comes to the same state.

The steps need not be the same: blanks at the end of the front part may be passed over
in one step with blanks behind it.  What is handed out does not tell the difference.
-/

namespace HackLexer

theorem Text.Separates.append {text : Text} (separates : text.Separates) (behind : Text) :
    (text ++ behind).Separates := by
  obtain ⟨first, more, rfl, layout⟩ := separates
  exact ⟨first, more ++ behind, rfl, layout⟩

theorem Cursor.advance_length_take (cursor : Cursor) (count : Nat) :
    cursor.advance (cursor.rest.take count).length = cursor.advance count := by
  have taken : cursor.rest.take (cursor.rest.take count).length = cursor.rest.take count := by simp
  have dropped : cursor.rest.drop (cursor.rest.take count).length = cursor.rest.drop count := by simp
  simp only [advance, taken, dropped]

namespace Step

/-- The tokens that a step hands out and the lexer with which it goes on, unless it
ends or fails. -/
def onward? : Step → Option (List Token × Lexer)
  | .moved after => some ([], after)
  | .pulled (.token token after) => some ([token], after)
  | .pulled _ => none

variable {step : Step} {handed : List Token} {after : Lexer}

theorem onward_cases (onward : step.onward? = some (handed, after)) :
    (step = .moved after ∧ handed = []) ∨
      ∃ token, step = .pulled (.token token after) ∧ handed = [token] := by
  match step with
  | .moved _ =>
      cases onward
      exact .inl ⟨rfl, rfl⟩
  | .pulled (.token token _) =>
      cases onward
      exact .inr ⟨token, rfl, rfl⟩

theorem after_of_onward (onward : step.onward? = some (handed, after)) : step.after = after := by
  obtain ⟨rfl, _⟩ | ⟨token, rfl, _⟩ := onward_cases onward
  · rfl
  · rfl

theorem not_isFailure_of_onward (onward : step.onward? = some (handed, after)) :
    ¬ step.IsFailure := by
  obtain ⟨rfl, _⟩ | ⟨token, rfl, _⟩ := onward_cases onward
  · exact not_false
  · exact not_false

/-- A step that goes on inside of the text does not overrun it. -/
theorem not_overruns_of_onward {context : Context} (onward : step.onward? = some (handed, after))
    (within : ¬ context.Passed after.cursor) : ¬ step.Overruns context := by
  rintro (failure | passed)
  · exact not_isFailure_of_onward onward failure
  · rw [after_of_onward onward] at passed
    exact within passed

theorem onward_ofTail (tail : Text) (step : Step) :
    (step.inside (.ofTail tail) #[]).onward? =
      step.onward?.map fun result => (result.1, result.2.inside (.ofTail tail) #[]) := by
  match step with
  | .moved _ => rfl
  | .pulled (.token token _) =>
      have same : token.shift (Context.ofTail tail).bytes (Context.ofTail tail).lines = token :=
        token.shift_zero
      simp only [Step.inside, Pulled.inside, onward?, same, Option.map_some]
  | .pulled (.endOfText _) => rfl
  | .pulled (.failed _ _) => rfl

end Step

namespace Lexer

theorem rest_ofTail {lexer : Lexer} (finished : lexer.cursor.rest = []) (tail : Text) :
    (lexer.inside (.ofTail tail) #[]).cursor.rest = tail := by
  change lexer.cursor.rest ++ tail = tail
  rw [finished, List.nil_append]

section

variable {lexer after : Lexer} {handed : List Token}
  (onward : lexer.step.onward? = some (handed, after))

include onward

theorem drain_of_onward : lexer.drain = drainedBehind handed after.drain := by
  obtain ⟨stepped, rfl⟩ | ⟨token, stepped, rfl⟩ := Step.onward_cases onward
  · rw [drain_of_moved stepped, drainedBehind_nil]
  · exact drain_of_token stepped

theorem size_of_onward : after.size < lexer.size := by
  obtain ⟨stepped, _⟩ | ⟨token, stepped, _⟩ := Step.onward_cases onward
  · exact size_of_step_moved stepped
  · exact size_of_step_token stepped

theorem Run.goOn {text : Text} {tokens : List Token} (run : Run text tokens lexer) :
    Run text (tokens ++ handed) after := by
  obtain ⟨stepped, rfl⟩ | ⟨token, stepped, rfl⟩ := Step.onward_cases onward
  · rw [List.append_nil]
    exact run.moved stepped
  · exact run.token stepped

/-- A lexer without ready tokens goes on by reading. -/
theorem shorter_of_onward (ready : lexer.ready = []) (remaining : lexer.cursor.rest ≠ []) :
    after.cursor.rest.length < lexer.cursor.rest.length := by
  have turn := lexer.step_turn
  generalize stepped : lexer.step = step at turn onward
  rw [← Step.after_of_onward onward]
  cases turn with
  | ready waiting =>
      rw [ready] at waiting
      cases waiting
  | finished _ _ finished => exact absurd finished remaining
  | closed _ _ reading delivery =>
      exact Nat.lt_of_le_of_lt delivery.reaches.length_rest_le
        (StringLiteral.read_closed_shorter reading)
  | lexeme _ _ _ success _ delivery =>
      exact Nat.lt_of_le_of_lt delivery.reaches.length_rest_le (scan_shorter remaining success)
  | failed => cases onward
  | unclosed => cases onward
  | _ => exact (step_moved stepped).1

end

section

variable {front tail other : Text} {tokens handed : List Token} {alone after : Lexer}

/-- A lexer that stays in the front part has something left to do there. -/
theorem remaining_of_within (nonempty : tail ≠ [])
    (onward : (alone.inside (.ofTail tail) #[]).step.onward? = some (handed, after))
    (within : ¬ (Context.ofTail tail).Passed after.cursor) :
    alone.ready ≠ [] ∨ alone.cursor.rest ≠ [] := by
  by_contra idle
  rw [not_or, not_not, not_not] at idle
  have rest := rest_ofTail idle.2 tail
  have shorter := shorter_of_onward onward (by rw [ready_ofTail, idle.1]) (by rwa [rest])
  rw [rest] at shorter
  exact within shorter

section Step

variable (run : Run front tokens alone)
  (remaining : alone.ready ≠ [] ∨ alone.cursor.rest ≠ [])
  (within : ¬ (alone.inside (.ofTail tail) #[]).step.Overruns (.ofTail tail))

include run remaining within

/-- Inside of the front part, the longer text takes the steps of the front part. -/
theorem step_of_within :
    (alone.inside (.ofTail tail) #[]).step = alone.step.inside (.ofTail tail) #[] := by
  have proper (literal : StringLiteral) (member : literal ∈ alone.openLiterals) :=
    (run.justified.literals literal member).proper
  rcases step_agrees run.placed proper remaining with same | ⟨_, overruns, _⟩
  · exact same
  · exact absurd overruns within

end Step

/-- A line comment that the end of the front part cuts off goes on behind it. -/
theorem not_runsOut_of_within {scanned : Scanned} (nonempty : tail ≠ [])
    (ready : alone.ready = []) (literal : alone.literal = none)
    (remaining : alone.cursor.rest ≠ [])
    (within : ¬ (alone.inside (.ofTail tail) #[]).step.Overruns (.ofTail tail))
    (success : scan alone.interpolations.isEmpty alone.cursor = .ok scanned) :
    ¬ scanned.RunsOut := by
  rintro ⟨_, comment, passed, line, unended⟩
  have markup : (alone.inside (.ofTail tail) #[]).interpolations.isEmpty =
      alone.interpolations.isEmpty := by
    simp only [Lexer.inside, List.isEmpty_map]
  rcases @scan_agrees (.ofTail tail) alone.cursor alone.interpolations.isEmpty remaining with
    same | ⟨_, overruns, _⟩
  · rw [success] at same
    have passedInside : (scanned.inside (.ofTail tail)).comment = some (comment.shift 0) := by
      simp only [Scanned.inside, passed, Option.map_some, Context.ofTail]
    rcases (scan_passes (Option.some.inj same) passedInside).ended line with ended | finished
    · exact unended ended
    · change scanned.after.rest ++ tail = [] at finished
      exact nonempty (List.append_eq_nil_iff.mp finished).2
  · apply within
    apply step_overruns_of_scan
    · rw [ready_ofTail, ready]
    · simp only [Lexer.inside, literal, Option.map_none]
    · exact List.append_ne_nil_of_left_ne_nil remaining tail
    · rw [markup]
      exact overruns

/-- Layout at the end of the front part is passed over, whatever follows it. -/
theorem drain_of_layout_in_front {scanned : Scanned} (ready : alone.ready = [])
    (literal : alone.literal = none)
    (success : scan alone.interpolations.isEmpty alone.cursor = .ok scanned)
    (layout : scanned.IsLayout) :
    (alone.inside (.ofTail other) #[]).drain =
      ((alone.passing scanned).inside (.ofTail other) #[]).drain := by
  obtain ⟨found, silent⟩ := layout
  cases scan_success success with
  | layout count _ blank =>
      have rest : (alone.inside (.ofTail other) #[]).cursor.rest =
          alone.cursor.rest.take count ++ (alone.cursor.rest.drop count ++ other) := by
        change alone.cursor.rest ++ other = _
        rw [← List.append_assoc, List.take_append_drop]
      have moved : (alone.cursor.inside (.ofTail other)).advance
          (alone.cursor.rest.take count).length =
            (alone.cursor.advance count).inside (.ofTail other) := by
        rw [Cursor.advance_inside (.inl (List.length_take_le' count _)),
          Cursor.advance_length_take]
      rw [drain_of_layouts (by rw [ready_ofTail, ready])
        (by simp only [Lexer.inside, literal, Option.map_none]) rest (List.all_eq_true.mp blank)]
      simp only [Lexer.inside, moved]
      rfl
  | comment => cases silent
  | lexeme => cases found
  | marker => cases found
  | literal => cases found
  | element => cases found

/-- What the front part hands out in a step is handed out with layout behind it, too. -/
theorem drain_in_front {next : Lexer} (run : Run front tokens alone)
    (remaining : alone.ready ≠ [] ∨ alone.cursor.rest ≠ []) (nonempty : tail ≠ [])
    (within : ¬ (alone.inside (.ofTail tail) #[]).step.Overruns (.ofTail tail))
    (separates : other.Separates) (onward : alone.step.onward? = some (handed, next)) :
    (alone.inside (.ofTail other) #[]).drain =
      drainedBehind handed (next.inside (.ofTail other) #[]).drain := by
  have proper (literal : StringLiteral) (member : literal ∈ alone.openLiterals) :=
    (run.justified.literals literal member).proper
  rcases @step_agrees (.ofTail other) #[] alone front tokens run.placed proper remaining with
    same | ⟨_, _, ending⟩
  · apply drain_of_onward
    rw [same, Step.onward_ofTail, onward]
    rfl
  · rcases ending separates with failure | ⟨ready, literal, scanned, success, last⟩
    · exact absurd failure (Step.not_isFailure_of_onward onward)
    · -- Before `tail` the step stays in the front part, so no line comment is open at its end.
      have unfinished := remaining.resolve_left (absurd ready)
      have layout := last.resolve_right
        (not_runsOut_of_within nonempty ready literal unfinished within success)
      have stepped : alone.step = .moved (alone.passing scanned) := by
        rw [step_of_scanned ready literal unfinished success, layout.1]
      rw [stepped] at onward
      cases onward
      rw [drainedBehind_nil]
      exact drain_of_layout_in_front ready literal success layout

/-- A lexer of a text is in its front part: it is one of the front part alone, and with
other characters behind the front part all that was handed out is handed out as well. -/
def InFront (front tail other : Text) (tokens : List Token) (lexer : Lexer) : Prop :=
  ∃ alone, Run front tokens alone ∧ lexer = alone.inside (.ofTail tail) #[] ∧
    (ofText (front ++ other)).drain = drainedBehind tokens (alone.inside (.ofTail other) #[]).drain

theorem InFront.onward {lexer : Lexer} (nonempty : tail ≠ []) (separates : other.Separates)
    (inFront : InFront front tail other tokens lexer)
    (onward : lexer.step.onward? = some (handed, after))
    (within : ¬ (Context.ofTail tail).Passed after.cursor) :
    InFront front tail other (tokens ++ handed) after := by
  obtain ⟨alone, run, rfl, drained⟩ := inFront
  have remaining := remaining_of_within nonempty onward within
  have stays := Step.not_overruns_of_onward onward within
  rw [step_of_within run remaining stays, Step.onward_ofTail] at onward
  obtain ⟨⟨handed, next⟩, goes, same⟩ := Option.map_eq_some_iff.mp onward
  cases same
  refine ⟨next, run.goOn goes, rfl, ?_⟩
  rw [drained, drain_in_front run remaining nonempty stays separates goes,
    drainedBehind_append]

/-- A run that stays in the front part is a run of the front part alone, and other
characters behind it make no difference, if they begin with layout. -/
theorem Run.inFront {lexer : Lexer} (nonempty : tail ≠ []) (separates : other.Separates)
    (run : Run (front ++ tail) tokens lexer)
    (within : ¬ (Context.ofTail tail).Passed lexer.cursor) :
    InFront front tail other tokens lexer := by
  induction run with
  | start =>
      refine ⟨ofText front, .start, (ofText_ofTail front tail).symm, ?_⟩
      rw [ofText_ofTail, drainedBehind_nil]
  | @moved tokens lexer after run step ih =>
      have reaches := lexer.reaches_step
      rw [step] at reaches
      have inFront := ih fun passed => within (passed.mono reaches)
      have onward : lexer.step.onward? = some ([], after) := by rw [step]; rfl
      rw [← List.append_nil tokens]
      exact inFront.onward nonempty separates onward within
  | @token tokens lexer after token run step ih =>
      have reaches := lexer.reaches_step
      rw [step] at reaches
      have inFront := ih fun passed => within (passed.mono reaches)
      have onward : lexer.step.onward? = some ([token], after) := by rw [step]; rfl
      exact inFront.onward nonempty separates onward within
  | @endOfText tokens lexer after run step ih =>
      obtain ⟨rfl, _⟩ := endOfText_step step
      exact ih within

end

end Lexer

end HackLexer
