import HackLexer.Proofs.ScanOutcomes
import HackLexer.Tokenized

/-!
# Runs of the lexer

`Turn` lists what a single step of the lexer can do and `Delivery` what can
become of a lexeme.  A run collects the tokens that are handed out by a number
of steps from the front of a text.

Every answer of `Lexer.next` and every result of `tokenize` belongs to a run,
so a property that each turn preserves holds of them.
-/

namespace HackLexer

/-- A property of the tokens handed out so far and the lexer holds after a
step; if the step fails, what is required of errors holds of its error. -/
def Step.Keeps (holds : List Token → Lexer → Prop) (blames : LexicalError → Prop)
    (tokens : List Token) : Step → Prop
  | .moved after => holds tokens after
  | .pulled (.token token after) => holds (tokens ++ [token]) after
  | .pulled (.endOfText after) => holds tokens after
  | .pulled (.failed error _) => blames error

/-- The comments passed over when a scan is done. -/
def Scanned.commentsBehind (scanned : Scanned) (comments : Array Comment) :
    Array Comment :=
  match scanned.comment with
  | none => comments
  | some comment => comments.push comment

namespace Lexer

/-- The ways in which a lexer delivers a lexeme that ends at its cursor. -/
inductive Delivery (lexer : Lexer) (lexeme : Lexeme) : Step → Prop where
  | within {interpolation after : Interpolation} {outer : List Interpolation}
      (interpolations : lexer.interpolations = interpolation :: outer)
      (receipt : interpolation.receive lexeme = .within after) :
      Delivery lexer lexeme (.moved { lexer with interpolations := after :: outer })
  | ended {interpolation : Interpolation} {outer : List Interpolation}
      {literal : StringLiteral}
      (interpolations : lexer.interpolations = interpolation :: outer)
      (receipt : interpolation.receive lexeme = .ended literal) :
      Delivery lexer lexeme
        (.moved { lexer with literal := some literal, interpolations := outer })
  | token (interpolations : lexer.interpolations = [])
      (elements : lexer.elements = []) :
      Delivery lexer lexeme (.pulled (.token lexeme.token lexer))
  | collecting {element after : Element} {outer : List Element}
      (interpolations : lexer.interpolations = [])
      (elements : lexer.elements = element :: outer)
      (receipt : element.receive lexeme = .collecting after) :
      Delivery lexer lexeme (.moved { lexer with elements := after :: outer })
  | complete {element : Element} {outer : List Element} {lexemes : List Lexeme}
      (interpolations : lexer.interpolations = [])
      (elements : lexer.elements = element :: outer)
      (receipt : element.receive lexeme = .complete lexemes) :
      Delivery lexer lexeme
        (.moved ({ lexer with elements := outer }.handBack lexemes))
  | comment {element after : Element} {outer : List Element} {lt comment : Lexeme}
      (interpolations : lexer.interpolations = [])
      (elements : lexer.elements = element :: outer)
      (receipt : element.receive lexeme = .comment lt after)
      (closed : markupComment lt lexer.cursor = .ok comment) :
      Delivery lexer lexeme
        (.moved
          { lexer with
            cursor := comment.stop
            elements := after.push comment :: outer })
  | unclosedComment {element after : Element} {outer : List Element} {lt : Lexeme}
      {error : LexicalError}
      (interpolations : lexer.interpolations = [])
      (elements : lexer.elements = element :: outer)
      (receipt : element.receive lexeme = .comment lt after)
      (unclosed : markupComment lt lexer.cursor = .error error) :
      Delivery lexer lexeme (.pulled (.failed error lexer))

theorem deliver_delivery (lexer : Lexer) (lexeme : Lexeme) :
    lexer.Delivery lexeme (lexer.deliver lexeme) := by
  unfold deliver
  split
  · rename_i interpolation outer interpolations
    split
    · rename_i after receipt
      exact .within interpolations receipt
    · rename_i literal receipt
      exact .ended interpolations receipt
  · rename_i interpolations
    split
    · rename_i elements
      exact .token interpolations elements
    · rename_i element outer elements
      split
      · rename_i after receipt
        exact .collecting interpolations elements receipt
      · rename_i lexemes receipt
        exact .complete interpolations elements receipt
      · rename_i lt after receipt
        split
        · rename_i error unclosed
          exact .unclosedComment interpolations elements receipt unclosed
        · rename_i comment closed
          exact .comment interpolations elements receipt closed

/-- The lexer behind what a scan has passed over. -/
def passing (lexer : Lexer) (scanned : Scanned) : Lexer :=
  { lexer with
    cursor := scanned.after
    comments := scanned.commentsBehind lexer.comments }

/-- The ways in which a lexer takes a step. -/
inductive Turn (lexer : Lexer) : Step → Prop where
  | ready {token : Token} {more : List Token} (ready : lexer.ready = token :: more) :
      Turn lexer (.pulled (.token token { lexer with ready := more }))
  | closed {literal : StringLiteral} {lexeme : Lexeme} {step : Step}
      (ready : lexer.ready = []) (opened : lexer.literal = some literal)
      (reading : literal.read lexer.cursor = .closed lexeme)
      (delivery : Delivery { lexer with cursor := lexeme.stop, literal := none }
        lexeme step) :
      Turn lexer step
  | interrupted {literal suspended : StringLiteral} {after : Cursor}
      (ready : lexer.ready = []) (opened : lexer.literal = some literal)
      (reading : literal.read lexer.cursor = .interpolation suspended after) :
      Turn lexer
        (.moved
          { lexer with
            cursor := after
            literal := none
            interpolations :=
              { literal := suspended, depth := 0 } :: lexer.interpolations })
  | unclosed {literal : StringLiteral} {error : LexicalError}
      (ready : lexer.ready = []) (opened : lexer.literal = some literal)
      (reading : literal.read lexer.cursor = .unclosed error) :
      Turn lexer (.pulled (.failed error lexer))
  | finished (ready : lexer.ready = []) (literal : lexer.literal = none)
      (finished : lexer.cursor.rest = []) :
      Turn lexer (.pulled lexer.finish)
  | failed {error : LexicalError}
      (ready : lexer.ready = []) (literal : lexer.literal = none)
      (remaining : lexer.cursor.rest ≠ [])
      (failure : scan lexer.interpolations.isEmpty lexer.cursor = .error error) :
      Turn lexer (.pulled (.failed error lexer))
  | layout {scanned : Scanned}
      (ready : lexer.ready = []) (literal : lexer.literal = none)
      (remaining : lexer.cursor.rest ≠ [])
      (success : scan lexer.interpolations.isEmpty lexer.cursor = .ok scanned)
      (found : scanned.found = .layout) :
      Turn lexer (.moved (lexer.passing scanned))
  | lexeme {scanned : Scanned} {lexeme : Lexeme} {step : Step}
      (ready : lexer.ready = []) (literal : lexer.literal = none)
      (remaining : lexer.cursor.rest ≠ [])
      (success : scan lexer.interpolations.isEmpty lexer.cursor = .ok scanned)
      (found : scanned.found = .lexeme lexeme)
      (delivery : (lexer.passing scanned).Delivery lexeme step) :
      Turn lexer step
  | literal {scanned : Scanned} {opened : StringLiteral}
      (ready : lexer.ready = []) (literal : lexer.literal = none)
      (remaining : lexer.cursor.rest ≠ [])
      (success : scan lexer.interpolations.isEmpty lexer.cursor = .ok scanned)
      (found : scanned.found = .literal opened) :
      Turn lexer (.moved { lexer.passing scanned with literal := some opened })
  | element {scanned : Scanned} {name : Lexeme}
      (ready : lexer.ready = []) (literal : lexer.literal = none)
      (remaining : lexer.cursor.rest ≠ [])
      (success : scan lexer.interpolations.isEmpty lexer.cursor = .ok scanned)
      (found : scanned.found = .element name) :
      Turn lexer
        (.moved { lexer.passing scanned with
          elements := .opened name :: lexer.elements })

theorem step_turn (lexer : Lexer) : lexer.Turn lexer.step := by
  unfold step
  split
  · rename_i token more ready
    exact .ready ready
  · rename_i ready
    split
    · rename_i literal opened
      split
      · rename_i lexeme reading
        exact .closed ready opened reading (deliver_delivery _ lexeme)
      · rename_i suspended after reading
        exact .interrupted ready opened reading
      · rename_i error reading
        exact .unclosed ready opened reading
    · rename_i literal
      split
      · rename_i finished
        exact .finished ready literal finished
      · rename_i first behind rest
        have remaining : lexer.cursor.rest ≠ [] := by simp [rest]
        split
        · rename_i error failure
          exact .failed ready literal remaining failure
        · rename_i scanned success
          simp only [accept]
          split
          · rename_i found
            exact .layout ready literal remaining success found
          · rename_i lexeme found
            exact .lexeme ready literal remaining success found
              (deliver_delivery (lexer.passing scanned) lexeme)
          · rename_i opened found
            exact .literal ready literal remaining success found
          · rename_i name found
            exact .element ready literal remaining success found

theorem Delivery.ne_endOfText {lexer after : Lexer} {lexeme : Lexeme} {step : Step}
    (delivery : lexer.Delivery lexeme step) :
    step ≠ .pulled (.endOfText after) := by
  cases delivery <;> nofun

/-- A lexer reaches the end of its text only when nothing is open or held. -/
structure Exhausted (lexer : Lexer) : Prop where
  ready : lexer.ready = []
  literal : lexer.literal = none
  interpolations : lexer.interpolations = []
  held : Element.dissolve lexer.elements = []
  finished : lexer.cursor.rest = []

theorem endOfText_step {lexer after : Lexer}
    (step : lexer.step = .pulled (.endOfText after)) :
    after = lexer ∧ lexer.Exhausted := by
  have turn := lexer.step_turn
  generalize result : lexer.step = answer at turn
  rw [step] at result
  cases turn with
  | closed ready opened reading delivery => exact absurd result.symm delivery.ne_endOfText
  | lexeme ready literal remaining success found delivery =>
      exact absurd result.symm delivery.ne_endOfText
  | finished ready literal finished =>
      unfold finish at result
      split at result
      · cases result
      · rename_i interpolations
        split at result
        · rename_i held
          cases result
          exact ⟨rfl, ready, literal, interpolations, held, finished⟩
        · cases result
  | _ => cases result

/-- The tokens that a lexer hands out by a number of steps from the front of a
text, and the lexer as it is left. -/
inductive Run (text : Text) : List Token → Lexer → Prop where
  | start : Run text [] (.ofText text)
  | moved {tokens : List Token} {lexer after : Lexer} (run : Run text tokens lexer)
      (step : lexer.step = .moved after) : Run text tokens after
  | token {tokens : List Token} {lexer after : Lexer} {token : Token}
      (run : Run text tokens lexer)
      (step : lexer.step = .pulled (.token token after)) :
      Run text (tokens ++ [token]) after
  | endOfText {tokens : List Token} {lexer after : Lexer}
      (run : Run text tokens lexer)
      (step : lexer.step = .pulled (.endOfText after)) : Run text tokens after

theorem next_of_pulled {lexer : Lexer} {pulled : Pulled}
    (step : lexer.step = .pulled pulled) : lexer.next = pulled := by
  rw [next]
  split
  · rename_i answer same
    rw [step] at same
    cases same
    rfl
  · rename_i after same
    rw [step] at same
    cases same

theorem next_of_moved {lexer after : Lexer} (step : lexer.step = .moved after) :
    lexer.next = after.next := by
  rw [next]
  split
  · rename_i answer same
    rw [step] at same
    cases same
  · rename_i moved same
    rw [step] at same
    cases same
    rfl

theorem drain_eq (lexer : Lexer) :
    lexer.drain =
      match lexer.next with
      | .failed error _ => .error error
      | .endOfText after => .ok ([], after)
      | .token token after =>
          match after.drain with
          | .error error => .error error
          | .ok (tokens, last) => .ok (token :: tokens, last) := by
  rw [drain]
  split
  · rename_i answer
    rw [answer]
  · rename_i answer
    rw [answer]
  · rename_i answer
    rewrite [answer]
    rfl

namespace Run

/-- What every step keeps holds in the course of every run. -/
theorem invariant {text : Text} {holds : List Token → Lexer → Prop}
    {blames : LexicalError → Prop} (initially : holds [] (.ofText text))
    (kept : ∀ tokens lexer, Run text tokens lexer → holds tokens lexer →
      lexer.step.Keeps holds blames tokens)
    {tokens : List Token} {lexer : Lexer} (run : Run text tokens lexer) :
    holds tokens lexer := by
  induction run with
  | start => exact initially
  | @moved tokens lexer after run step hypothesis =>
      have keeps := kept tokens lexer run hypothesis
      rwa [step] at keeps
  | @token tokens lexer after token run step hypothesis =>
      have keeps := kept tokens lexer run hypothesis
      rwa [step] at keeps
  | @endOfText tokens lexer after run step hypothesis =>
      have keeps := kept tokens lexer run hypothesis
      rwa [step] at keeps

/-- An answer for which a lexer is asked in the course of a run is given by a
step of a run that hands out the same tokens. -/
theorem exists_answering {text : Text} {tokens : List Token} {lexer : Lexer}
    (run : Run text tokens lexer) :
    ∃ last, Run text tokens last ∧ last.step = .pulled lexer.next := by
  induction lexer using next.induct with
  | case1 lexer pulled step =>
      exact ⟨lexer, run, by rw [next_of_pulled step, step]⟩
  | case2 lexer after step hypothesis =>
      obtain ⟨last, lastRun, answered⟩ := hypothesis (run.moved step)
      exact ⟨last, lastRun, by rw [next_of_moved step, answered]⟩

theorem next_token {text : Text} {tokens : List Token} {lexer after : Lexer}
    {token : Token} (run : Run text tokens lexer)
    (answer : lexer.next = .token token after) :
    Run text (tokens ++ [token]) after := by
  obtain ⟨last, lastRun, answered⟩ := run.exists_answering
  exact lastRun.token (by rw [answered, answer])

theorem drain_ok {text : Text} {tokens more : List Token} {lexer last : Lexer}
    (run : Run text tokens lexer) (drained : lexer.drain = .ok (more, last)) :
    ∃ before, Run text (tokens ++ more) before ∧
      before.step = .pulled (.endOfText last) := by
  induction lexer using drain.induct generalizing tokens more with
  | case1 lexer error after answer =>
      rw [drain_eq, answer] at drained
      cases drained
  | case2 lexer after answer =>
      rw [drain_eq, answer] at drained
      cases drained
      obtain ⟨before, beforeRun, answered⟩ := run.exists_answering
      exact ⟨before, by simpa using beforeRun, by rw [answered, answer]⟩
  | case3 lexer token after answer error rest hypothesis =>
      simp only [drain_eq lexer, answer, rest] at drained
      cases drained
  | case4 lexer token after answer result final rest hypothesis =>
      simp only [drain_eq lexer, answer, rest] at drained
      cases drained
      obtain ⟨before, beforeRun, answered⟩ :=
        hypothesis (run.next_token answer) rest
      exact ⟨before, by simpa using beforeRun, answered⟩

theorem drain_error {text : Text} {tokens : List Token} {lexer : Lexer}
    {error : LexicalError} (run : Run text tokens lexer)
    (drained : lexer.drain = .error error) :
    ∃ more before after, Run text (tokens ++ more) before ∧
      before.step = .pulled (.failed error after) := by
  induction lexer using drain.induct generalizing tokens with
  | case1 lexer failure after answer =>
      rw [drain_eq, answer] at drained
      cases drained
      obtain ⟨before, beforeRun, answered⟩ := run.exists_answering
      exact ⟨[], before, after, by simpa using beforeRun, by rw [answered, answer]⟩
  | case2 lexer after answer =>
      rw [drain_eq, answer] at drained
      cases drained
  | case3 lexer token after answer failure rest hypothesis =>
      simp only [drain_eq lexer, answer, rest] at drained
      cases drained
      obtain ⟨more, before, last, beforeRun, answered⟩ :=
        hypothesis (run.next_token answer) rest
      exact ⟨token :: more, before, last, by simpa using beforeRun, answered⟩
  | case4 lexer token after answer result final rest hypothesis =>
      simp only [drain_eq lexer, answer, rest] at drained
      cases drained

end Run

end Lexer

theorem tokenize_ok {text : Text} {result : Tokenized}
    (success : tokenize text = .ok result) :
    ∃ before last, Lexer.Run text result.tokens before ∧
      before.step = .pulled (.endOfText last) ∧
      result.comments = last.comments.toList := by
  unfold tokenize at success
  split at success
  · cases success
  · rename_i tokens last drained
    cases success
    obtain ⟨before, run, answered⟩ := Lexer.Run.start.drain_ok drained
    exact ⟨before, last, run, answered, rfl⟩

theorem tokenize_error {text : Text} {error : LexicalError}
    (failure : tokenize text = .error error) :
    ∃ tokens before after, Lexer.Run text tokens before ∧
      before.step = .pulled (.failed error after) := by
  unfold tokenize at failure
  split at failure
  · rename_i drained
    cases failure
    obtain ⟨tokens, before, after, run, answered⟩ :=
      Lexer.Run.start.drain_error drained
    exact ⟨tokens, before, after, run, answered⟩
  · cases failure

end HackLexer
