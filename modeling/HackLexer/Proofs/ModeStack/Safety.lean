import HackLexer.Proofs.ModeStack.Simulation

/-!
# The lexer with a stack of modes is never stuck

Every run of the lexer with a stack of modes represents a run of the lexer, so
it inherits what holds of the latter: its cursor stays on boundaries, its stack
keeps its shape, and each of its passes gives a result.
-/

namespace HackLexer

namespace Lexer

/-- Every open element has a name, and tokens are ready only while nothing is
open. -/
structure Orderly (lexer : Lexer) : Prop where
  named : ∀ element, element ∈ lexer.elements → element.name.kind = .xhpName
  settled : lexer.ready ≠ [] →
    lexer.literal = none ∧ lexer.interpolations = [] ∧ lexer.elements = []

namespace Orderly

theorem ofText (text : Text) : Orderly (.ofText text) where
  named := by simp [Lexer.ofText]
  settled := by simp [Lexer.ofText]

theorem unsettled {lexer : Lexer} (ready : lexer.ready = [])
    (named : ∀ element, element ∈ lexer.elements → element.name.kind = .xhpName) :
    Orderly lexer :=
  ⟨named, fun some => absurd ready some⟩

theorem exchange {element after : Element} {outer : List Element}
    (named : ∀ inside, inside ∈ element :: outer → inside.name.kind = .xhpName)
    (same : after.name = element.name) :
    ∀ inside, inside ∈ after :: outer → inside.name.kind = .xhpName := by
  intro inside member
  rcases List.mem_cons.mp member with first | around
  · rw [first, same]
    exact named element List.mem_cons_self
  · exact named inside (List.mem_cons_of_mem _ around)

theorem handBack {lexer : Lexer} {lexemes : List Lexeme} (ready : lexer.ready = [])
    (closed : lexer.literal = none) (outside : lexer.interpolations = [])
    (named : ∀ element, element ∈ lexer.elements → element.name.kind = .xhpName) :
    Orderly (lexer.handBack lexemes) := by
  unfold Lexer.handBack
  split
  · rename_i elements
    exact ⟨named, fun _ => ⟨closed, outside, elements⟩⟩
  · rename_i parent outer elements
    rw [elements] at named
    exact unsettled ready (exchange named (Element.name_extend parent lexemes))

theorem delivery {lexer : Lexer} {lexeme : Lexeme} {step : Step} {tokens : List Token}
    (delivery : lexer.Delivery lexeme step) (ready : lexer.ready = [])
    (closed : lexer.literal = none)
    (named : ∀ element, element ∈ lexer.elements → element.name.kind = .xhpName) :
    step.Keeps (fun _ => Orderly) (fun _ => True) tokens := by
  cases delivery with
  | within interpolations receipt => exact unsettled ready named
  | ended interpolations receipt => exact unsettled ready named
  | token interpolations elements => exact unsettled ready named
  | collecting interpolations elements receipt =>
      rw [elements] at named
      exact unsettled ready (exchange named (Element.name_of_collecting receipt))
  | @complete element outer lexemes interpolations elements receipt =>
      rw [elements] at named
      refine handBack ready closed interpolations ?_
      intro around member
      exact named around (List.mem_cons_of_mem _ member)
  | comment interpolations elements receipt success =>
      rw [elements] at named
      have same := Element.name_of_comment receipt
      exact unsettled ready (exchange named same)
  | unclosedComment interpolations elements receipt failure => trivial

theorem turn {lexer : Lexer} {step : Step} {tokens : List Token}
    (orderly : lexer.Orderly) (turn : lexer.Turn step) :
    step.Keeps (fun _ => Orderly) (fun _ => True) tokens := by
  cases turn with
  | @ready token more ready =>
      have settled := orderly.settled (by simp [ready])
      exact ⟨orderly.named, fun _ => settled⟩
  | closed ready opened reading delivered =>
      exact delivery delivered ready rfl orderly.named
  | interrupted ready opened reading => exact unsettled ready orderly.named
  | unclosed ready opened reading => trivial
  | finished ready closed finished =>
      unfold Lexer.finish
      split
      · trivial
      · rename_i interpolations
        split
        · exact orderly
        · rename_i lexeme more dissolved
          refine ⟨?_, fun _ => ⟨closed, interpolations, rfl⟩⟩
          intro element member
          cases member
  | failed ready closed remaining failure => trivial
  | layout ready closed remaining success found => exact unsettled ready orderly.named
  | lexeme ready closed remaining success found delivered =>
      exact delivery delivered ready closed orderly.named
  | literal ready closed remaining success found => exact unsettled ready orderly.named
  | @element scanned name ready closed remaining success found =>
      refine unsettled ready ?_
      intro element member
      rcases List.mem_cons.mp member with same | around
      · rw [same]
        exact (scan_success success).name_kind found
      · exact orderly.named element around

end Orderly

theorem Run.orderly {text : Text} {tokens : List Token} {lexer : Lexer}
    (run : Run text tokens lexer) : Orderly lexer :=
  @Run.invariant text (fun _ => Orderly) (fun _ => True) (Orderly.ofText text)
    (fun _ lexer _ orderly => Orderly.turn orderly lexer.step_turn) tokens lexer run

end Lexer

namespace ModeStack

/-- A literal that an interpolation interrupts, and that interpolation. -/
structure Interruption where
  literal : Literal
  text : Text
  depth : Nat

def Interruption.modes (interruption : Interruption) : List Mode :=
  [.literal interruption.literal, .interpolation interruption.text interruption.depth]

/-- From the bottom of the stack there are only elements, then only interrupted
literals, each with its interpolation right above it, and then there may be one
literal that is being read. -/
def Shaped (modes : List Mode) : Prop :=
  ∃ (markups : List Markup) (interruptions : List Interruption)
    (reading : Option Literal),
    modes.reverse = markups.map .markup ++ interruptions.flatMap Interruption.modes ++
      reading.toList.map .literal

namespace Stacks

variable {elements : List Element} {literal : Option StringLiteral}
  {interpolations : List Interpolation} {modes : List Mode}

theorem exists_reverse (standing : Stacks elements literal interpolations modes) :
    ∃ (markups : List Markup) (interruptions : List Interruption),
      modes.reverse = markups.map .markup ++ interruptions.flatMap Interruption.modes ++
        (literal.map Literal.ofOpen).toList.map .literal := by
  induction standing with
  | elements =>
      refine ⟨elements.reverse.map .ofElement, [], ?_⟩
      simp
  | @literal literal interpolations modes outside measured ih =>
      obtain ⟨markups, interruptions, below⟩ := ih
      refine ⟨markups, interruptions, ?_⟩
      simp [below]
  | @interpolation literal interpolations modes text depth inside ih =>
      obtain ⟨markups, interruptions, below⟩ := ih
      refine ⟨markups, interruptions ++ [⟨.ofOpen literal, text, depth⟩], ?_⟩
      simp [below, Interruption.modes]

theorem shaped (standing : Stacks elements literal interpolations modes) : Shaped modes := by
  obtain ⟨markups, interruptions, below⟩ := standing.exists_reverse
  exact ⟨markups, interruptions, literal.map Literal.ofOpen, below⟩

theorem markup_mem (standing : Stacks elements literal interpolations modes)
    {markup : Markup} (member : .markup markup ∈ modes) :
    ∃ element, element ∈ elements ∧ markup = .ofElement element := by
  induction standing with
  | elements =>
      obtain ⟨element, inside, same⟩ := List.mem_map.mp member
      cases same
      exact ⟨element, inside, rfl⟩
  | literal outside measured ih =>
      rcases List.mem_cons.mp member with same | below
      · cases same
      · exact ih below
  | interpolation inside ih =>
      rcases List.mem_cons.mp member with same | below
      · cases same
      · exact ih below

end Stacks

theorem Markup.phase_ofElement (element : Element) :
    (ofElement element).phase ≠ .closed := by
  obtain ⟨name, content, phase⟩ := element
  cases phase with
  | openingTag => nofun
  | children => nofun
  | closingTag lt slash held => nofun

namespace Machine

/-- What the operations of the lexer rely on. -/
structure WellFormed (source : Source) (machine : Machine) : Prop where
  boundary : Text.isBoundary source.content machine.cursor = true
  inside : machine.cursor ≤ Text.byteLength source.content
  shaped : Shaped machine.modes
  settled : machine.pending ≠ [] → machine.modes = []
  markups : ∀ markup, .markup markup ∈ machine.modes →
    markup.phase ≠ .closed ∧
      ∃ name more, markup.tokens = name :: more ∧ name.kind = .xhpName

/-- The tokens that are handed out by a number of passes from the front of a
source, and the lexer as it is left. -/
inductive Run (source : Source) : List Token → Machine → Prop where
  | start : Run source [] .start
  | moved {tokens : List Token} {machine after : Machine} (run : Run source tokens machine)
      (pass : machine.pass? source = some (.moved after)) : Run source tokens after
  | token {tokens : List Token} {machine after : Machine} {token : Token}
      (run : Run source tokens machine)
      (pass : machine.pass? source = some (.token token after)) :
      Run source (tokens ++ [token]) after
  | endOfText {tokens : List Token} {machine after : Machine}
      (run : Run source tokens machine)
      (pass : machine.pass? source = some (.endOfText after)) : Run source tokens after

end Machine

theorem Represents.start (text : Text) : Represents .start (.ofText text) where
  cursor := rfl
  line := rfl
  modes := .elements
  pending := rfl
  comments := rfl

theorem Represents.wellFormed {source : Source} {machine : Machine} {lexer : Lexer}
    (represents : Represents machine lexer)
    (place : lexer.cursor.IsPlaceOf source.content) (orderly : lexer.Orderly) :
    machine.WellFormed source where
  boundary := by
    rw [represents.cursor]
    exact place.isBoundary
  inside := by
    rw [represents.cursor]
    exact place.offset_le_byteLength
  shaped := represents.modes.shaped
  settled := by
    intro pending
    rw [represents.pending] at pending
    obtain ⟨closed, interpolations, elements⟩ := orderly.settled pending
    have standing := represents.modes
    rw [closed, interpolations, elements] at standing
    exact standing.eq_elements
  markups := by
    intro markup member
    obtain ⟨element, opened, rfl⟩ := represents.modes.markup_mem member
    refine ⟨Markup.phase_ofElement element, ?_⟩
    exact ⟨element.name.token, _, rfl, orderly.named element opened⟩

namespace Pass.Answers

variable {machine : Machine} {lexer : Lexer} {step : Step}

theorem step_of_moved (answers : (Pass.moved machine).Answers step) :
    ∃ lexer, step = .moved lexer ∧ Represents machine lexer := by
  cases step with
  | moved lexer => exact ⟨lexer, rfl, answers⟩
  | pulled pulled => exact answers.elim

theorem step_of_token {token : Token} (answers : (Pass.token token machine).Answers step) :
    ∃ lexer, step = .pulled (.token token lexer) ∧ Represents machine lexer := by
  cases step with
  | moved lexer => exact answers.elim
  | pulled pulled =>
      cases pulled with
      | token handed lexer =>
          obtain ⟨rfl, represents⟩ := answers
          exact ⟨lexer, rfl, represents⟩
      | endOfText lexer => exact answers.elim
      | failed error lexer => exact answers.elim

theorem step_of_endOfText (answers : (Pass.endOfText machine).Answers step) :
    ∃ lexer, step = .pulled (.endOfText lexer) ∧ Represents machine lexer := by
  cases step with
  | moved lexer => exact answers.elim
  | pulled pulled =>
      cases pulled with
      | token handed lexer => exact answers.elim
      | endOfText lexer => exact ⟨lexer, rfl, answers⟩
      | failed error lexer => exact answers.elim

variable {pass : Pass}

theorem pass_of_moved (answers : pass.Answers (.moved lexer)) :
    ∃ machine, pass = .moved machine ∧ Represents machine lexer := by
  cases pass with
  | moved machine => exact ⟨machine, rfl, answers⟩
  | token handed machine => exact answers.elim
  | endOfText machine => exact answers.elim
  | failed error => exact answers.elim

theorem pass_of_token {token : Token} (answers : pass.Answers (.pulled (.token token lexer))) :
    ∃ machine, pass = .token token machine ∧ Represents machine lexer := by
  cases pass with
  | moved machine => exact answers.elim
  | token handed machine =>
      obtain ⟨rfl, represents⟩ := answers
      exact ⟨machine, rfl, represents⟩
  | endOfText machine => exact answers.elim
  | failed error => exact answers.elim

theorem pass_of_endOfText (answers : pass.Answers (.pulled (.endOfText lexer))) :
    ∃ machine, pass = .endOfText machine ∧ Represents machine lexer := by
  cases pass with
  | moved machine => exact answers.elim
  | token handed machine => exact answers.elim
  | endOfText machine => exact ⟨machine, rfl, answers⟩
  | failed error => exact answers.elim

end Pass.Answers

section

variable {source : Source} {tokens : List Token} {machine : Machine} {lexer : Lexer}

theorem Represents.pass? (represents : Represents machine lexer)
    (run : Lexer.Run source.content tokens lexer) :
    ∃ pass, machine.pass? source = some pass ∧ pass.Answers lexer.step :=
  Machine.pass?_answers represents run.placed run.orderly.named

/-- Every run of the lexer with a stack represents a run of the lexer. -/
theorem Machine.Run.exists_lexer (run : Machine.Run source tokens machine) :
    ∃ lexer, Lexer.Run source.content tokens lexer ∧ Represents machine lexer := by
  induction run with
  | start => exact ⟨_, .start, .start source.content⟩
  | @moved tokens machine after run pass ih =>
      obtain ⟨lexer, lexed, represents⟩ := ih
      obtain ⟨answer, given, answers⟩ := represents.pass? lexed
      rw [pass] at given
      cases given
      obtain ⟨next, step, nextRepresents⟩ := answers.step_of_moved
      exact ⟨next, lexed.moved step, nextRepresents⟩
  | @token tokens machine after token run pass ih =>
      obtain ⟨lexer, lexed, represents⟩ := ih
      obtain ⟨answer, given, answers⟩ := represents.pass? lexed
      rw [pass] at given
      cases given
      obtain ⟨next, step, nextRepresents⟩ := answers.step_of_token
      exact ⟨next, lexed.token step, nextRepresents⟩
  | @endOfText tokens machine after run pass ih =>
      obtain ⟨lexer, lexed, represents⟩ := ih
      obtain ⟨answer, given, answers⟩ := represents.pass? lexed
      rw [pass] at given
      cases given
      obtain ⟨next, step, nextRepresents⟩ := answers.step_of_endOfText
      exact ⟨next, lexed.endOfText step, nextRepresents⟩

/-- Every run of the lexer is represented by a run of the lexer with a stack. -/
theorem Machine.Run.exists_machine (run : Lexer.Run source.content tokens lexer) :
    ∃ machine, Machine.Run source tokens machine ∧ Represents machine lexer := by
  induction run with
  | start => exact ⟨_, .start, .start source.content⟩
  | @moved tokens lexer after run step ih =>
      obtain ⟨machine, stacked, represents⟩ := ih
      obtain ⟨pass, given, answers⟩ := represents.pass? run
      rw [step] at answers
      obtain ⟨next, rfl, nextRepresents⟩ := answers.pass_of_moved
      exact ⟨next, stacked.moved given, nextRepresents⟩
  | @token tokens lexer after token run step ih =>
      obtain ⟨machine, stacked, represents⟩ := ih
      obtain ⟨pass, given, answers⟩ := represents.pass? run
      rw [step] at answers
      obtain ⟨next, rfl, nextRepresents⟩ := answers.pass_of_token
      exact ⟨next, stacked.token given, nextRepresents⟩
  | @endOfText tokens lexer after run step ih =>
      obtain ⟨machine, stacked, represents⟩ := ih
      obtain ⟨pass, given, answers⟩ := represents.pass? run
      rw [step] at answers
      obtain ⟨next, rfl, nextRepresents⟩ := answers.pass_of_endOfText
      exact ⟨next, stacked.endOfText given, nextRepresents⟩

theorem Machine.answer?_answers {fuel : Nat} (represents : Represents machine lexer)
    (run : Lexer.Run source.content tokens lexer)
    (enough : lexer.cursor.rest.length < fuel) :
    ∃ answer, machine.answer? source fuel = some answer ∧
      answer.Answers (.pulled lexer.next) := by
  induction fuel generalizing machine lexer with
  | zero => omega
  | succ fuel ih =>
      obtain ⟨pass, given, answers⟩ := represents.pass? run
      cases step : lexer.step with
      | moved after =>
          rw [step] at answers
          obtain ⟨next, rfl, nextRepresents⟩ := answers.pass_of_moved
          -- A pass without an answer has read something, so the fuel lasts.
          have shorter := (Lexer.step_moved step).1
          obtain ⟨answer, loop, answered⟩ := ih nextRepresents (run.moved step) (by omega)
          rw [Lexer.next_of_moved step]
          refine ⟨answer, ?_, answered⟩
          rw [answer?, given]
          exact loop
      | pulled pulled =>
          rw [step] at answers
          rw [Lexer.next_of_pulled step]
          refine ⟨pass, ?_, answers⟩
          rw [answer?, given]
          cases pass with
          | moved after => exact answers.elim
          | token token after => rfl
          | endOfText after => rfl
          | failed error => rfl

end

/-- The lexer behind a number of passes that answer nothing. -/
def Machine.behind? (source : Source) : Nat → Option Machine
  | 0 => some .start
  | count + 1 => do
      match ← (← behind? source count).pass? source with
      | .moved after => some after
      | _ => none

theorem Machine.Run.of_behind? {source : Source} {count : Nat} {machine : Machine}
    (reached : behind? source count = some machine) : Run source [] machine := by
  induction count generalizing machine with
  | zero =>
      cases reached
      exact .start
  | succ count ih =>
      obtain ⟨before, earlier, passed⟩ := Option.bind_eq_some_iff.mp reached
      obtain ⟨pass, given, moved⟩ := Option.bind_eq_some_iff.mp passed
      cases pass with
      | moved after =>
          cases moved
          exact (ih earlier).moved given
      | token token after => cases moved
      | endOfText after => cases moved
      | failed error => cases moved

/-- No run of the lexer with a stack of modes reaches a state that is not
well-formed or in which it is stuck.  Its runs are those of the lexer, pass by
step and answer by answer. -/
theorem run_never_stuck (source : Source) :
    (∀ tokens machine, Machine.Run source tokens machine →
      machine.WellFormed source ∧
      ∃ lexer, Lexer.Run source.content tokens lexer ∧ Represents machine lexer ∧
        (∃ pass, machine.pass? source = some pass ∧ pass.Answers lexer.step) ∧
        ∃ answer, machine.next? source = some answer ∧
          answer.Answers (.pulled lexer.next)) ∧
    ∀ tokens lexer, Lexer.Run source.content tokens lexer →
      ∃ machine, Machine.Run source tokens machine ∧ Represents machine lexer := by
  refine ⟨?_, fun tokens lexer run => Machine.Run.exists_machine run⟩
  intro tokens machine run
  obtain ⟨lexer, lexed, represents⟩ := run.exists_lexer
  have place := lexed.placed.cursor
  refine ⟨represents.wellFormed place lexed.orderly, lexer, lexed, represents, ?_, ?_⟩
  · exact represents.pass? lexed
  · exact Machine.answer?_answers represents lexed (length_rest_lt_turns place)

/-- The text ends in an interpolation in a string in an attribute of an element
inside another one. -/
theorem nested_interpolation_not_stuck :
    let source : Source := { path := "a.hack", content := "<a><b c=\"é\x7b".toList }
    ∃ machine error, Machine.Run source [] machine ∧ machine.modes.length = 4 ∧
      machine.WellFormed source ∧ machine.next? source = some (.failed error) ∧
      error.cause = .unterminatedString .double := by
  intro source
  have evaluated : (Machine.behind? source 8).map (fun machine =>
      (machine.modes.length,
        match machine.next? source with
        | some (.failed error) => some error.cause
        | _ => none)) = some (4, some (.unterminatedString .double)) := by
    decide +kernel
  obtain ⟨machine, reached, shown⟩ := Option.map_eq_some_iff.mp evaluated
  obtain ⟨height, cause⟩ := Prod.mk.inj shown
  have run := Machine.Run.of_behind? reached
  obtain ⟨wellFormed, _, _, _, _, answer, given, _⟩ :=
    (run_never_stuck source).1 [] machine run
  rw [given] at cause
  cases answer with
  | failed error =>
      exact ⟨machine, error, run, height, wellFormed, given, Option.some.inj cause⟩
  | moved after => cases cause
  | token token after => cases cause
  | endOfText after => cases cause

end ModeStack

end HackLexer
