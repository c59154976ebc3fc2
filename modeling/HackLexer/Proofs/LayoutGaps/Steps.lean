import HackLexer.Proofs.Grammar.Tokens
import HackLexer.Proofs.LayoutGaps.Separators
import HackLexer.Proofs.StridesInContext

/-!
# Steps in front of layout

A step of the lexer inside of a context is the counterpart of its step in the text
alone, or it fails or goes over the end of the text.  If layout follows the text, the
text alone then fails as well, or its last scan passes over layout or comes to the end
of the text in a line comment.

`step_agrees` says this of every state of the lexer, inside of literals too.
-/

namespace HackLexer

variable {context : Context} {earlier : Array Comment}

theorem StringLiteral.Opened.proper {limit : Cursor} {literal : StringLiteral}
    (opened : literal.Opened limit) : literal.form.Proper := by
  obtain ⟨count, opening, _⟩ := opened
  cases form : literal.form with
  | doubleQuoted => trivial
  | heredoc label atLineStart =>
      rw [form] at opening
      obtain ⟨first, ⟨character, upper, rfl⟩, more, parts, whole⟩ := opening.1
      intro part member
      rw [← whole] at member
      rcases List.mem_cons.mp member with rfl | later
      · simp [Label.isPart, upper]
      · exact (Grammar.mem_oneOrMore_oneOf.mp parts).2 part later

namespace StringLiteral

def Reading.inside (context : Context) : Reading → Reading
  | .closed complete => .closed (complete.inside context)
  | .interpolation suspended after =>
      .interpolation (suspended.inside context) (after.inside context)
  | .unclosed error => .unclosed (error.shift context.bytes context.lines)

/-- Reading on comes to the end of everything or goes over the end of the text. -/
def Reading.Overruns (context : Context) : Reading → Prop
  | .closed complete => context.Passed complete.stop
  | .interpolation _ after => context.Passed after
  | .unclosed _ => True

variable {literal : StringLiteral} {cursor : Cursor}

theorem read_inside_of_same
    (same : literal.body (cursor.rest ++ context.tail) = literal.body cursor.rest)
    (stopped : (literal.body cursor.rest).ending ≠ .endOfText ∨ context.tail = []) :
    (literal.inside context).read (cursor.inside context) = (literal.read cursor).inside context := by
  have body : (literal.inside context).body (cursor.inside context).rest =
      literal.body cursor.rest := same
  have bound : (literal.body cursor.rest).length ≤ cursor.rest.length :=
    body_opening_within literal.form literal.start cursor.rest
  have moved : (cursor.inside context).advance (literal.body cursor.rest).length =
      (cursor.advance (literal.body cursor.rest).length).inside context :=
    Cursor.advance_inside (.inl bound)
  simp only [read, body, moved]
  cases ending : (literal.body cursor.rest).ending with
  | closed => rfl
  | interpolation => rfl
  | endOfText =>
      have nil := stopped.resolve_left (absurd ending)
      exact congrArg Reading.unclosed (unclosed_opening_inside nil literal.start literal.form cursor)

theorem read_of_endOfText (ending : (literal.body cursor.rest).ending = .endOfText) :
    literal.read cursor = .unclosed (literal.unclosed cursor) := by
  simp only [read, ending]

theorem read_agrees (proper : literal.form.Proper) :
    (literal.inside context).read (cursor.inside context) =
        (literal.read cursor).inside context ∨
      context.tail ≠ [] ∧
        ((literal.inside context).read (cursor.inside context)).Overruns context ∧
        (context.tail.Stops → ∃ error, literal.read cursor = .unclosed error) := by
  by_cases nil : context.tail = []
  · left
    exact read_inside_of_same (by rw [nil, List.append_nil]) (.inr nil)
  · have continues := body_opening_append proper literal.start literal.start cursor.rest context.tail
    change (literal.body cursor.rest).Continues cursor.rest context.tail.Stops
      (literal.body (cursor.rest ++ context.tail)) at continues
    rcases continues with same | ⟨beyond, ended⟩
    · by_cases ending : (literal.body cursor.rest).ending = .endOfText
      · refine .inr ⟨nil, ?_, fun _ => ⟨_, read_of_endOfText ending⟩⟩
        have unread : ((literal.inside context).body (cursor.inside context).rest).ending =
            .endOfText := by
          change (literal.body (cursor.rest ++ context.tail)).ending = _
          rw [same, ending]
        rw [read_of_endOfText unread]
        trivial
      · exact .inl (read_inside_of_same same (.inl ending))
    · refine .inr ⟨nil, ?_, fun stops => ⟨_, read_of_endOfText (ended stops)⟩⟩
      have longer : (literal.inside context).body (cursor.inside context).rest =
          literal.body (cursor.rest ++ context.tail) := rfl
      simp only [read, longer]
      cases ending : (literal.body (cursor.rest ++ context.tail)).ending with
      | closed => exact passed_of_beyond nil (beyond (by rw [ending]; decide))
      | interpolation => exact passed_of_beyond nil (beyond (by rw [ending]; decide))
      | endOfText => trivial

end StringLiteral

namespace Lexer

variable {lexer : Lexer} {text : Text} {tokens : List Token} {scanned : Scanned}

/-- Delivering does not take the cursor back into the text. -/
theorem deliver_overruns {lexeme : Lexeme} (passed : context.Passed lexer.cursor) :
    (lexer.deliver lexeme).Overruns context :=
  .inr (passed.mono (deliver_delivery lexer lexeme).reaches)

theorem accept_overruns (passed : context.Passed scanned.after) :
    (lexer.accept scanned).Overruns context := by
  rw [accept_eq]
  split
  · exact .inr passed
  · exact deliver_overruns passed
  · exact .inr passed
  · exact .inr passed

theorem step_overruns_of_scan (ready : lexer.ready = []) (literal : lexer.literal = none)
    (remaining : lexer.cursor.rest ≠ [])
    (overruns : Overruns context (some (scan lexer.interpolations.isEmpty lexer.cursor))) :
    lexer.step.Overruns context := by
  rw [step_of_scan ready literal remaining]
  cases success : scan lexer.interpolations.isEmpty lexer.cursor with
  | error error => exact .inl trivial
  | ok scanned =>
      rw [success] at overruns
      exact accept_overruns overruns

theorem accept_agrees (placed : Placed text tokens lexer) (literal : lexer.literal = none)
    (remaining : lexer.cursor.rest ≠ [])
    (success : scan lexer.interpolations.isEmpty lexer.cursor = .ok scanned) :
    (lexer.inside context earlier).accept (scanned.inside context) =
        (lexer.accept scanned).inside context earlier ∨
      context.tail ≠ [] ∧ (lexer.accept scanned).IsFailure ∧
        ((lexer.inside context earlier).accept (scanned.inside context)).Overruns context := by
  have outcome := scan_success success
  have passing := @passing_inside context earlier lexer scanned
  have found : (scanned.inside context).found = scanned.found.inside context := rfl
  rw [accept_eq, accept_eq, found]
  cases here : scanned.found with
  | layout => exact .inl (congrArg Step.moved passing)
  | literal opened =>
      left
      exact congrArg (fun passed : Lexer =>
        Step.moved { passed with literal := some (opened.inside context) }) passing
  | element name =>
      left
      exact congrArg (fun passed : Lexer => Step.moved
        { passed with
          elements := .opened (name.inside context) :: lexer.elements.map (.inside context) })
        passing
  | lexeme lexeme =>
      have given := outcome.lexeme_placed placed.cursor remaining here
      simp only [Found.inside, passing]
      exact deliver_agrees (lexer.passing scanned) given
        (placed.held_before_lexeme literal outcome here)

/-- The last scan of a text passes over layout, or it comes to the end of the text in a
line comment. -/
def EndsInLayout (lexer : Lexer) : Prop :=
  lexer.ready = [] ∧ lexer.literal = none ∧
    ∃ scanned, scan lexer.interpolations.isEmpty lexer.cursor = .ok scanned ∧
      (scanned.IsLayout ∨ scanned.RunsOut)

theorem step_of_reading {literal : StringLiteral} (ready : lexer.ready = [])
    (opened : lexer.literal = some literal) :
    lexer.step =
      match literal.read lexer.cursor with
      | .closed lexeme => { lexer with cursor := lexeme.stop, literal := none }.deliver lexeme
      | .interpolation suspended after =>
          .moved
            { lexer with
              cursor := after
              literal := none
              interpolations := { literal := suspended, depth := 0 } :: lexer.interpolations }
      | .unclosed error => .pulled (.failed error lexer) := by
  obtain ⟨cursor, _, interpolations, elements, _, comments⟩ := lexer
  cases ready
  cases opened
  rfl

theorem literal_step_agrees {literal : StringLiteral} (placed : Placed text tokens lexer)
    (ready : lexer.ready = []) (opened : lexer.literal = some literal)
    (proper : literal.form.Proper) :
    (lexer.inside context earlier).step = lexer.step.inside context earlier ∨
      context.tail ≠ [] ∧ (lexer.inside context earlier).step.Overruns context ∧
        (context.tail.Separates → lexer.step.IsFailure) := by
  have noneReady : (lexer.inside context earlier).ready = [] := by
    simp only [Lexer.inside, ready, List.map_nil]
  have openedInside : (lexer.inside context earlier).literal = some (literal.inside context) := by
    simp only [Lexer.inside, opened, Option.map_some]
  have cursor : (lexer.inside context earlier).cursor = lexer.cursor.inside context := rfl
  rw [step_of_reading ready opened, step_of_reading noneReady openedInside, cursor]
  rcases @StringLiteral.read_agrees context literal lexer.cursor proper with
    same | ⟨nonempty, overruns, unclosed⟩
  · rw [same]
    cases reading : literal.read lexer.cursor with
    | unclosed error => exact .inl rfl
    | interpolation suspended after => exact .inl rfl
    | closed lexeme =>
        have given := placed.closed_lexeme opened reading
        have held := placed.held_before_closed opened reading
        rcases @deliver_agrees context earlier
          { lexer with cursor := lexeme.stop, literal := none } text lexeme lexeme.stop given held with
          same | ⟨nonempty, failed, overruns⟩
        · exact .inl same
        · exact .inr ⟨nonempty, overruns, fun _ => failed⟩
  · refine .inr ⟨nonempty, ?_, ?_⟩
    · cases reading : (literal.inside context).read (lexer.cursor.inside context) with
      | unclosed error => exact .inl trivial
      | interpolation suspended after =>
          rw [reading] at overruns
          exact .inr overruns
      | closed lexeme =>
          rw [reading] at overruns
          exact deliver_overruns overruns
    · intro separates
      obtain ⟨error, failed⟩ := unclosed separates.stops
      rw [failed]
      trivial

theorem scan_step_agrees (placed : Placed text tokens lexer) (ready : lexer.ready = [])
    (literal : lexer.literal = none) (remaining : lexer.cursor.rest ≠ []) :
    (lexer.inside context earlier).step = lexer.step.inside context earlier ∨
      context.tail ≠ [] ∧ (lexer.inside context earlier).step.Overruns context ∧
        (context.tail.Separates → lexer.step.IsFailure ∨ lexer.EndsInLayout) := by
  have noneReady : (lexer.inside context earlier).ready = [] := by
    simp only [Lexer.inside, ready, List.map_nil]
  have closed : (lexer.inside context earlier).literal = none := by
    simp only [Lexer.inside, literal, Option.map_none]
  have longer : (lexer.inside context earlier).cursor.rest ≠ [] :=
    List.append_ne_nil_of_left_ne_nil remaining context.tail
  have markup : (lexer.inside context earlier).interpolations.isEmpty =
      lexer.interpolations.isEmpty := by
    simp only [Lexer.inside, List.isEmpty_map]
  have cursor : (lexer.inside context earlier).cursor = lexer.cursor.inside context := rfl
  have within := step_of_scan noneReady closed longer
  have alone := step_of_scan ready literal remaining
  rcases @scan_agrees context lexer.cursor lexer.interpolations.isEmpty remaining with
    same | ⟨nonempty, overruns, _⟩
  · rw [within, alone, markup, cursor, Option.some.inj same]
    cases success : scan lexer.interpolations.isEmpty lexer.cursor with
    | error error => exact .inl rfl
    | ok scanned =>
        rcases @accept_agrees context earlier lexer text tokens scanned placed literal remaining
          success with same | ⟨nonempty, failed, overruns⟩
        · exact .inl same
        · exact .inr ⟨nonempty, overruns, fun _ => .inl failed⟩
  · refine .inr ⟨nonempty, ?_, ?_⟩
    · apply step_overruns_of_scan noneReady closed longer
      rw [markup]
      exact overruns
    · intro separates
      rw [alone]
      cases success : scan lexer.interpolations.isEmpty lexer.cursor with
      | error error => exact .inl trivial
      | ok scanned =>
          rcases scan_kept separates remaining success with layout | runsOut | same
          · exact .inr ⟨ready, literal, scanned, success, .inl layout⟩
          · exact .inr ⟨ready, literal, scanned, success, .inr runsOut⟩
          · rw [same] at overruns
            change (scanned.after.rest ++ context.tail).length < context.tail.length at overruns
            rw [List.length_append] at overruns
            omega

/-- A step inside of a context is the counterpart of the step in the text alone, or it
fails or goes over the end of the text.  If layout follows the text, it differs only
where the text alone fails or has come to its last layout or comment. -/
theorem step_agrees (placed : Placed text tokens lexer)
    (proper : ∀ literal, literal ∈ lexer.openLiterals → literal.form.Proper)
    (remaining : lexer.ready ≠ [] ∨ lexer.cursor.rest ≠ []) :
    (lexer.inside context earlier).step = lexer.step.inside context earlier ∨
      context.tail ≠ [] ∧ (lexer.inside context earlier).step.Overruns context ∧
        (context.tail.Separates → lexer.step.IsFailure ∨ lexer.EndsInLayout) := by
  cases ready : lexer.ready with
  | cons token more =>
      left
      simp only [step, Lexer.inside, ready, List.map_cons]
      rfl
  | nil =>
      cases literal : lexer.literal with
      | none =>
          exact scan_step_agrees placed ready literal (remaining.resolve_left (absurd ready))
      | some opened =>
          have form := proper opened (by simp [openLiterals, literal])
          rcases literal_step_agrees placed ready literal form with
            same | ⟨nonempty, overruns, failing⟩
          · exact .inl same
          · exact .inr ⟨nonempty, overruns, fun separates => .inl (failing separates)⟩

end Lexer

end HackLexer
