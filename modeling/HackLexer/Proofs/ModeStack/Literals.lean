import HackLexer.Proofs.ModeStack.Scans
import HackLexer.Proofs.Placement

/-!
# Literals on the stack of modes

Reading on in the literal on top of the stack gives what reading on in the open
literal gives.  An interpolation leaves the literal on the stack without the
brace that opens it: the brace belongs to the text of the interpolation.
-/

namespace HackLexer

namespace ModeStack

/-- Literals whose opener or label is as long in bytes as in characters. -/
def Measured (literal : StringLiteral) : Prop :=
  match literal.form with
  | .doubleQuoted => (literal.start.advance 1).offset = literal.start.offset + 1
  | .heredoc label _ => ∀ character, character ∈ label.text → isPlain character

theorem append_append (literal : StringLiteral) (first second : Text) :
    (literal.append first).append second = literal.append (first ++ second) := by
  simp [StringLiteral.append]

theorem unclosed_append (literal : StringLiteral) (text : Text) (cursor : Cursor) :
    (literal.append text).unclosed cursor = literal.unclosed cursor := rfl

namespace Machine

variable {source : Source} {cursor : Cursor}

theorem unterminated?_eq {literal : StringLiteral} (measured : Measured literal)
    (place : literal.start.IsPlaceOf source.content) (cursor : Cursor) :
    (Literal.ofOpen literal).unterminated? source cursor.toEnd.line =
      some (literal.unclosed cursor) := by
  obtain ⟨start, form, value⟩ := literal
  cases form with
  | doubleQuoted =>
      have cut := place.span?_eq (.advance start 1)
      rw [show (start.advance 1).offset = start.offset + 1 from measured] at cut
      simp only [Literal.unterminated?, Literal.ofOpen, cut, Option.bind_eq_bind,
        Option.bind_some]
      rfl
  | heredoc label atLineStart =>
      have cut := place.span?_eq (.advance start (3 + label.length))
      simp only [Literal.unterminated?, Literal.ofOpen, cut, Option.bind_eq_bind,
        Option.bind_some]
      rfl

/-- What stays on the stack of a literal when an interpolation opens behind a part of
its body.  Unlike the literal that waits in a lexer, it holds no brace. -/
def leftOnStack (literal : StringLiteral) (body : Body) : StringLiteral :=
  { start := literal.start
    form := literal.interrupted
    value := literal.value ++ body.value }

/-- Behind an interpolation, a line feed is needed to start a line. -/
theorem body?_eq {literal : StringLiteral} (place : cursor.IsPlaceOf source.content)
    (measured : Measured literal) :
    ∃ atLineStart,
      (Literal.ofOpen literal).body? source cursor.offset cursor.line =
        some (bodyRead cursor literal.value atLineStart (literal.body cursor.rest)) ∧
      ((literal.body cursor.rest).ending = .interpolation → atLineStart = false) := by
  have enough := length_rest_lt_turns place
  obtain ⟨start, form, value⟩ := literal
  cases form with
  | doubleQuoted =>
      refine ⟨false, doubleQuotedBody?_eq place enough value, ?_⟩
      intro _
      rfl
  | heredoc label atLineStart =>
      refine ⟨_, heredocBody?_eq place enough measured atLineStart value, ?_⟩
      intro interrupted
      have ending : (DocString.heredocBody label atLineStart cursor.rest).ending =
          .interpolation := interrupted
      rw [ending]
      rfl

theorem behind_ofOpen (cursor : Cursor) (literal : StringLiteral) (body : Body) :
    (Literal.ofOpen literal).behind (bodyRead cursor literal.value false body) =
      Literal.ofOpen (leftOnStack literal body) := by
  obtain ⟨start, form, value⟩ := literal
  cases form with
  | doubleQuoted => rfl
  | heredoc label atLineStart => rfl

theorem kind_ofOpen (literal : StringLiteral) :
    (Literal.ofOpen literal).kind = literal.kind := by
  obtain ⟨start, form, value⟩ := literal
  cases form with
  | doubleQuoted => rfl
  | heredoc label atLineStart => rfl

theorem scanLiteral?_eq (machine : Machine) {literal : StringLiteral} {below : List Mode}
    (place : cursor.IsPlaceOf source.content)
    (opened : literal.PlacedIn source.content cursor) (measured : Measured literal)
    (modes : machine.modes = .literal (.ofOpen literal) :: below) :
    (machine.moveTo cursor).scanLiteral? source =
      some
        (match literal.read cursor with
        | .closed lexeme =>
            .ok (.token lexeme.token, { machine.moveTo lexeme.stop with modes := below })
        | .interpolation _ after =>
            .ok (.enter (.interpolation ['\x7b'] 0),
              { machine.moveTo after with
                modes :=
                  .literal (.ofOpen (leftOnStack literal (literal.body cursor.rest))) ::
                    below })
        | .unclosed error => .error error) := by
  obtain ⟨atLineStart, loop, interrupted⟩ := body?_eq place measured
  have top : (machine.moveTo cursor).modes = .literal (.ofOpen literal) :: below := modes
  rw [scanLiteral?, top]
  simp only [moveTo, loop, Option.bind_eq_bind, Option.bind_some, bodyRead,
    StringLiteral.read]
  cases ending : (literal.body cursor.rest).ending with
  | closed =>
      have span := opened.start.span?_eq
        (opened.before.thenAdvance (literal.body cursor.rest).length)
      have start : (Literal.ofOpen literal).start = literal.start.offset := rfl
      simp only [start, span, Option.bind_some, kind_ofOpen]
      rfl
  | interpolation =>
      rw [← behind_ofOpen cursor, ← interrupted ending]
      rfl
  | endOfText =>
      have unclosed := unterminated?_eq measured opened.start cursor
      have last : cursor.toEnd = cursor.advance cursor.rest.length := rfl
      rw [StringLiteral.length_body ending, ← last, unclosed]
      rfl

theorem measured_leftOnStack {literal : StringLiteral} (measured : Measured literal)
    (body : Body) : Measured (leftOnStack literal body) := by
  obtain ⟨start, form, value⟩ := literal
  cases form with
  | doubleQuoted => exact measured
  | heredoc label atLineStart => exact measured

theorem ofText?_of_header? {behind : Text} {label : Label} {lineBreak : Nat}
    (header : DocString.header? behind = some ⟨.heredoc, label, lineBreak⟩) :
    Label.ofText? behind = some label := by
  unfold DocString.header? at header
  split at header
  · split at header
    · cases header
    · split at header
      · obtain ⟨_, _, same⟩ := Option.map_eq_some_iff.mp header
        cases same
      · cases header
  · split at header
    · cases header
    · rename_i found
      obtain ⟨_, _, same⟩ := Option.map_eq_some_iff.mp header
      cases same
      exact found

theorem measured_of_opens {literal : StringLiteral}
    (opens : literal.form.OpensAt literal.start.rest) : Measured literal := by
  obtain ⟨start, form, value⟩ := literal
  cases form with
  | doubleQuoted =>
      obtain ⟨behind, rest⟩ := opens
      have moved : start.advance 1 = ⟨start.offset + 1, start.line, behind⟩ :=
        Cursor.advance_one rest
      change (start.advance 1).offset = start.offset + 1
      rw [moved]
  | heredoc label atLineStart =>
      obtain ⟨behind, lineBreak, _, header⟩ := opens
      exact Label.isPlain_of_ofText? (ofText?_of_header? header)

theorem read_interpolation {literal left : StringLiteral} {after : Cursor}
    (reading : literal.read cursor = .interpolation left after) :
    left = (leftOnStack literal (literal.body cursor.rest)).append ['\x7b'] := by
  simp only [StringLiteral.read] at reading
  split at reading
  · cases reading
  · cases reading
    rfl
  · cases reading

end Machine

end ModeStack

end HackLexer
