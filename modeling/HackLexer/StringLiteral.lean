import HackLexer.Lexeme
import HackLexer.StringLiteral.DocString
import HackLexer.StringLiteral.DoubleQuoted

/-!
# String literals with interpolations

A double-quoted string or heredoc is read in pieces: whenever a brace opens an
interpolation, the literal is set aside and the tokens of the interpolation are
lexed until its braces balance.  Their characters, without the layout and
comments between them, become part of the value.
-/

namespace HackLexer

/-- The forms of literals that may contain interpolations. -/
inductive LiteralForm where
  | doubleQuoted
  /-- The flag tells whether the next character starts a line. -/
  | heredoc (label : Label) (atLineStart : Bool)
  deriving DecidableEq, Repr

/-- A literal whose body is being read. -/
structure StringLiteral where
  /-- Where the literal starts. -/
  start : Cursor
  form : LiteralForm
  /-- The value read so far. -/
  value : Text
  deriving DecidableEq, Repr

namespace StringLiteral

def append (literal : StringLiteral) (text : Text) : StringLiteral :=
  { literal with value := literal.value ++ text }

/-- The error about a literal that the end of the text leaves open. -/
def unclosed (literal : StringLiteral) (cursor : Cursor) : LexicalError :=
  match literal.form with
  | .doubleQuoted =>
      .unclosed (.unterminatedString .double) (literal.start.spanOf 1) cursor
  | .heredoc label _ =>
      .unclosed (.unterminatedDocString .heredoc) (literal.start.spanOf (3 + label.length)) cursor

def kind (literal : StringLiteral) : TokenKind :=
  match literal.form with
  | .doubleQuoted => .doubleQuotedString
  | .heredoc _ _ => .heredoc

def body (literal : StringLiteral) (text : Text) : Body :=
  match literal.form with
  | .doubleQuoted => DoubleQuoted.body text
  | .heredoc label atLineStart => DocString.heredocBody label atLineStart text

/-- What becomes of the form when an interpolation interrupts the literal: what
follows the interpolation starts no line. -/
def interrupted (literal : StringLiteral) : LiteralForm :=
  match literal.form with
  | .doubleQuoted => .doubleQuoted
  | .heredoc label _ => .heredoc label false

/-- The result of reading on in a literal. -/
inductive Reading where
  /-- The literal is complete. -/
  | closed (lexeme : Lexeme)
  /-- An interpolation opens in front of the cursor. -/
  | interpolation (literal : StringLiteral) (after : Cursor)
  /-- The text ends. -/
  | unclosed (error : LexicalError)

def read (literal : StringLiteral) (cursor : Cursor) : Reading :=
  let body := literal.body cursor.rest
  let after := cursor.advance body.length
  match body.ending with
  | .closed =>
      .closed
        { kind := literal.kind
          start := literal.start
          stop := after
          literal := some (literal.value ++ body.value) }
  | .interpolation =>
      .interpolation
        { start := literal.start
          form := literal.interrupted
          value := literal.value ++ body.value ++ ['\x7b'] }
        after
  | .endOfText => .unclosed (literal.unclosed cursor)

theorem body_progress (literal : StringLiteral) (text : Text)
    (stopped : (literal.body text).ending ≠ .endOfText) :
    text ≠ [] ∧ 0 < (literal.body text).length := by
  unfold body at stopped ⊢
  split
  · rename_i same
    simp only [same] at stopped
    exact DoubleQuoted.body_progress stopped
  · rename_i same
    simp only [same] at stopped
    exact DocString.heredocBody_progress stopped

theorem read_closed_shorter {literal : StringLiteral} {cursor : Cursor} {lexeme : Lexeme}
    (result : literal.read cursor = .closed lexeme) :
    lexeme.stop.rest.length < cursor.rest.length := by
  simp only [read] at result
  split at result
  · rename_i ending
    have progress := body_progress literal cursor.rest (by simp [ending])
    simp only [Reading.closed.injEq] at result
    subst result
    exact Cursor.length_rest_advance_lt progress.1 progress.2
  · simp at result
  · simp at result

theorem read_interpolation_shorter {literal interrupted : StringLiteral} {cursor after : Cursor}
    (result : literal.read cursor = .interpolation interrupted after) :
    after.rest.length < cursor.rest.length := by
  simp only [read] at result
  split at result
  · simp at result
  · rename_i ending
    have progress := body_progress literal cursor.rest (by simp [ending])
    simp only [Reading.interpolation.injEq] at result
    rw [← result.2]
    exact Cursor.length_rest_advance_lt progress.1 progress.2
  · simp at result

end StringLiteral

/-- An interpolation inside a literal. -/
structure Interpolation where
  /-- The literal that goes on when the interpolation ends. -/
  literal : StringLiteral
  /-- Number of braces opened inside the interpolation and not yet closed. -/
  depth : Nat
  deriving DecidableEq, Repr

namespace Interpolation

/-- What becomes of an interpolation when it receives a lexeme. -/
inductive Receipt where
  /-- It goes on. -/
  | within (interpolation : Interpolation)
  /-- It ends, and its literal goes on. -/
  | ended (literal : StringLiteral)

/-- Receives a lexeme, whose characters become part of the literal. -/
def receive (interpolation : Interpolation) (lexeme : Lexeme) : Receipt :=
  let literal := interpolation.literal.append lexeme.raw
  match lexeme.kind, interpolation.depth with
  | .leftBrace, depth => .within { literal, depth := depth + 1 }
  | .rightBrace, 0 => .ended literal
  | .rightBrace, depth + 1 => .within { literal, depth }
  | _, depth => .within { literal, depth }

end Interpolation

end HackLexer
