import HackLexer.Cursor
import HackLexer.Source.Excerpt

/-!
# Lexical errors

Every lexical error is fatal for its text.  It has a cause, the span of the
construct that could not be read, and the line at which reading failed.
-/

namespace HackLexer

/-- The two kinds of quotes around strings. -/
inductive Quote where
  | single
  | double
  deriving DecidableEq, Repr

/-- The two kinds of strings that a label ends. -/
inductive DocString where
  | heredoc
  | nowdoc
  deriving DecidableEq, Repr

/-- Why a text could not be lexed. -/
inductive Cause where
  /-- No token starts with this character. -/
  | unknownToken
  /-- A block comment or markup comment is never closed. -/
  | unterminatedComment
  /-- A quoted string is never closed. -/
  | unterminatedString (quote : Quote)
  /-- No line closes a doc string. -/
  | unterminatedDocString (form : DocString)
  /-- A doc string opens without a proper label line. -/
  | invalidDocString
  deriving DecidableEq, Repr

namespace Cause

def message : Cause → String
  | .unknownToken => "unknown token encountered"
  | .unterminatedComment => "unterminated comment"
  | .unterminatedString .single => "unterminated string"
  | .unterminatedString .double => "unterminated double-quoted string"
  | .unterminatedDocString .heredoc => "unterminated heredoc"
  | .unterminatedDocString .nowdoc => "unterminated nowdoc"
  | .invalidDocString => "invalid doc string syntax"

/-- What is said beside the underlined part of the source. -/
def help : Cause → Option String
  | .unknownToken => none
  | .unterminatedComment => some "this comment is never closed"
  | .unterminatedString _ => some "this quote is never closed"
  | .unterminatedDocString _ => some "no line starts with this identifier"
  | .invalidDocString =>
      some "expected an identifier matching `[A-Z][A-Z0-9_]+` followed by a new line"

end Cause

/-- A failure of the lexer. -/
structure LexicalError where
  cause : Cause
  /-- The part of the source that could not be read. -/
  span : Span
  /-- The line at which reading failed, counted from zero. -/
  line : Nat
  deriving DecidableEq, Repr

namespace LexicalError

/-- An error about a construct that runs to the end of the text. -/
def unclosed (cause : Cause) (opening : Span) (cursor : Cursor) : LexicalError :=
  { cause, span := opening, line := cursor.toEnd.line }

/-- The error as it is printed: the message and an excerpt of the source. -/
def render (source : Source) (error : LexicalError) : Text :=
  errorMessage error.cause.message.toList ++ ['\n'] ++
    Excerpt.render source error.span (error.cause.help.map String.toList)

end LexicalError

end HackLexer
