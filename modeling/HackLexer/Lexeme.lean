import HackLexer.Cursor
import HackLexer.Token

/-!
# Lexemes

A lexeme is a token whose ends are still cursors, so that a longer token can be
made to start where it starts.
-/

namespace HackLexer

/-- A token between two cursors. -/
structure Lexeme where
  kind : TokenKind
  start : Cursor
  stop : Cursor
  literal : Option Text
  deriving DecidableEq, Repr

namespace Lexeme

/-- The part of the source that a lexeme covers. -/
def span (lexeme : Lexeme) : Span :=
  lexeme.start.spanTo lexeme.stop

/-- The characters of a lexeme as they stand in the source. -/
def raw (lexeme : Lexeme) : Text :=
  lexeme.span.text

def token (lexeme : Lexeme) : Token :=
  { kind := lexeme.kind
    span := lexeme.span
    line := lexeme.start.line
    literal := lexeme.literal }

end Lexeme

/-- The lexeme of the next characters, without a decoded value. -/
def Cursor.lexeme (cursor : Cursor) (kind : TokenKind) (count : Nat) : Lexeme :=
  { kind, start := cursor, stop := cursor.advance count, literal := none }

end HackLexer
