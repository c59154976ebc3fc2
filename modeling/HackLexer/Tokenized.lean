import HackLexer.Lexer.Next

/-!
# Tokenized sources

The outcome of lexing a whole source file: all its tokens and comments, or the
error at which lexing failed.
-/

namespace HackLexer

/-- The tokens and comments of a source file, both in order. -/
structure Tokenized where
  tokens : List Token
  comments : List Comment
  deriving DecidableEq, Repr

/-- Lexes a whole text. -/
def tokenize (text : Text) : Except LexicalError Tokenized :=
  match (Lexer.ofText text).drain with
  | .error error => .error error
  | .ok (tokens, lexer) => .ok { tokens, comments := lexer.comments.toList }

end HackLexer
