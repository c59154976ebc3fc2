import HackLexer.Source.Span
import HackLexer.Token.Kind

/-!
# Tokens and comments

A token is a span of the source with a kind and the line on which it starts.
Strings and some markup tokens also carry a decoded value.  Comments are kept
apart from the tokens.
-/

namespace HackLexer

/-- One token of a source text. -/
structure Token where
  kind : TokenKind
  span : Span
  /-- The line of the first character, counted from zero. -/
  line : Nat
  /-- The decoded value, if tokens of this kind have one. -/
  literal : Option Text
  deriving DecidableEq, Repr

/-- The decoded value of a token, or its characters in the source if it has
none. -/
def Token.text (token : Token) : Text :=
  token.literal.getD token.span.text

/-- The two forms of comments. -/
inductive CommentKind where
  /-- From `//` or `#` to the end of the line. -/
  | line
  /-- From `/*` to `*/`. -/
  | block
  deriving DecidableEq, Repr

def CommentKind.name : CommentKind → String
  | .line => "Line"
  | .block => "Block"

/-- A part of the source that no token covers.  The span of a line comment
includes the line feed that ends it, if there is one. -/
structure Comment where
  kind : CommentKind
  span : Span
  deriving DecidableEq, Repr

/-- The characters of a comment; the line feed that ends a line comment is left
out. -/
def Comment.text (comment : Comment) : Text :=
  match comment.kind with
  | .line => if comment.span.text.getLast? = some '\n' then comment.span.text.dropLast
      else comment.span.text
  | .block => comment.span.text

end HackLexer
