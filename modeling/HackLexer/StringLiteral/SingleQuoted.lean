import HackLexer.Text

/-!
# Single-quoted strings

Between single quotes only a quote and a backslash can be escaped; a backslash
before any other character stands for itself.
-/

namespace HackLexer

namespace SingleQuoted

/-- The value of the body that follows an opening quote, and its length with
the closing quote. -/
def body : Text → Option (Text × Nat)
  | [] => none
  | '\'' :: _ => some ([], 1)
  | '\\' :: '\'' :: rest => (body rest).map fun read => ('\'' :: read.1, 2 + read.2)
  | '\\' :: '\\' :: rest => (body rest).map fun read => ('\\' :: read.1, 2 + read.2)
  | character :: rest => (body rest).map fun read => (character :: read.1, 1 + read.2)

end SingleQuoted

end HackLexer
