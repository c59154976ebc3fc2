import HackLexer.StringLiteral.Body

/-!
# Double-quoted strings

Between double quotes a backslash and a code of the escape table stand for one
character; before any other character the backslash is kept.  An unescaped brace
opens an interpolation.
-/

namespace HackLexer

namespace DoubleQuoted

/-- The escape table: the character that a code behind a backslash stands
for. -/
def escapeValue? : Char → Option Char
  | 'n' => some '\n'
  | 'r' => some '\r'
  | 't' => some '\t'
  | 'v' => some '\x0b'
  | 'e' => some '\x1b'
  | 'f' => some '\x0c'
  | '\\' => some '\\'
  | '$' => some '$'
  | '"' => some '"'
  | _ => none

/-- The value of a backslash and the code behind it. -/
def unescape (code : Char) : Text :=
  match escapeValue? code with
  | some character => [character]
  | none => ['\\', code]

/-- Reads a body up to the closing quote, an interpolation or the end. -/
def body : Text → Body
  | [] => { value := [], length := 0, ending := .endOfText }
  | '"' :: _ => { value := [], length := 1, ending := .closed }
  | '\x7b' :: _ => { value := [], length := 1, ending := .interpolation }
  | '\\' :: code :: rest => (body rest).prepend (unescape code) 2
  | ['\\'] => { value := [], length := 1, ending := .endOfText }
  | character :: rest => (body rest).prepend [character] 1

theorem body_progress {text : Text} (stopped : (body text).ending ≠ .endOfText) :
    text ≠ [] ∧ 0 < (body text).length := by
  unfold body at stopped ⊢
  split <;> simp_all [Body.length_prepend_pos]

end DoubleQuoted

end HackLexer
