import HackLexer.Lexeme.Character
import HackLexer.LexicalError
import HackLexer.StringLiteral.Body

/-!
# Doc strings

A doc string opens with `<<<`, a label and a line break, and is closed by the
first line that starts with the label and does not go on with a letter, digit
or underscore.  A quoted label makes it a nowdoc, whose body is taken as it is;
otherwise it is a heredoc, with interpolations and with backslashes that protect
the next character but are kept.
-/

namespace HackLexer

/-- The label of a doc string. -/
structure Label where
  first : Char
  more : Text
  deriving DecidableEq, Repr

namespace Label

/-- A character of a label behind its first one. -/
def isPart (character : Char) : Bool :=
  character.isUpper || character.isDigit || character == '_'

def text (label : Label) : Text :=
  label.first :: label.more

def length (label : Label) : Nat :=
  label.text.length

/-- The label at the front of a text: an upper-case letter and at least one
upper-case letter, digit or underscore behind it. -/
def ofText? : Text → Option Label
  | [] => none
  | first :: rest =>
      let more := rest.takeWhile isPart
      if first.isUpper && !more.isEmpty then some { first, more } else none

/-- Whether a line that starts like the given text closes the doc string. -/
def closes (label : Label) (line : Text) : Bool :=
  label.text.isPrefixOf line && !(line.drop label.length).head?.any isAlphanumeric

theorem length_pos (label : Label) : 0 < label.length := by
  simp [length, text]

theorem closes_nil (label : Label) : label.closes [] = false := by
  simp [closes, text]

end Label

namespace DocString

/-- The first line of a doc string. -/
structure Header where
  form : DocString
  label : Label
  /-- Number of characters of the line break. -/
  lineBreak : Nat
  deriving DecidableEq, Repr

/-- Number of characters of a header up to its line break. -/
def Header.length (header : Header) : Nat :=
  match header.form with
  | .heredoc => 3 + header.label.length
  | .nowdoc => 5 + header.label.length

theorem Header.length_pos (header : Header) : 0 < header.length := by
  unfold Header.length
  split <;> omega

def lineBreak? : Text → Option Nat
  | '\n' :: _ => some 1
  | '\r' :: '\n' :: _ => some 2
  | _ => none

/-- The header whose `<<<` stands in front of the given text. -/
def header? (behind : Text) : Option Header :=
  match behind with
  | '\'' :: quoted =>
      match Label.ofText? quoted with
      | none => none
      | some label =>
          match quoted.drop label.length with
          | '\'' :: rest =>
              (lineBreak? rest).map fun lineBreak => { form := .nowdoc, label, lineBreak }
          | _ => none
  | _ =>
      match Label.ofText? behind with
      | none => none
      | some label =>
          (lineBreak? (behind.drop label.length)).map fun lineBreak =>
            { form := .heredoc, label, lineBreak }

/-- The body of a nowdoc in front of the label that closes it. -/
def nowdocBody (label : Label) (atLineStart : Bool) (text : Text) : Option Text :=
  if atLineStart && label.closes text then
    some []
  else
    match text with
    | [] => none
    | character :: rest =>
        (nowdocBody label (character == '\n') rest).map (character :: ·)

/-- Reads the body of a heredoc up to the label that closes it, an
interpolation or the end.  A line feed behind a backslash starts no line. -/
def heredocBody (label : Label) (atLineStart : Bool) (text : Text) : Body :=
  if atLineStart && label.closes text then
    { value := [], length := label.length, ending := .closed }
  else
    match text with
    | [] => { value := [], length := 0, ending := .endOfText }
    | '\x7b' :: _ => { value := [], length := 1, ending := .interpolation }
    | '\\' :: code :: rest => (heredocBody label false rest).prepend ['\\', code] 2
    | ['\\'] => { value := [], length := 1, ending := .endOfText }
    | character :: rest =>
        (heredocBody label (character == '\n') rest).prepend [character] 1

theorem heredocBody_progress {label : Label} {atLineStart : Bool} {text : Text}
    (stopped : (heredocBody label atLineStart text).ending ≠ .endOfText) :
    text ≠ [] ∧ 0 < (heredocBody label atLineStart text).length := by
  unfold heredocBody at stopped ⊢
  split
  · rename_i closing
    refine ⟨?_, label.length_pos⟩
    intro empty
    simp [empty, label.closes_nil] at closing
  · split <;> simp_all [Body.length_prepend_pos]

end DocString

end HackLexer
