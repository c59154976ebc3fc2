import HackLexer.Lexeme.Character

/-!
# Names of markup elements

An element opens with `<`, an optional `%`, and a name.  The name starts with a
letter and goes on with letters, digits and hyphens; a colon belongs to it only
together with the letter or hyphen behind it.
-/

namespace HackLexer

namespace MarkupName

/-- Length of what continues a name at the front of a text. -/
def tail : Text → Nat
  | [] => 0
  | ':' :: next :: rest => if isLetter next || next == '-' then 2 + tail rest else 0
  | first :: rest => if isAlphanumeric first || first == '-' then 1 + tail rest else 0

/-- Length of the name at the front of a text, zero if there is none. -/
def name : Text → Nat
  | first :: rest => if isLetter first then 1 + tail rest else 0
  | [] => 0

end MarkupName

/-- Length of the `<` and the element name at the front of a text. -/
def markupName? : Text → Option Nat
  | '<' :: '%' :: rest =>
      match MarkupName.name rest with
      | 0 => none
      | count + 1 => some (2 + (count + 1))
  | '<' :: rest =>
      match MarkupName.name rest with
      | 0 => none
      | count + 1 => some (1 + (count + 1))
  | _ => none

theorem markupName?_positive {text : Text} {count : Nat}
    (found : markupName? text = some count) : 0 < count := by
  unfold markupName? at found
  split at found
  · split at found <;> simp at found
    omega
  · split at found <;> simp at found
    omega
  · simp at found

end HackLexer
