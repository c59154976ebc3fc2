import HackLexer.Lexeme.Character
import HackLexer.Token.Kind

/-!
# Words and variables

A word is made of atoms that backslashes separate; it may start with
backslashes and never ends with one.  An atom that starts with a lower-case
letter may contain hyphens, but does not end with one.  A word that spells a
keyword is that keyword.
-/

namespace HackLexer

namespace Word

/-- A character inside a hyphenated atom. -/
def isHyphenated (character : Char) : Bool :=
  isAlphanumeric character || character == '-'

/-- Length of the atom at the front of a text, zero if there is none. -/
def atom : Text → Nat
  | [] => 0
  | first :: rest =>
      if first.isLower then
        1 + (Text.trimEnd (· == '-') (rest.takeWhile isHyphenated)).length
      else if isLetter first then
        1 + Text.countWhile isAlphanumeric rest
      else
        0

/-- Length of the backslashes at the front of a text. -/
def separators (text : Text) : Nat :=
  Text.countWhile (· == '\\') text

@[simp]
theorem atom_nil : atom [] = 0 := rfl

theorem length_pos_of_atom {text : Text} {count : Nat}
    (found : atom (text.drop (separators text)) = count + 1) : 0 < text.length := by
  cases text with
  | nil => simp at found
  | cons first rest => simp

/-- Length of the word at the front of a text, zero if there is none. -/
def length (text : Text) : Nat :=
  match _found : atom (text.drop (separators text)) with
  | 0 => 0
  | count + 1 =>
      separators text + (count + 1) + length (text.drop (separators text + (count + 1)))
termination_by text.length
decreasing_by
  have nonempty := length_pos_of_atom _found
  simp
  omega

end Word

/-- The word or keyword at the front of a text: its kind and its length. -/
def word? (text : Text) : Option (TokenKind × Nat) :=
  match Word.length text with
  | 0 => none
  | count + 1 =>
      match Keyword.ofSpelling? (text.take (count + 1)) with
      | some keyword => some (.keyword keyword, count + 1)
      | none => some (.word, count + 1)

theorem word?_positive {text : Text} {kind : TokenKind} {count : Nat}
    (found : word? text = some (kind, count)) : 0 < count := by
  unfold word? at found
  split at found
  · simp at found
  · split at found <;> simp only [Option.some.injEq, Prod.mk.injEq] at found <;> omega

/-- The variable at the front of a text; a dollar sign without a name is a token
of its own. -/
def dollar? : Text → Option (TokenKind × Nat)
  | '$' :: rest =>
      match rest with
      | [] => some (.dollar, 1)
      | first :: rest =>
          if isLetter first then
            some (.lvar, 2 + Text.countWhile isAlphanumeric rest)
          else
            some (.dollar, 1)
  | _ => none

theorem dollar?_positive {text : Text} {kind : TokenKind} {count : Nat}
    (found : dollar? text = some (kind, count)) : 0 < count := by
  unfold dollar? at found
  split at found
  · split at found
    · simp only [Option.some.injEq, Prod.mk.injEq] at found
      omega
    · split at found <;> simp only [Option.some.injEq, Prod.mk.injEq] at found <;> omega
  · simp at found

end HackLexer
