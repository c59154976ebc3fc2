import HackLexer.Text

/-!
# Bodies of strings

Reading the body of a string gives its decoded value, the number of characters
read, and how the reading ended.
-/

namespace HackLexer

/-- How the reading of a body ended. -/
inductive Ending where
  /-- The string is closed. -/
  | closed
  /-- A brace opens an interpolation. -/
  | interpolation
  /-- The text ends inside the string. -/
  | endOfText
  deriving DecidableEq, Repr

/-- A body, read from some place up to its end or its next interpolation. -/
structure Body where
  value : Text
  /-- Number of characters read, what ends the body included. -/
  length : Nat
  ending : Ending
  deriving DecidableEq, Repr

/-- Puts a value that was read from the given number of characters in front. -/
def Body.prepend (value : Text) (count : Nat) (body : Body) : Body :=
  { value := value ++ body.value, length := count + body.length, ending := body.ending }

@[simp]
theorem Body.ending_prepend (value : Text) (count : Nat) (body : Body) :
    (body.prepend value count).ending = body.ending := rfl

theorem Body.length_prepend_pos (value : Text) {count : Nat} (body : Body)
    (positive : 0 < count) : 0 < (body.prepend value count).length :=
  Nat.add_pos_left positive body.length

end HackLexer
