import HackLexer.Text

/-!
# Classes of characters

All classes are subsets of ASCII; a character outside it belongs to none.
-/

namespace HackLexer

/-- A letter or an underscore. -/
def isLetter (character : Char) : Bool :=
  character.isAlpha || character == '_'

theorem isLetter_of_isAlpha {character : Char} (alpha : character.isAlpha) :
    isLetter character :=
  Bool.or_eq_true_iff.mpr (.inl alpha)

theorem isLetter_of_isUpper {character : Char} (upper : character.isUpper) :
    isLetter character :=
  isLetter_of_isAlpha (Bool.or_eq_true_iff.mpr (.inl upper))

theorem isLetter_of_isLower {character : Char} (lower : character.isLower) :
    isLetter character :=
  isLetter_of_isAlpha (Bool.or_eq_true_iff.mpr (.inr lower))

/-- A letter, an underscore or a digit. -/
def isAlphanumeric (character : Char) : Bool :=
  character.isDigit || isLetter character

/-- Space, tab, carriage return and form feed: layout within a line. -/
def isBlank (character : Char) : Bool :=
  character == ' ' || character == '\t' || character == '\r' || character == '\x0c'

def isHexDigit (character : Char) : Bool :=
  character.isDigit || ('a' ≤ character && character ≤ 'f') ||
    ('A' ≤ character && character ≤ 'F')

def isOctalDigit (character : Char) : Bool :=
  '0' ≤ character && character ≤ '7'

def isBinaryDigit (character : Char) : Bool :=
  character == '0' || character == '1'

end HackLexer
