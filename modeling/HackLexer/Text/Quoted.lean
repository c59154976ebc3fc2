import HackLexer.Text.Unprintable

/-!
# Quoted texts

A quoted text stands between double quotes on one line.  NUL, tab, carriage
return and line feed have short escapes, the double quote and the backslash are
written behind a backslash, and every other character that is to be hidden is
written as its code point.  Usually the unprintable characters are hidden.
-/

namespace HackLexer

namespace Text

/-- The escape of one character, given which characters are hidden. -/
def escapeHiding (hidden : Char → Bool) (character : Char) : Text :=
  if character = '\x00' then ['\\', '0']
  else if character = '\t' then ['\\', 't']
  else if character = '\r' then ['\\', 'r']
  else if character = '\n' then ['\\', 'n']
  else if character = '"' then ['\\', '"']
  else if character = '\\' then ['\\', '\\']
  else if hidden character then
    "\\u\x7b".toList ++ Nat.toDigits 16 character.toNat ++ "\x7d".toList
  else
    [character]

/-- A text between double quotes, given which characters are hidden. -/
def quoteHiding (hidden : Char → Bool) (text : Text) : Text :=
  ['"'] ++ text.flatMap (escapeHiding hidden) ++ ['"']

/-- A text between double quotes. -/
def quote (text : Text) : Text :=
  quoteHiding isUnprintable text

end Text

end HackLexer
