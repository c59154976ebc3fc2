import HackLexer.Lexeme.Character
import HackLexer.Token.Kind

/-!
# Numbers

Integers are hexadecimal, binary, octal or decimal; floats have a point, an
exponent or both.  Both readings are tried and the longer one is taken.
-/

namespace HackLexer

namespace Number

/-- Length of the decimal digits at the front of a text. -/
def digits (text : Text) : Nat :=
  Text.countWhile Char.isDigit text

/-- Length of the sign at the front of a text, if there is one. -/
def sign : Text → Nat
  | '+' :: _ => 1
  | '-' :: _ => 1
  | _ => 0

/-- Length of the exponent at the front of a text; it needs a digit. -/
def exponent : Text → Nat
  | [] => 0
  | mark :: rest =>
      if mark == 'e' || mark == 'E' then
        match digits (rest.drop (sign rest)) with
        | 0 => 0
        | count + 1 => 1 + sign rest + (count + 1)
      else
        0

/-- Length of the integer at the front of a text, zero if there is none.  A
radix mark without a digit behind it ends the number at its zero. -/
def integer (text : Text) : Nat :=
  match text with
  | '0' :: 'x' :: rest =>
      match Text.countWhile isHexDigit rest with
      | 0 => 1
      | count + 1 => 2 + (count + 1)
  | '0' :: 'b' :: rest =>
      match Text.countWhile isBinaryDigit rest with
      | 0 => 1
      | count + 1 => 2 + (count + 1)
  | '0' :: rest => 1 + Text.countWhile isOctalDigit rest
  | _ => digits text

/-- Length of the point at the front of a text and the digits behind it; a
point that no digit precedes needs a digit behind it. -/
def fraction (whole : Nat) : Text → Nat
  | '.' :: rest => if 0 < whole ∨ 0 < digits rest then 1 + digits rest else 0
  | _ => 0

/-- Length of the float at the front of a text, zero if there is none. -/
def float (text : Text) : Nat :=
  let whole := digits text
  let point := fraction whole (text.drop whole)
  if whole + point = 0 then
    0
  else
    match exponent (text.drop (whole + point)) with
    | 0 => if point = 0 then 0 else whole + point
    | count + 1 => whole + point + (count + 1)

end Number

/-- The number at the front of a text: its kind and its length.  An integer
wins a tie. -/
def number? (text : Text) : Option (TokenKind × Nat) :=
  if Number.integer text < Number.float text then
    some (.float, Number.float text)
  else if 0 < Number.integer text then
    some (.int, Number.integer text)
  else
    none

theorem number?_positive {text : Text} {kind : TokenKind} {count : Nat}
    (found : number? text = some (kind, count)) : 0 < count := by
  unfold number? at found
  split at found
  · simp only [Option.some.injEq, Prod.mk.injEq] at found
    omega
  · split at found
    · simp only [Option.some.injEq, Prod.mk.injEq] at found
      omega
    · simp at found

end HackLexer
