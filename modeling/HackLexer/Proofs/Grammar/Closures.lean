import HackLexer.Proofs.Grammar.Matchers

/-!
# Languages closed under appending

A language that is closed under appending holds all numbers as soon as it holds
digits, letters and what stands between them, and the same goes for words and
names.  So a property that appending keeps, such as being free of a character, is
shown of all tokens of a kind by looking at the characters that they are made of.
-/

namespace HackLexer

open scoped Computability

namespace Grammar

theorem oneOf_mono {narrow wide : Char → Bool}
    (inside : ∀ character, narrow character → wide character) : oneOf narrow ≤ oneOf wide := by
  rintro _ ⟨character, passes, rfl⟩
  exact ⟨character, inside character passes, rfl⟩

theorem isAlphanumeric_of_isDigit {character : Char} (digit : character.isDigit) :
    isAlphanumeric character :=
  Bool.or_eq_true_iff.mpr (.inl digit)

theorem isAlphanumeric_of_isHexDigit {character : Char} (digit : isHexDigit character) :
    isAlphanumeric character := by
  simp only [isHexDigit, Bool.or_eq_true, Bool.and_eq_true, decide_eq_true_eq] at digit
  rcases digit with (digit | lower) | upper
  · exact isAlphanumeric_of_isDigit digit
  · have letter : character.isLower :=
      Bool.and_eq_true_iff.mpr ⟨decide_eq_true lower.1,
        decide_eq_true (Char.le_trans lower.2 (by decide : 'f' ≤ 'z'))⟩
    exact Bool.or_eq_true_iff.mpr (.inr (isLetter_of_isLower letter))
  · have letter : character.isUpper :=
      decide_eq_true ⟨upper.1, Char.le_trans upper.2 (by decide : 'F' ≤ 'Z')⟩
    exact Bool.or_eq_true_iff.mpr (.inr (isLetter_of_isUpper letter))

theorem isAlphanumeric_of_isBinaryDigit {character : Char} (digit : isBinaryDigit character) :
    isAlphanumeric character := by
  simp only [isBinaryDigit, Bool.or_eq_true, beq_iff_eq] at digit
  rcases digit with rfl | rfl
  · decide
  · decide

theorem isAlphanumeric_of_isOctalDigit {character : Char} (digit : isOctalDigit character) :
    isAlphanumeric character := by
  simp only [isOctalDigit, Bool.and_eq_true, decide_eq_true_eq] at digit
  exact isAlphanumeric_of_isDigit (Bool.and_eq_true_iff.mpr ⟨decide_eq_true digit.1,
    decide_eq_true (Char.le_trans digit.2 (by decide : '7' ≤ '9'))⟩)

/-- A language that holds the empty text and, with two texts, the one behind the
other. -/
structure Closed (whole : Language Char) : Prop where
  nothing : 1 ≤ whole
  joined : whole * whole ≤ whole

namespace Closed

theorem star (language : Language Char) : Closed language∗ where
  nothing := one_le_kstar
  joined := (kstar_mul_kstar language).le

variable {whole first second : Language Char} (closed : Closed whole)

include closed

theorem mul_le (left : first ≤ whole) (right : second ≤ whole) : first * second ≤ whole := by
  calc
    first * second ≤ whole * whole := mul_le_mul' left right
    _ ≤ whole := closed.joined

theorem star_le (each : first ≤ whole) : first∗ ≤ whole :=
  kstar_le_of_mul_le_left closed.nothing (closed.mul_le le_rfl each)

theorem oneOrMore_le (each : first ≤ whole) : oneOrMore first ≤ whole :=
  closed.mul_le each (closed.star_le each)

theorem optional_le (inside : first ≤ whole) : 1 + first ≤ whole :=
  add_le closed.nothing inside

/-- The radix marks are made of a digit and a letter. -/
theorem int_le (alphanumeric : oneOf isAlphanumeric ≤ whole) : int ≤ whole := by
  have part {test : Char → Bool}
      (inside : ∀ character, test character → isAlphanumeric character) : oneOf test ≤ whole :=
    (oneOf_mono inside).trans alphanumeric
  have spelled {text : String} (inside : text.toList.all isAlphanumeric) :
      spelling text ≤ whole := by
    rintro _ rfl
    exact closed.star_le alphanumeric (mem_star_oneOf.mpr (List.all_eq_true.mp inside))
  have digits : oneOf Char.isDigit ≤ whole := part fun _ => isAlphanumeric_of_isDigit
  have positive : oneOf isPositiveDigit ≤ oneOf Char.isDigit :=
    oneOf_mono fun _ passes => (Bool.and_eq_true_iff.mp passes).1
  have hexadecimal := closed.oneOrMore_le (part fun _ => isAlphanumeric_of_isHexDigit)
  have binary := closed.oneOrMore_le (part fun _ => isAlphanumeric_of_isBinaryDigit)
  have octal := closed.star_le (part fun _ => isAlphanumeric_of_isOctalDigit)
  unfold int
  refine add_le (add_le (add_le ?_ ?_) ?_) ?_
  · exact closed.mul_le (spelled rfl) hexadecimal
  · exact closed.mul_le (spelled rfl) binary
  · exact closed.mul_le (spelled rfl) octal
  · exact closed.mul_le (positive.trans digits) (closed.star_le digits)

theorem float_le (digits : digit ≤ whole) (point : spelling "." ≤ whole)
    (power : exponent ≤ whole) : float ≤ whole := by
  have several := closed.oneOrMore_le digits
  have optional := closed.optional_le power
  unfold float
  refine add_le (add_le ?_ ?_) ?_
  · exact closed.mul_le (closed.mul_le (closed.mul_le several point) (closed.star_le digits))
      optional
  · exact closed.mul_le (closed.mul_le point several) optional
  · exact closed.mul_le several power

theorem word_le (separator : backslash ≤ whole) (inside : atom ≤ whole) : word ≤ whole := by
  refine closed.mul_le (closed.mul_le (closed.star_le separator) inside) ?_
  exact closed.star_le (closed.mul_le (closed.oneOrMore_le separator) inside)

theorem markupName_le (percent : spelling "%" ≤ whole) (alphanumeric : oneOf isAlphanumeric ≤ whole)
    (hyphen : spelling "-" ≤ whole) (colon : spelling ":" ≤ whole) : markupName ≤ whole := by
  have letters : oneOf isLetter ≤ whole :=
    (oneOf_mono fun _ letter => Bool.or_eq_true_iff.mpr (.inr letter)).trans alphanumeric
  refine closed.mul_le (closed.mul_le (closed.optional_le percent) letters) (closed.star_le ?_)
  exact add_le (add_le alphanumeric hyphen) (closed.mul_le colon (add_le letters hyphen))

end Closed

end Grammar

theorem number?_mem_of_le {whole : Language Char} (int : Grammar.int ≤ whole)
    (float : Grammar.float ≤ whole) {text : Text} {found : TokenKind × Nat}
    (result : number? text = some found) : text.take found.2 ∈ whole := by
  unfold number? at result
  split at result
  · cases result
    exact float (Number.float_mem (by omega))
  · split at result
    · rename_i positive
      cases result
      exact int (Number.integer_mem positive)
    · cases result

theorem word?_mem_of_le {whole : Language Char} (word : Grammar.word ≤ whole) {text : Text}
    {found : TokenKind × Nat} (result : word? text = some found) :
    text.take found.2 ∈ whole := by
  unfold word? at result
  split at result
  · cases result
  · rename_i length spelled
    have member := @Word.length_mem text (by omega)
    rw [spelled] at member
    split at result
    · cases result
      exact word member
    · cases result
      exact word member

end HackLexer
