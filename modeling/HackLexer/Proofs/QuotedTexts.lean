import HackLexer.Text
import HackLexer.Text.Quoted

/-!
# Quoted texts

However many characters are hidden, a quoted text holds no tab and no line feed,
and it can be read back: the escape of a character is no front of another one
and starts with no double quote, so what stands between the quotes falls into
escapes in one way only.

The same is shown of the digits of a number, which stand in escapes and beside
quoted texts.
-/

namespace HackLexer

namespace Text

section Digits

variable {base : Nat}

theorem digitChar_injective {left right : Nat} (leftLow : left < 16) (rightLow : right < 16)
    (same : left.digitChar = right.digitChar) : left = right := by
  have table : ∀ left < 16, ∀ right < 16, left.digitChar = right.digitChar → left = right := by
    decide
  exact table left leftLow right rightLow same

theorem digitChar_mem {digit : Nat} (low : digit < 16) :
    digit.digitChar ∈ "0123456789abcdef".toList := by
  have table : ∀ digit < 16, digit.digitChar ∈ "0123456789abcdef".toList := by decide
  exact table digit low

theorem mem_of_mem_toDigits (two : 1 < base) (sixteen : base ≤ 16) (number : Nat) :
    ∀ digit ∈ Nat.toDigits base number, digit ∈ "0123456789abcdef".toList := by
  induction number using Nat.strongRecOn with
  | ind number ih =>
      intro digit member
      rw [Nat.toDigits_eq_if two] at member
      split at member
      · rename_i low
        cases List.mem_singleton.mp member
        exact digitChar_mem (by omega)
      · rename_i high
        have rest := Nat.mod_lt number (Nat.lt_trans Nat.zero_lt_one two)
        rcases List.mem_append.mp member with earlier | last
        · exact ih (number / base) (Nat.div_lt_self (by omega) two) digit earlier
        · cases List.mem_singleton.mp last
          exact digitChar_mem (by omega)

theorem not_mem_toDigits {character : Char} (two : 1 < base) (sixteen : base ≤ 16)
    (number : Nat) (other : character ∉ "0123456789abcdef".toList) :
    character ∉ Nat.toDigits base number :=
  fun member => other (mem_of_mem_toDigits two sixteen number character member)

theorem two_le_length_toDigits (two : 1 < base) {number : Nat} (high : base ≤ number) :
    2 ≤ (Nat.toDigits base number).length := by
  have digits := Nat.length_toDigits_pos (b := base) (n := number / base)
  rw [Nat.toDigits_of_base_le two high, List.length_append, List.length_singleton]
  omega

/-- A number can be read off its digits. -/
theorem toDigits_injective (two : 1 < base) (sixteen : base ≤ 16) {left right : Nat}
    (same : Nat.toDigits base left = Nat.toDigits base right) : left = right := by
  induction left using Nat.strongRecOn generalizing right with
  | ind left ih =>
      rcases Nat.lt_or_ge left base with leftLow | leftHigh <;>
        rcases Nat.lt_or_ge right base with rightLow | rightHigh
      · rw [Nat.toDigits_of_lt_base leftLow, Nat.toDigits_of_lt_base rightLow] at same
        exact digitChar_injective (by omega) (by omega) (List.singleton_inj.mp same)
      · have several := two_le_length_toDigits two rightHigh
        rw [← same, Nat.toDigits_of_lt_base leftLow, List.length_singleton] at several
        omega
      · have several := two_le_length_toDigits two leftHigh
        rw [same, Nat.toDigits_of_lt_base rightLow, List.length_singleton] at several
        omega
      · rw [Nat.toDigits_of_base_le two leftHigh, Nat.toDigits_of_base_le two rightHigh] at same
        obtain ⟨front, last⟩ := List.append_inj' same rfl
        have quotients := ih (left / base) (Nat.div_lt_self (by omega) two) front
        have leftRest := Nat.mod_lt left (Nat.zero_lt_of_lt two)
        have rightRest := Nat.mod_lt right (Nat.zero_lt_of_lt two)
        have rests := digitChar_injective (by omega) (by omega) (List.singleton_inj.mp last)
        rw [← Nat.div_add_mod left base, ← Nat.div_add_mod right base, quotients, rests]

end Digits

/-- Two texts that end at their first occurrence of the same character are the
same if they continue to the same text. -/
theorem append_cons_inj_of_not_mem {character : Char} {left right leftRest rightRest : Text}
    (leftFree : character ∉ left) (rightFree : character ∉ right)
    (same : left ++ character :: leftRest = right ++ character :: rightRest) :
    left = right ∧ leftRest = rightRest := by
  induction left generalizing right with
  | nil =>
      cases right with
      | nil => exact ⟨rfl, (List.cons.inj same).2⟩
      | cons first right =>
          exact absurd ((List.cons.inj same).1 ▸ List.mem_cons_self) rightFree
  | cons first left ih =>
      cases right with
      | nil => exact absurd ((List.cons.inj same).1 ▸ List.mem_cons_self) leftFree
      | cons second right =>
          obtain ⟨rfl, behind⟩ := List.cons.inj same
          obtain ⟨rfl, rests⟩ := ih (fun member => leftFree (List.mem_cons_of_mem _ member))
            (fun member => rightFree (List.mem_cons_of_mem _ member)) behind
          exact ⟨rfl, rests⟩

/-- The characters that have an escape of their own, with what stands behind its
backslash. -/
def shortEscapes : List (Char × Char) :=
  [('\x00', '0'), ('\t', 't'), ('\r', 'r'), ('\n', 'n'), ('"', '"'), ('\\', '\\')]

/-- The letter of a short escape tells its character, and none of them is that of
an escaped code point. -/
theorem shortEscapes_letters :
    (∀ left ∈ shortEscapes, ∀ right ∈ shortEscapes, left.2 = right.2 → left = right) ∧
    ∀ entry ∈ shortEscapes, entry.2 ∉ ['u', '\t', '\n'] := by
  decide

/-- The three forms of escapes. -/
inductive Escape (hidden : Char → Bool) (character : Char) : Text → Prop where
  | short {letter : Char} (listed : (character, letter) ∈ shortEscapes) :
      Escape hidden character ['\\', letter]
  | point (isHidden : hidden character = true) :
      Escape hidden character
        ('\\' :: 'u' :: '\x7b' :: (Nat.toDigits 16 character.toNat ++ ['\x7d']))
  | plain (unlisted : character ∉ shortEscapes.map Prod.fst) :
      Escape hidden character [character]

section

variable {hidden : Char → Bool}

theorem escape_escapeHiding (hidden : Char → Bool) (character : Char) :
    Escape hidden character (escapeHiding hidden character) := by
  unfold escapeHiding
  by_cases listed : character ∈ shortEscapes.map Prod.fst
  · simp only [shortEscapes, List.map_cons, List.map_nil, List.mem_cons, List.not_mem_nil,
      or_false] at listed
    rcases listed with rfl | rfl | rfl | rfl | rfl | rfl
    all_goals exact .short (by decide)
  · have others := listed
    simp only [shortEscapes, List.map_cons, List.map_nil, List.mem_cons, List.not_mem_nil,
      or_false, not_or] at others
    obtain ⟨null, tab, carriageReturn, lineFeed, quotes, backslash⟩ := others
    rw [if_neg null, if_neg tab, if_neg carriageReturn, if_neg lineFeed, if_neg quotes,
      if_neg backslash]
    split
    · exact .point ‹_›
    · exact .plain listed

/-- No escape holds a tab or a line feed. -/
theorem Escape.not_mem {character : Char} {escaped : Text}
    (escape : Escape hidden character escaped) {separator : Char}
    (separates : separator = '\t' ∨ separator = '\n') : separator ∉ escaped := by
  have noSign : separator ∉ ['\\', 'u', '\x7b', '\x7d'] := by
    rcases separates with rfl | rfl <;> decide
  have noDigit : separator ∉ "0123456789abcdef".toList := by
    rcases separates with rfl | rfl <;> decide
  have listedSeparator : separator ∈ shortEscapes.map Prod.fst := by
    rcases separates with rfl | rfl <;> decide
  simp only [List.mem_cons, List.not_mem_nil, or_false, not_or] at noSign
  cases escape with
  | @short letter listed =>
      have noLetter : separator ≠ letter := by
        rintro rfl
        exact shortEscapes_letters.2 _ listed (List.mem_cons_of_mem _ (by simpa using separates))
      simp [noSign, noLetter]
  | point isHidden =>
      have digits : separator ∉ Nat.toDigits 16 character.toNat :=
        not_mem_toDigits (by decide) (by decide) character.toNat noDigit
      simp [noSign, digits]
  | plain unlisted =>
      intro member
      cases List.mem_singleton.mp member
      exact unlisted listedSeparator

/-- No escape starts with the quote that ends a quoted text. -/
theorem Escape.append_ne {character : Char} {escaped : Text}
    (escape : Escape hidden character escaped) (rest other : Text) :
    escaped ++ rest ≠ '"' :: other := by
  intro same
  cases escape with
  | short listed => exact absurd (List.cons.inj same).1 (by decide)
  | point isHidden => exact absurd (List.cons.inj same).1 (by decide)
  | plain unlisted =>
      apply unlisted
      rw [(List.cons.inj same).1]
      decide

theorem Escape.of_backslash {character : Char} {escaped rest other : Text}
    (escape : Escape hidden character escaped) (same : escaped ++ rest = '\\' :: other) :
    (∃ letter, (character, letter) ∈ shortEscapes ∧ other = letter :: rest) ∨
    other = 'u' :: '\x7b' :: (Nat.toDigits 16 character.toNat ++ '\x7d' :: rest) := by
  cases escape with
  | @short letter listed => exact .inl ⟨letter, listed, (List.cons.inj same).2.symm⟩
  | point isHidden =>
      refine .inr ?_
      rw [← (List.cons.inj same).2]
      simp
  | plain unlisted =>
      refine absurd ?_ unlisted
      rw [(List.cons.inj same).1]
      decide

/-- The escape at the front of a text is read in one way. -/
theorem Escape.cancel {left right : Char} {leftEscaped rightEscaped leftRest rightRest : Text}
    (leftEscape : Escape hidden left leftEscaped) (rightEscape : Escape hidden right rightEscaped)
    (same : leftEscaped ++ leftRest = rightEscaped ++ rightRest) :
    left = right ∧ leftRest = rightRest := by
  have backslash : '\\' ∈ shortEscapes.map Prod.fst := by decide
  cases leftEscape with
  | short leftListed =>
      rcases rightEscape.of_backslash same.symm with ⟨letter, rightListed, behind⟩ | behind
      · obtain ⟨rfl, rests⟩ := List.cons.inj behind
        have entries := shortEscapes_letters.1 _ leftListed _ rightListed rfl
        exact ⟨congrArg Prod.fst entries, rests⟩
      · have other := shortEscapes_letters.2 _ leftListed
        exact absurd ((List.cons.inj behind).1 ▸ List.mem_cons_self) other
  | point leftHidden =>
      rcases rightEscape.of_backslash same.symm with ⟨letter, rightListed, behind⟩ | behind
      · have other := shortEscapes_letters.2 _ rightListed
        exact absurd ((List.cons.inj behind).1 ▸ List.mem_cons_self) other
      · have digits := (List.cons.inj (List.cons.inj behind).2).2
        rw [List.append_eq, List.append_assoc] at digits
        have closing : '\x7d' ∉ "0123456789abcdef".toList := by decide
        obtain ⟨numbers, rests⟩ := append_cons_inj_of_not_mem
          (not_mem_toDigits (by decide) (by decide) _ closing)
          (not_mem_toDigits (by decide) (by decide) _ closing) digits
        exact ⟨Char.toNat_inj.mp (toDigits_injective (by decide) (by decide) numbers), rests⟩
  | plain leftUnlisted =>
      cases rightEscape with
      | short rightListed => exact absurd ((List.cons.inj same).1 ▸ backslash) leftUnlisted
      | point rightHidden => exact absurd ((List.cons.inj same).1 ▸ backslash) leftUnlisted
      | plain rightUnlisted => exact List.cons.inj same

/-- What stands between the quotes falls into escapes in one way. -/
theorem escaped_cancel {left right leftRest rightRest : Text}
    (same : left.flatMap (escapeHiding hidden) ++ '"' :: leftRest =
      right.flatMap (escapeHiding hidden) ++ '"' :: rightRest) :
    left = right ∧ leftRest = rightRest := by
  induction left generalizing right with
  | nil =>
      cases right with
      | nil => exact ⟨rfl, (List.cons.inj same).2⟩
      | cons second right =>
          rw [List.flatMap_cons, List.append_assoc] at same
          exact absurd same.symm ((escape_escapeHiding hidden second).append_ne _ _)
  | cons first left ih =>
      rw [List.flatMap_cons, List.append_assoc] at same
      cases right with
      | nil => exact absurd same ((escape_escapeHiding hidden first).append_ne _ _)
      | cons second right =>
          rw [List.flatMap_cons, List.append_assoc] at same
          obtain ⟨rfl, behind⟩ := (escape_escapeHiding hidden first).cancel
            (escape_escapeHiding hidden second) same
          obtain ⟨rfl, rests⟩ := ih behind
          exact ⟨rfl, rests⟩

/-- A quoted text stands for one text only. -/
theorem quoteHiding_inj {left right : Text} :
    quoteHiding hidden left = quoteHiding hidden right ↔ left = right := by
  refine ⟨fun same => ?_, fun same => same ▸ rfl⟩
  unfold quoteHiding at same
  rw [List.append_assoc, List.append_assoc] at same
  exact (escaped_cancel (List.append_cancel_left same)).1

/-- A quoted text stays on its line and in its field. -/
theorem not_mem_quoteHiding (text : Text) {separator : Char}
    (separates : separator = '\t' ∨ separator = '\n') : separator ∉ quoteHiding hidden text := by
  have quote : separator ∉ ['"'] := by
    rcases separates with rfl | rfl <;> decide
  unfold quoteHiding
  simp only [List.mem_append, List.mem_flatMap, not_or]
  refine ⟨⟨quote, ?_⟩, quote⟩
  rintro ⟨character, _, member⟩
  exact (escape_escapeHiding hidden character).not_mem separates member

end

end Text

end HackLexer
