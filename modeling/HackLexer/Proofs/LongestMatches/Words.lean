import HackLexer.Proofs.Grammar.Closures
import HackLexer.Proofs.LongestMatches.Numbers

/-!
# Longest words

Greed loses no word: behind an atom of a word stands a backslash or nothing, so the
greedy atom is that atom, and the word goes on behind it as it does in the grammar.
Reading atoms and single backslashes as long as there are some ends at the same place,
but for the backslashes at its end.
-/

namespace HackLexer

open scoped Computability

namespace Grammar

theorem isHyphenated_of_isAlphanumeric {character : Char}
    (alphanumeric : isAlphanumeric character) : Word.isHyphenated character :=
  Bool.or_eq_true_iff.mpr (.inl alphanumeric)

/-- An atom is a letter with letters, digits and hyphens behind it.  None of them is a
hyphen unless the letter is a lower-case one, and the last one never is. -/
theorem exists_of_mem_atom {text : Text} (member : text ∈ atom) :
    ∃ first parts, text = first :: parts ∧ isLetter first ∧
      (∀ character, character ∈ parts → Word.isHyphenated character) ∧
      (∀ last, last ∈ parts.getLast? → (last == '-') = false) ∧
      (first.isLower = false → ∀ character, character ∈ parts → isAlphanumeric character) := by
  have noHyphen {character : Char} (alphanumeric : isAlphanumeric character) :
      (character == '-') = false := by
    rw [beq_eq_false_iff_ne]
    rintro rfl
    cases alphanumeric
  rcases member with plain | hyphenated
  · obtain ⟨_, ⟨first, letter, rfl⟩, parts, alphanumeric, rfl⟩ := plain
    have passes := mem_star_oneOf.mp alphanumeric
    refine ⟨first, parts, rfl, letter, ?_, ?_, fun _ => passes⟩
    · intro character member
      exact isHyphenated_of_isAlphanumeric (passes character member)
    · intro last member
      exact noHyphen (passes last (List.mem_of_getLast? member))
  · obtain ⟨_, ⟨_, ⟨first, lower, rfl⟩, inside, parts, rfl⟩, _, ⟨last, closing, rfl⟩, rfl⟩ :=
      hyphenated
    refine ⟨first, inside ++ [last], by simp, isLetter_of_isLower lower, ?_, ?_, ?_⟩
    · intro character member
      rcases List.mem_append.mp member with earlier | final
      · exact mem_star_oneOf.mp parts character earlier
      · rw [List.mem_singleton.mp final]
        exact isHyphenated_of_isAlphanumeric closing
    · intro final member
      rw [List.getLast?_concat] at member
      cases member
      exact noHyphen closing
    · intro noLower
      rw [lower] at noLower
      cases noLower

theorem nil_notMem_atom : [] ∉ atom := by
  intro member
  obtain ⟨first, parts, empty, _⟩ := exists_of_mem_atom member
  cases empty

theorem nil_notMem_word : [] ∉ word := by
  rintro ⟨_, ⟨front, _, inside, member, rfl⟩, behind, _, empty⟩
  have parts := (List.append_eq_nil_iff.mp empty).1
  rw [(List.append_eq_nil_iff.mp parts).2] at member
  exact nil_notMem_atom member

/-- A word is backslashes and an atom, or a shorter word that an atom makes longer. -/
theorem word_eq : word = backslash∗ * atom + word * oneOrMore backslash * atom := by
  calc
    backslash∗ * atom * (oneOrMore backslash * atom)∗
      = backslash∗ * atom *
          (1 + (oneOrMore backslash * atom)∗ * (oneOrMore backslash * atom)) := by
        rw [one_add_kstar_mul]
    _ = backslash∗ * atom + word * oneOrMore backslash * atom := by
        simp only [word, mul_add, mul_one, mul_assoc]

def endingAlphanumeric : Language Char :=
  anything * oneOf isAlphanumeric

theorem mul_endingAlphanumeric_le (front : Language Char) :
    front * endingAlphanumeric ≤ endingAlphanumeric := by
  calc
    front * (anything * oneOf isAlphanumeric) = front * anything * oneOf isAlphanumeric :=
      (mul_assoc _ _ _).symm
    _ ≤ anything * oneOf isAlphanumeric := mul_le_mul' le_top le_rfl

theorem atom_le_endingAlphanumeric : atom ≤ endingAlphanumeric := by
  have letters : oneOf isLetter ≤ oneOf isAlphanumeric :=
    oneOf_mono fun _ letter => Bool.or_eq_true_iff.mpr (.inr letter)
  refine add_le ?_ ?_
  · calc
      oneOf isLetter * (oneOf isAlphanumeric)∗
        ≤ oneOf isAlphanumeric * (oneOf isAlphanumeric)∗ := mul_le_mul' letters le_rfl
      _ = (oneOf isAlphanumeric)∗ * oneOf isAlphanumeric :=
        (Language.mul_self_kstar_comm _).symm
      _ ≤ anything * oneOf isAlphanumeric := mul_le_mul' le_top le_rfl
  · exact mul_le_mul' le_top le_rfl

theorem word_le_endingAlphanumeric : word ≤ endingAlphanumeric := by
  have ends (front : Language Char) : front * atom ≤ endingAlphanumeric :=
    (mul_le_mul' le_rfl atom_le_endingAlphanumeric).trans (mul_endingAlphanumeric_le front)
  rw [word_eq]
  exact add_le (ends _) (ends _)

theorem atom_mul_alphanumeric_le : atom * oneOf isAlphanumeric ≤ atom := by
  have inside : (oneOf Word.isHyphenated)∗ * oneOf isAlphanumeric ≤ (oneOf Word.isHyphenated)∗ :=
    calc
      (oneOf Word.isHyphenated)∗ * oneOf isAlphanumeric
        ≤ (oneOf Word.isHyphenated)∗ * oneOf Word.isHyphenated :=
          mul_le_mul' le_rfl (oneOf_mono fun _ => isHyphenated_of_isAlphanumeric)
      _ ≤ (oneOf Word.isHyphenated)∗ := kstar_mul_le_kstar
  unfold atom identifier
  rw [add_mul]
  apply add_le_add
  · rw [mul_assoc]
    exact mul_le_mul' le_rfl kstar_mul_le_kstar
  · calc
      oneOf Char.isLower * (oneOf Word.isHyphenated)∗ * oneOf isAlphanumeric * oneOf isAlphanumeric
        = oneOf Char.isLower * ((oneOf Word.isHyphenated)∗ * oneOf isAlphanumeric) *
            oneOf isAlphanumeric := by rw [mul_assoc (oneOf Char.isLower)]
      _ ≤ oneOf Char.isLower * (oneOf Word.isHyphenated)∗ * oneOf isAlphanumeric :=
        mul_le_mul' (mul_le_mul' le_rfl inside) le_rfl

/-- Letters and digits behind a word belong to its last atom. -/
theorem word_mul_alphanumeric_le : word * oneOf isAlphanumeric ≤ word := by
  have absorbed (front : Language Char) : front * atom * oneOf isAlphanumeric ≤ front * atom := by
    rw [mul_assoc]
    exact mul_le_mul' le_rfl atom_mul_alphanumeric_le
  rw [word_eq, add_mul]
  exact add_le_add (absorbed _) (absorbed _)

end Grammar

namespace Word

open Grammar

/-- An atom is read whole where no letter, digit or hyphen stands behind it. -/
theorem atom_append {inside behind : Text} (named : inside ∈ Grammar.atom)
    (stops : behind.EndsRun isHyphenated) : atom (inside ++ behind) = inside.length := by
  obtain ⟨first, parts, rfl, letter, hyphenated, kept, alphanumeric⟩ :=
    exists_of_mem_atom named
  rw [List.cons_append, atom, List.length_cons]
  by_cases lower : first.isLower
  · rw [if_pos lower, Text.takeWhile_of_endsRun hyphenated stops, Text.trimEnd_of_kept kept,
      Nat.add_comm]
  · have passes := alphanumeric (Bool.eq_false_of_not_eq_true lower)
    have ends : behind.EndsRun isAlphanumeric := by
      intro character head
      have fails := stops character head
      simp only [isHyphenated, Bool.or_eq_false_iff] at fails
      exact fails.1
    rw [if_neg lower, if_pos letter, Text.countWhile_of_endsRun passes ends, Nat.add_comm]

/-- Backslashes and an atom in front of a word that goes on: each part is measured by
itself. -/
theorem length_append {front inside behind : Text} (separates : front ∈ backslash∗)
    (named : inside ∈ Grammar.atom) (stops : behind.EndsRun isHyphenated)
    (whole : length behind = behind.length) :
    length (front ++ inside ++ behind) = (front ++ inside ++ behind).length := by
  have separated : separators (front ++ inside ++ behind) = front.length := by
    rw [← separators_language] at separates
    rw [List.append_assoc]
    apply Text.countWhile_of_endsRun (mem_star_oneOf.mp separates)
    obtain ⟨first, parts, rfl, letter, _⟩ := exists_of_mem_atom named
    apply Text.EndsRun.cons
    rw [beq_eq_false_iff_ne]
    rintro rfl
    cases letter
  have read : atom ((front ++ inside ++ behind).drop front.length) = inside.length := by
    rw [List.append_assoc, List.drop_left]
    exact atom_append named stops
  have positive : 0 < inside.length := by
    apply List.length_pos_iff.mpr
    rintro rfl
    exact nil_notMem_atom named
  rw [length_eq, separated, read, if_neg (by omega), ← List.length_append, List.drop_left, whole,
    ← List.length_append]

/-- What goes on behind an atom starts with a backslash, and is measured whole. -/
theorem continued_whole {text : Text} (member : text ∈ (oneOrMore backslash * Grammar.atom)∗) :
    text.EndsRun isHyphenated ∧ length text = text.length := by
  obtain ⟨parts, rfl, separated⟩ := Language.mem_kstar.mp member
  clear member
  induction parts with
  | nil =>
      refine ⟨nofun, ?_⟩
      rw [List.flatten_nil, length_eq]
      rfl
  | cons part parts ih =>
      have later : ∀ other, other ∈ parts → other ∈ oneOrMore backslash * Grammar.atom :=
        fun other inside => separated other (List.mem_cons_of_mem _ inside)
      obtain ⟨stops, whole⟩ := ih later
      obtain ⟨front, separates, inside, named, rfl⟩ := separated part List.mem_cons_self
      rw [List.flatten_cons]
      constructor
      · obtain ⟨_, rfl, more, _, rfl⟩ := separates
        exact Text.EndsRun.cons rfl
      · have separates : front ∈ backslash∗ := by
          have included : oneOrMore backslash ≤ backslash∗ := mul_kstar_le_kstar
          exact included separates
        exact length_append separates named stops whole

theorem length_whole {word : Text} (member : word ∈ Grammar.word) :
    length word = word.length := by
  obtain ⟨_, ⟨front, separates, inside, named, rfl⟩, behind, goesOn, rfl⟩ := member
  obtain ⟨stops, whole⟩ := continued_whole goesOn
  exact length_append separates named stops whole

theorem length_measures : Measures length Grammar.word where
  nonempty := nil_notMem_word
  found := length_mem
  whole := length_whole
  cut := length_cut

/-- What is passed at once in the search for the end of a word: one backslash, or all
of an atom. -/
def round? : Text → Option Nat
  | '\\' :: _ => some 1
  | text =>
      match atom text with
      | 0 => none
      | count + 1 => some (count + 1)

/-- A number of rounds until none can be made, and what they pass together. -/
inductive Rounds : Nat → Text → Nat → Prop where
  | none {text : Text} (ended : round? text = none) : Rounds 0 text 0
  | next {text : Text} {rounds passed more : Nat} (round : round? text = some passed)
      (later : Rounds rounds (text.drop passed) more) : Rounds (rounds + 1) text (passed + more)

theorem round?_bounds {text : Text} {passed : Nat} (round : round? text = some passed) :
    0 < passed ∧ passed ≤ text.length := by
  unfold round? at round
  split at round
  · cases round
    exact ⟨Nat.one_pos, Nat.succ_pos _⟩
  · split at round
    · cases round
    · rename_i count read
      cases round
      have within := (atom_plain text).1
      rw [read] at within
      exact ⟨Nat.succ_pos count, within⟩

theorem round?_of_ne {text : Text} (other : text.head? ≠ some '\\') :
    round? text = if atom text = 0 then none else some (atom text) := by
  unfold round?
  split
  · exact absurd rfl other
  · split
    · rename_i none
      rw [if_pos none]
    · rename_i count some
      rw [some, if_neg (Nat.succ_ne_zero count)]

/-- A backslash belongs to a word if one goes on behind it. -/
theorem length_backslash (rest : Text) :
    length ('\\' :: rest) = if length rest = 0 then 0 else length rest + 1 := by
  have one : separators ('\\' :: rest) = separators rest + 1 := by
    rw [separators, Text.countWhile_cons]
    rfl
  have shifted (count : Nat) : ('\\' :: rest).drop (separators rest + 1 + count) =
      rest.drop (separators rest + count) := by
    rw [Nat.add_right_comm, List.drop_succ_cons]
  rw [length_eq, length_eq rest, one, List.drop_succ_cons, shifted]
  split
  · rfl
  · rw [if_neg (by omega)]
    omega

theorem length_of_ne {text : Text} (other : text.head? ≠ some '\\') :
    length text = if atom text = 0 then 0 else atom text + length (text.drop (atom text)) := by
  have none : separators text = 0 := by
    cases text with
    | nil => rfl
    | cons first rest =>
        have apart : ¬ (first == '\\') = true := by
          rw [beq_iff_eq]
          rintro rfl
          exact other rfl
        rw [separators, Text.countWhile_cons, if_neg apart]
  rw [length_eq, none, List.drop_zero, Nat.zero_add]

/-- The last character of an atom or word is a letter or digit. -/
theorem exists_last {text : Text} (member : text ∈ endingAlphanumeric) :
    ∃ front last, text = front ++ [last] ∧ isAlphanumeric last := by
  obtain ⟨front, _, _, ⟨last, alphanumeric, rfl⟩, rfl⟩ := member
  exact ⟨front, last, rfl, alphanumeric⟩

theorem trimEnd_of_mem {text : Text} (member : text ∈ endingAlphanumeric) :
    Text.trimEnd (· == '\\') text = text := by
  obtain ⟨front, last, rfl, alphanumeric⟩ := exists_last member
  apply Text.trimEnd_of_kept
  intro final ends
  rw [List.getLast?_concat] at ends
  cases ends
  rw [beq_eq_false_iff_ne]
  rintro rfl
  cases alphanumeric

namespace Rounds

/-- A backslash stays in front of what trimming leaves, if it leaves something. -/
theorem trimEnd_backslash {rest : Text} {more : Nat}
    (behind : Text.trimEnd (· == '\\') (rest.take more) = rest.take (length rest)) :
    Text.trimEnd (· == '\\') (('\\' :: rest).take (1 + more)) =
      ('\\' :: rest).take (length ('\\' :: rest)) := by
  have split : ('\\' :: rest).take (1 + more) = ['\\'] ++ rest.take more := by
    rw [Nat.add_comm, List.take_succ_cons]
    rfl
  rw [split, Text.trimEnd_append, behind, length_backslash]
  rcases Nat.eq_zero_or_pos (length rest) with none | some
  · rw [none, if_pos (List.take_zero), if_pos rfl]
    rfl
  · have nonempty : rest.take (length rest) ≠ [] := by
      intro empty
      have word := length_measures.found some
      rw [empty] at word
      exact nil_notMem_word word
    rw [if_neg nonempty, if_neg (by omega), List.take_succ_cons]
    rfl

theorem trimEnd_atom {text : Text} {more : Nat} (other : text.head? ≠ some '\\')
    (positive : 0 < atom text)
    (behind : Text.trimEnd (· == '\\') ((text.drop (atom text)).take more) =
      (text.drop (atom text)).take (length (text.drop (atom text)))) :
    Text.trimEnd (· == '\\') (text.take (atom text + more)) = text.take (length text) := by
  have whole := trimEnd_of_mem (atom_le_endingAlphanumeric (atom_mem positive))
  rw [length_of_ne other, if_neg (Nat.ne_of_gt positive), List.take_add, List.take_add,
    Text.trimEnd_append, behind, whole]
  split
  · rename_i none
    rw [none, List.append_nil]
  · rfl

/-- What all rounds pass is the word and backslashes behind it. -/
theorem trimEnd_take {text : Text} {rounds passed : Nat} (made : Rounds rounds text passed) :
    Text.trimEnd (· == '\\') (text.take passed) = text.take (length text) := by
  induction made with
  | @none text ended =>
      have other : text.head? ≠ some '\\' := by
        intro head
        obtain ⟨rest, rfl⟩ := List.head?_eq_some_iff.mp head
        cases ended
      rw [round?_of_ne other] at ended
      have noAtom : atom text = 0 := by
        by_contra some
        rw [if_neg some] at ended
        cases ended
      rw [length_of_ne other, if_pos noAtom]
      rfl
  | @next text rounds passed more round later ih =>
      by_cases head : text.head? = some '\\'
      · obtain ⟨rest, rfl⟩ := List.head?_eq_some_iff.mp head
        cases round
        exact trimEnd_backslash ih
      · rw [round?_of_ne head] at round
        have positive : 0 < atom text := by
          apply Nat.pos_of_ne_zero
          intro none
          rw [if_pos none] at round
          cases round
        rw [if_neg (by omega)] at round
        cases round
        exact trimEnd_atom head positive ih

/-- The rounds come to an end, after as many as the text has characters at most. -/
theorem exist (text : Text) :
    ∃ rounds passed, Rounds rounds text passed ∧ rounds ≤ passed ∧ passed ≤ text.length := by
  induction size : text.length using Nat.strongRecOn generalizing text with
  | ind size ih =>
      subst size
      cases round : round? text with
      | none => exact ⟨0, 0, .none round, Nat.le_refl 0, Nat.zero_le _⟩
      | some passed =>
          obtain ⟨positive, within⟩ := round?_bounds round
          have shorter : (text.drop passed).length < text.length := by
            rw [List.length_drop]
            omega
          obtain ⟨rounds, more, later, count, inside⟩ := ih _ shorter _ rfl
          rw [List.length_drop] at inside
          exact ⟨rounds + 1, passed + more, .next round later, by omega, by omega⟩

end Rounds

end Word

theorem word?_some_iff {text : Text} {count : Nat} :
    (∃ kind, word? text = some (kind, count)) ↔ 0 < count ∧ Word.length text = count := by
  unfold word?
  split
  · rename_i none
    rw [none]
    constructor
    · rintro ⟨kind, found⟩
      cases found
    · rintro ⟨positive, rfl⟩
      cases positive
  · rename_i length spelled
    rw [spelled]
    constructor
    · rintro ⟨kind, found⟩
      split at found <;> cases found <;> exact ⟨Nat.succ_pos length, rfl⟩
    · rintro ⟨_, rfl⟩
      split <;> exact ⟨_, rfl⟩

theorem word?_eq_none_iff_length {text : Text} : word? text = none ↔ Word.length text = 0 := by
  constructor
  · intro missing
    by_contra some
    obtain ⟨kind, found⟩ := word?_some_iff.mpr ⟨Nat.pos_of_ne_zero some, rfl⟩
    rw [missing] at found
    cases found
  · intro none
    unfold word?
    rw [none]

/-- A word or keyword is found where the grammar has a word at the front of a text, and
it is the longest one.  Passing backslashes and atoms one by one comes to an end, and
trimming the backslashes at its end leaves that word.  The word ends with neither a
backslash nor a hyphen, and no letter, digit or underscore follows it. -/
theorem word?_longest (text : Text) :
    (∀ count, (∃ kind, word? text = some (kind, count)) ↔
      ∃ front, LongestFront Grammar.word text front ∧ front.length = count ∧
        Text.byteLength front = count) ∧
    (word? text = none ↔ ∀ front, front <+: text → front ∉ Grammar.word) ∧
    (∃ rounds passed, Word.Rounds rounds text passed ∧ rounds ≤ text.length) ∧
    (∀ rounds passed, Word.Rounds rounds text passed →
      Text.trimEnd (· == '\\') (text.take passed) = text.take (Word.length text)) ∧
    ∀ kind count, word? text = some (kind, count) →
      (∃ front last, text.take count = front ++ [last] ∧ last ≠ '\\' ∧ last ≠ '-') ∧
        ∀ next, (text.drop count).head? = some next → isAlphanumeric next = false := by
  have measures := Word.length_measures
  have longestFront {kind : TokenKind} {count : Nat} (found : word? text = some (kind, count)) :
      LongestFront Grammar.word text (text.take count) ∧ (text.take count).length = count := by
    obtain ⟨positive, rfl⟩ := word?_some_iff.mp ⟨kind, found⟩
    have longest := measures.longestFront positive
    exact ⟨longest, measures.length_eq longest⟩
  refine ⟨?_, ?_, ?_, fun rounds passed made => made.trimEnd_take, ?_⟩
  · intro count
    constructor
    · rintro ⟨kind, found⟩
      obtain ⟨longest, length⟩ := longestFront found
      exact ⟨_, longest, length, (word?_plain found).byteLength_take⟩
    · rintro ⟨front, longest, rfl, _⟩
      have positive := (measures.longestFront_iff.mp longest).1
      have length := measures.length_eq longest
      exact word?_some_iff.mpr ⟨length ▸ positive, length.symm⟩
  · rw [word?_eq_none_iff_length, measures.eq_zero_iff]
  · obtain ⟨rounds, passed, made, count, within⟩ := Word.Rounds.exist text
    exact ⟨rounds, passed, made, Nat.le_trans count within⟩
  · intro kind count found
    obtain ⟨longest, length⟩ := longestFront found
    constructor
    · obtain ⟨front, last, ends, alphanumeric⟩ :=
        Word.exists_last (Grammar.word_le_endingAlphanumeric longest.member)
      refine ⟨front, last, ends, ?_, ?_⟩
      · rintro rfl
        cases alphanumeric
      · rintro rfl
        cases alphanumeric
    · intro next behind
      rw [← length] at behind
      exact longest.next_fails Grammar.word_mul_alphanumeric_le behind

/-- A hyphenated atom, a backslash and another atom, with backslashes behind it that no
atom follows. -/
theorem word_in_front_of_stray_backslashes :
    let text := "a-b\\C_1\\\\-x".toList
    word? text = some (.word, 7) ∧ LongestFront Grammar.word text "a-b\\C_1".toList ∧
      Word.Rounds 5 text 9 ∧
      Text.trimEnd (· == '\\') (text.take 9) = text.take (Word.length text) ∧
      (text.drop 7).head? = some '\\' ∧ isAlphanumeric '\\' = false := by
  intro text
  have found : word? text = some (.word, 7) := by decide +kernel
  have made : Word.Rounds 5 text (3 + (1 + (3 + (1 + (1 + 0))))) :=
    .next rfl (.next rfl (.next rfl (.next rfl (.next rfl (.none rfl)))))
  obtain ⟨longest, _, _, trimmed, borders⟩ := word?_longest text
  obtain ⟨front, word, length, _⟩ := (longest 7).mp ⟨.word, found⟩
  have same : front = "a-b\\C_1".toList := by
    rw [← word.take_length, length]
    rfl
  subst same
  have behind : (text.drop 7).head? = some '\\' := by decide
  exact ⟨found, word, made, trimmed 5 9 made, behind, (borders .word 7 found).2 '\\' behind⟩

end HackLexer
