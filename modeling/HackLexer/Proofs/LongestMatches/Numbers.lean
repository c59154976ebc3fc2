import HackLexer.Proofs.LongestMatches
import HackLexer.Proofs.MarkupTrees

/-!
# Longest numbers

An integer or float that stands alone is measured whole: each of its digits belongs to
the run that is counted, and what stands behind a run of digits is no digit.  So the
longer of the two measures is the length of the longest number at the front of a text,
whatever its radix mark, point or exponent lack.
-/

namespace HackLexer

open scoped Computability

namespace Text

variable {test : Char → Bool} {run rest : Text}

theorem countWhile_of_endsRun (passes : ∀ character, character ∈ run → test character)
    (ends : rest.EndsRun test) : countWhile test (run ++ rest) = run.length := by
  rw [countWhile, takeWhile_of_endsRun passes ends]

theorem countWhile_of_all (passes : ∀ character, character ∈ run → test character) :
    countWhile test run = run.length := by
  rw [countWhile, List.takeWhile_eq_self_iff.mpr passes]

end Text

namespace Grammar

theorem nil_notMem_mul {first second : Language Char} (nonempty : [] ∉ first) :
    [] ∉ first * second := by
  rintro ⟨front, member, behind, _, empty⟩
  rw [(List.append_eq_nil_iff.mp empty).1] at member
  exact nonempty member

theorem nil_notMem_oneOf (test : Char → Bool) : [] ∉ oneOf test := by
  rintro ⟨character, _, empty⟩
  cases empty

theorem nil_notMem_oneOrMore (test : Char → Bool) : [] ∉ oneOrMore (oneOf test) :=
  nil_notMem_mul (nil_notMem_oneOf test)

theorem nil_notMem_spelling {text : String} (filled : text.toList ≠ []) :
    [] ∉ spelling text := by
  intro empty
  exact filled (eq_of_mem_spelling empty).symm

theorem nil_notMem_int : [] ∉ int := by
  rintro (((hexadecimal | binary) | octal) | decimal)
  · exact nil_notMem_mul (nil_notMem_spelling (by decide)) hexadecimal
  · exact nil_notMem_mul (nil_notMem_spelling (by decide)) binary
  · exact nil_notMem_mul (nil_notMem_spelling (by decide)) octal
  · exact nil_notMem_mul (nil_notMem_oneOf _) decimal

theorem nil_notMem_float : [] ∉ float := by
  have whole : [] ∉ oneOrMore digit := nil_notMem_oneOrMore _
  have point : [] ∉ spelling "." := nil_notMem_spelling (by decide)
  rintro ((digits | fraction) | power)
  · exact nil_notMem_mul (nil_notMem_mul (nil_notMem_mul whole)) digits
  · exact nil_notMem_mul (nil_notMem_mul point) fraction
  · exact nil_notMem_mul whole power

end Grammar

namespace Number

open Grammar

variable {power : Text}

/-- A radix mark and all digits behind it are counted. -/
theorem radix_whole {test : Char → Bool} {digits : Text}
    (digited : digits ∈ oneOrMore (oneOf test)) :
    (match Text.countWhile test digits with
      | 0 => 1
      | count + 1 => 2 + (count + 1) : Nat) = digits.length + 2 := by
  obtain ⟨nonempty, passes⟩ := mem_oneOrMore_oneOf.mp digited
  have positive := List.length_pos_iff.mpr nonempty
  rw [Text.countWhile_of_all passes]
  split <;> omega

theorem head?_ne_of_octal {digits : Text} {mark : Char} (octal : digits ∈ (oneOf isOctalDigit)∗)
    (marks : isOctalDigit mark = false) : digits.head? ≠ some mark := by
  intro head
  have passes := mem_star_oneOf.mp octal mark (List.mem_of_head? head)
  rw [marks] at passes
  cases passes

theorem integer_whole {word : Text} (member : word ∈ Grammar.int) :
    integer word = word.length := by
  rcases member with ((hexadecimal | binary) | octal) | decimal
  · obtain ⟨_, rfl, digits, digited, rfl⟩ := hexadecimal
    exact radix_whole digited
  · obtain ⟨_, rfl, digits, digited, rfl⟩ := binary
    exact radix_whole digited
  · obtain ⟨_, rfl, digits, digited, rfl⟩ := octal
    have measured : integer ('0' :: digits) = 1 + Text.countWhile isOctalDigit digits :=
      integer_octal (head?_ne_of_octal digited rfl) (head?_ne_of_octal digited rfl)
    rw [Text.countWhile_of_all (mem_star_oneOf.mp digited), Nat.add_comm] at measured
    exact measured
  · obtain ⟨_, ⟨first, positive, rfl⟩, digits, digited, rfl⟩ := decimal
    obtain ⟨isDigit, notZero⟩ := Bool.and_eq_true_iff.mp positive
    have measured : integer (first :: digits) = Number.digits (first :: digits) :=
      integer_decimal (bne_iff_ne.mp notZero)
    apply measured.trans
    apply Text.countWhile_of_all
    intro character inside
    rcases List.mem_cons.mp inside with rfl | behind
    · exact isDigit
    · exact mem_star_oneOf.mp digited character behind

theorem integer_measures : Measures integer Grammar.int where
  nonempty := nil_notMem_int
  found := integer_mem
  whole := integer_whole
  cut := integer_cut

theorem sign_whole {marked digits : Text}
    (signed : marked ∈ (1 + spelling "+" + spelling "-" : Language Char))
    (digited : ∀ character, character ∈ digits → character.isDigit) :
    sign (marked ++ digits) = marked.length := by
  rcases signed with (rfl | rfl) | rfl
  · cases digits with
    | nil => rfl
    | cons first rest =>
        have isDigit := digited first List.mem_cons_self
        unfold sign
        split
        · rename_i same
          cases same
          cases isDigit
        · rename_i same
          cases same
          cases isDigit
        · rfl
  · rfl
  · rfl

theorem exponent_whole (member : power ∈ Grammar.exponent) : exponent power = power.length := by
  obtain ⟨_, ⟨_, ⟨mark, isMark, rfl⟩, marked, signed, rfl⟩, digits, digited, rfl⟩ := member
  obtain ⟨nonempty, passes⟩ := mem_oneOrMore_oneOf.mp digited
  have signs := sign_whole signed passes
  have counted : Number.digits ((marked ++ digits).drop (sign (marked ++ digits))) =
      digits.length := by
    rw [signs, List.drop_left]
    exact Text.countWhile_of_all passes
  have filled : digits.length ≠ 0 := fun empty => nonempty (List.length_eq_zero_iff.mp empty)
  have measured : exponent (mark :: (marked ++ digits)) =
      1 + sign (marked ++ digits) + digits.length := by
    rw [exponent_mark isMark, counted, if_neg filled]
  have length : 1 + marked.length + digits.length = ([mark] ++ marked ++ digits).length := by
    simp only [List.length_append, List.length_singleton]
  rw [signs, length] at measured
  exact measured

/-- An exponent starts with no digit and no point. -/
theorem exponent_head {character : Char} (member : power ∈ 1 + Grammar.exponent)
    (head : power.head? = some character) : isExponentMark character := by
  rcases member with rfl | ⟨_, ⟨_, ⟨mark, isMark, rfl⟩, marked, _, rfl⟩, digits, _, rfl⟩
  · cases head
  · cases head
    exact isMark

theorem exponent_whole_optional (member : power ∈ 1 + Grammar.exponent) :
    exponent power = power.length := by
  rcases member with rfl | present
  · rfl
  · exact exponent_whole present

theorem isDigit_of_isExponentMark {character : Char} (isMark : isExponentMark character) :
    character.isDigit = false := by
  rcases Bool.or_eq_true_iff.mp isMark with lower | upper
  · rw [eq_of_beq lower]
    rfl
  · rw [eq_of_beq upper]
    rfl

/-- The digits behind a point end where the exponent starts. -/
theorem exponent_endsRun (member : power ∈ 1 + Grammar.exponent) :
    power.EndsRun Char.isDigit := by
  intro character head
  exact isDigit_of_isExponentMark (exponent_head member head)

theorem fraction_of_no_point (count : Nat) (member : power ∈ 1 + Grammar.exponent) :
    fraction count power = 0 := by
  unfold fraction
  split
  · have isMark := exponent_head member rfl
    cases isMark
  · rfl

/-- A float is measured part by part: digits, a point with digits or nothing, and an
exponent or nothing. -/
theorem float_of_parts (whole point : Text)
    (digited : ∀ character, character ∈ whole → character.isDigit)
    (ends : (point ++ power).EndsRun Char.isDigit)
    (pointed : fraction whole.length (point ++ power) = point.length)
    (powered : power ∈ 1 + Grammar.exponent) (marked : point ++ power ≠ [])
    (valued : whole ++ point ≠ []) :
    float (whole ++ point ++ power) = (whole ++ point ++ power).length := by
  have counted : digits (whole ++ point ++ power) = whole.length := by
    rw [List.append_assoc]
    exact Text.countWhile_of_endsRun digited ends
  have pointBehind : fraction whole.length ((whole ++ point ++ power).drop whole.length) =
      point.length := by
    rw [List.append_assoc, List.drop_left]
    exact pointed
  have powerBehind : exponent ((whole ++ point ++ power).drop (whole.length + point.length)) =
      power.length := by
    rw [← List.length_append, List.drop_left]
    exact exponent_whole_optional powered
  have markedLength := List.length_pos_iff.mpr marked
  have valuedLength := List.length_pos_iff.mpr valued
  rw [List.length_append] at markedLength valuedLength
  rw [float_eq counted pointBehind powerBehind, if_neg (by omega), List.length_append,
    List.length_append]

theorem fraction_whole (count : Nat) {digits : Text}
    (digited : ∀ character, character ∈ digits → character.isDigit)
    (powered : power ∈ 1 + Grammar.exponent) (valued : 0 < count ∨ digits ≠ []) :
    fraction count ('.' :: digits ++ power) = ('.' :: digits).length := by
  have counted : Number.digits (digits ++ power) = digits.length :=
    Text.countWhile_of_endsRun digited (exponent_endsRun powered)
  have filled : 0 < count ∨ 0 < Number.digits (digits ++ power) := by
    rw [counted, List.length_pos_iff]
    exact valued
  rw [List.cons_append, fraction, if_pos filled, counted, List.length_cons, Nat.add_comm]

theorem float_whole {word : Text} (member : word ∈ Grammar.float) :
    float word = word.length := by
  have pointEnds (behind : Text) : Text.EndsRun Char.isDigit ('.' :: behind) :=
    Text.EndsRun.cons rfl
  rcases member with (pointed | leading) | powered
  · obtain ⟨_, ⟨_, ⟨whole, digited, _, rfl, rfl⟩, digits, behind, rfl⟩, power, powered, rfl⟩ :=
      pointed
    obtain ⟨nonempty, passes⟩ := mem_oneOrMore_oneOf.mp digited
    have valued : 0 < whole.length := List.length_pos_iff.mpr nonempty
    have pointed := fraction_whole whole.length (mem_star_oneOf.mp behind) powered (.inl valued)
    have measured := float_of_parts whole ('.' :: digits) passes (pointEnds _) pointed powered
      nofun (by simp)
    simpa using measured
  · obtain ⟨_, ⟨_, rfl, digits, digited, rfl⟩, power, powered, rfl⟩ := leading
    obtain ⟨nonempty, passes⟩ := mem_oneOrMore_oneOf.mp digited
    have pointed := fraction_whole 0 passes powered (.inr nonempty)
    exact float_of_parts [] ('.' :: digits) nofun (pointEnds _) pointed powered nofun nofun
  · obtain ⟨whole, digited, power, present, rfl⟩ := powered
    obtain ⟨nonempty, passes⟩ := mem_oneOrMore_oneOf.mp digited
    have powered : power ∈ 1 + Grammar.exponent := .inr present
    have pointed := fraction_of_no_point whole.length powered
    have marked : power ≠ [] := by
      rintro rfl
      exact nil_notMem_mul (nil_notMem_mul (nil_notMem_oneOf _)) present
    have measured := float_of_parts whole [] passes (exponent_endsRun powered) pointed powered
      marked (by simpa using nonempty)
    simpa using measured

theorem float_measures : Measures float Grammar.float where
  nonempty := nil_notMem_float
  found := float_mem
  whole := float_whole
  cut := float_cut

/-- The longer of the two readings is the longest number. -/
theorem longer_measures :
    Measures (fun text => max (integer text) (float text)) (Grammar.int + Grammar.float) :=
  integer_measures.union float_measures

/-- The longest number is an integer exactly if the float reading is no longer. -/
theorem mem_int_iff {text front : Text}
    (longest : LongestFront (Grammar.int + Grammar.float) text front) :
    front ∈ Grammar.int ↔ float text ≤ integer text := by
  obtain ⟨positive, taken⟩ := longer_measures.longestFront_iff.mp longest
  constructor
  · intro member
    have inside := integer_measures.length_le longest.starts member
    rw [longer_measures.length_eq longest] at inside
    exact Nat.le_trans (Nat.le_max_right _ _) inside
  · intro shorter
    rw [Nat.max_eq_left shorter] at positive taken
    rw [taken]
    exact integer_mem positive

end Number

theorem number?_eq_some_iff {text : Text} {kind : TokenKind} {count : Nat} :
    number? text = some (kind, count) ↔
      0 < count ∧ count = max (Number.integer text) (Number.float text) ∧
        (Number.float text ≤ Number.integer text ∧ kind = .int ∨
          ¬ Number.float text ≤ Number.integer text ∧ kind = .float) := by
  unfold number?
  constructor
  · intro found
    split at found
    · rename_i longer
      cases found
      exact ⟨by omega, by omega, .inr ⟨Nat.not_le_of_lt longer, rfl⟩⟩
    · rename_i shorter
      split at found
      · rename_i positive
        cases found
        exact ⟨positive, by omega, .inl ⟨Nat.le_of_not_lt shorter, rfl⟩⟩
      · cases found
  · rintro ⟨positive, rfl, ⟨shorter, rfl⟩ | ⟨longer, rfl⟩⟩
    · rw [Nat.max_eq_left shorter] at positive ⊢
      rw [if_neg (Nat.not_lt_of_le shorter), if_pos positive]
    · have more := Nat.lt_of_not_le longer
      rw [Nat.max_eq_right (Nat.le_of_lt more), if_pos more]

theorem number?_eq_none_iff {text : Text} :
    number? text = none ↔ max (Number.integer text) (Number.float text) = 0 := by
  unfold number?
  split
  · simp only [reduceCtorEq, false_iff]
    omega
  · split
    · simp only [reduceCtorEq, false_iff]
      omega
    · simp only [true_iff]
      omega

/-- A number is found where an integer or float stands at the front of a text, and it
is the longest one that does.  It counts as an integer exactly if its characters are
one. -/
theorem number?_longest (text : Text) :
    (∀ kind count, number? text = some (kind, count) ↔
      ∃ front, LongestFront (Grammar.int + Grammar.float) text front ∧
        front.length = count ∧ Text.byteLength front = count ∧
        (front ∈ Grammar.int ∧ kind = .int ∨ front ∉ Grammar.int ∧ kind = .float)) ∧
    (number? text = none ↔
      ∀ front, front <+: text → front ≠ [] → front ∉ Grammar.int ∧ front ∉ Grammar.float) := by
  have measures := Number.longer_measures
  constructor
  · intro kind count
    constructor
    · intro found
      obtain ⟨positive, rfl, read⟩ := number?_eq_some_iff.mp found
      have longest := measures.longestFront positive
      have bytes := (number?_plain found).byteLength_take
      refine ⟨_, longest, measures.length_eq longest, bytes, ?_⟩
      rwa [Number.mem_int_iff longest]
    · rintro ⟨front, longest, rfl, _, read⟩
      have positive := (measures.longestFront_iff.mp longest).1
      have length := measures.length_eq longest
      rw [Number.mem_int_iff longest] at read
      exact number?_eq_some_iff.mpr ⟨length ▸ positive, length, read⟩
  · rw [number?_eq_none_iff, measures.eq_zero_iff]
    constructor
    · intro missing front starts _
      exact not_or.mp (missing front starts)
    · intro missing front starts member
      have nonempty : front ≠ [] := by
        rintro rfl
        exact measures.nonempty member
      obtain ⟨noInt, noFloat⟩ := missing front starts nonempty
      exact member.elim noInt noFloat

/-- Digits with a leading zero that are no octal number, a point, and an exponent mark
with a sign but without a digit. -/
theorem float_in_front_of_bare_exponent :
    let text := "08.5e+x".toList
    number? text = some (.float, 4) ∧
      LongestFront (Grammar.int + Grammar.float) text "08.5".toList ∧
      "08.5".toList ∉ Grammar.int := by
  intro text
  have found : number? text = some (.float, 4) := by decide
  obtain ⟨front, longest, length, _, read⟩ := ((number?_longest text).1 .float 4).mp found
  have same : front = "08.5".toList := by
    rw [← longest.take_length, length]
    rfl
  subst same
  exact ⟨found, longest, read.elim (fun other => nomatch other.2) And.left⟩

end HackLexer
