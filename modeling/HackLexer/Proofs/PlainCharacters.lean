import HackLexer.Proofs.ScanOutcomes

/-!
# Plain characters

A plain character is one byte and no line feed.  The recognisers of blanks,
words, numbers, names, punctuation, markers and labels match plain characters
only, so for what they match the number of characters is the number of bytes
and no line ends in it.
-/

namespace HackLexer

/-- A character of one byte that is no line feed. -/
def isPlain (character : Char) : Bool :=
  character.utf8Size == 1 && character != '\n'

/-- A text starts with the given number of plain characters. -/
def Text.Plain (text : Text) (count : Nat) : Prop :=
  count ≤ text.length ∧ ∀ character, character ∈ text.take count → isPlain character

theorem isPlain_of_all {text : Text} (plain : text.all isPlain) :
    ∀ character, character ∈ text → isPlain character :=
  List.all_eq_true.mp plain

theorem isPlain_of_lt {character : Char} (low : character.toNat < 128)
    (inLine : character ≠ '\n') : isPlain character := by
  have size : character.utf8Size = 1 := by
    rw [Char.utf8Size_eq_one_iff, UInt32.le_iff_toNat_le]
    exact Nat.le_of_lt_succ low
  simp [isPlain, size, inLine]

theorem isPlain_of_range (low high : Char) {character : Char}
    (above : low ≤ character) (below : character ≤ high)
    (inLine : '\n'.toNat < low.toNat) (ascii : high.toNat < 128) :
    isPlain character := by
  rw [Char.le_def, UInt32.le_iff_toNat_le] at above below
  change low.toNat ≤ character.toNat at above
  change character.toNat ≤ high.toNat at below
  apply isPlain_of_lt
  · omega
  · rintro rfl
    omega

theorem isPlain_of_isDigit {character : Char} (digit : character.isDigit) :
    isPlain character := by
  simp only [Char.isDigit, Bool.and_eq_true, decide_eq_true_eq] at digit
  exact isPlain_of_range '0' '9' digit.1 digit.2 (by decide) (by decide)

theorem isPlain_of_isLower {character : Char} (lower : character.isLower) :
    isPlain character := by
  obtain ⟨above, below⟩ := Bool.and_eq_true_iff.mp lower
  exact isPlain_of_range 'a' 'z' (of_decide_eq_true above) (of_decide_eq_true below)
    (by decide) (by decide)

theorem isPlain_of_isUpper {character : Char} (upper : character.isUpper) :
    isPlain character := by
  obtain ⟨above, below⟩ := of_decide_eq_true upper
  exact isPlain_of_range 'A' 'Z' above below (by decide) (by decide)

theorem isPlain_of_isLetter {character : Char} (letter : isLetter character) :
    isPlain character := by
  simp only [isLetter, Bool.or_eq_true, beq_iff_eq] at letter
  rcases letter with alphabetic | rfl
  · rcases Bool.or_eq_true_iff.mp alphabetic with upper | lower
    · exact isPlain_of_isUpper upper
    · exact isPlain_of_isLower lower
  · decide

theorem isPlain_of_isAlphanumeric {character : Char}
    (alphanumeric : isAlphanumeric character) : isPlain character := by
  rcases Bool.or_eq_true _ _ ▸ alphanumeric with digit | letter
  · exact isPlain_of_isDigit digit
  · exact isPlain_of_isLetter letter

theorem isPlain_of_isHyphenated {character : Char}
    (hyphenated : Word.isHyphenated character) : isPlain character := by
  simp only [Word.isHyphenated, Bool.or_eq_true, beq_iff_eq] at hyphenated
  rcases hyphenated with alphanumeric | rfl
  · exact isPlain_of_isAlphanumeric alphanumeric
  · decide

theorem isPlain_of_isPart {character : Char} (part : Label.isPart character) :
    isPlain character := by
  simp only [Label.isPart, Bool.or_eq_true, beq_iff_eq] at part
  rcases part with (upper | digit) | rfl
  · exact isPlain_of_isUpper upper
  · exact isPlain_of_isDigit digit
  · decide

theorem isPlain_of_isBlank {character : Char} (blank : isBlank character) :
    isPlain character := by
  simp only [isBlank, Bool.or_eq_true, beq_iff_eq] at blank
  rcases blank with ((rfl | rfl) | rfl) | rfl
  · decide
  · decide
  · decide
  · decide

theorem isPlain_of_isHexDigit {character : Char} (digit : isHexDigit character) :
    isPlain character := by
  simp only [isHexDigit, Bool.or_eq_true, Bool.and_eq_true, decide_eq_true_eq] at digit
  rcases digit with (digit | lower) | upper
  · exact isPlain_of_isDigit digit
  · exact isPlain_of_range 'a' 'f' lower.1 lower.2 (by decide) (by decide)
  · exact isPlain_of_range 'A' 'F' upper.1 upper.2 (by decide) (by decide)

theorem isPlain_of_isOctalDigit {character : Char} (digit : isOctalDigit character) :
    isPlain character := by
  simp only [isOctalDigit, Bool.and_eq_true, decide_eq_true_eq] at digit
  exact isPlain_of_range '0' '7' digit.1 digit.2 (by decide) (by decide)

theorem isPlain_of_isBinaryDigit {character : Char} (digit : isBinaryDigit character) :
    isPlain character := by
  simp only [isBinaryDigit, Bool.or_eq_true, beq_iff_eq] at digit
  rcases digit with rfl | rfl
  · decide
  · decide

namespace Text.Plain

theorem zero (text : Text) : text.Plain 0 := by
  simp [Text.Plain]

theorem cons {first : Char} {rest : Text} {count : Nat} (plain : isPlain first)
    (more : rest.Plain count) : Text.Plain (first :: rest) (1 + count) := by
  rw [Nat.add_comm]
  refine ⟨Nat.succ_le_succ more.1, ?_⟩
  intro character member
  rcases List.mem_cons.mp member with rfl | behind
  · exact plain
  · exact more.2 character behind

theorem one {first : Char} {rest : Text} (plain : isPlain first) :
    Text.Plain (first :: rest) 1 :=
  cons plain (zero rest)

theorem add {text : Text} {first second : Nat} (front : text.Plain first)
    (behind : Text.Plain (text.drop first) second) : text.Plain (first + second) := by
  constructor
  · have bound := behind.1
    have whole := front.1
    rw [List.length_drop] at bound
    omega
  · intro character member
    rw [List.take_add] at member
    rcases List.mem_append.mp member with old | new
    · exact front.2 character old
    · exact behind.2 character new

theorem countWhile {test : Char → Bool}
    (plain : ∀ {character}, test character → isPlain character) (text : Text) :
    text.Plain (Text.countWhile test text) := by
  induction text with
  | nil => exact zero []
  | cons first rest ih =>
      unfold Text.countWhile
      cases passes : test first with
      | true =>
          rw [List.takeWhile_cons_of_pos passes, List.length_cons, Nat.add_comm]
          exact cons (plain passes) ih
      | false =>
          rw [List.takeWhile_cons_of_neg (by simp [passes])]
          exact zero _

theorem of_isPrefixOf {pattern text : Text} (starts : pattern.isPrefixOf text)
    (plain : ∀ character, character ∈ pattern → isPlain character) :
    text.Plain pattern.length := by
  obtain ⟨behind, rfl⟩ := List.isPrefixOf_iff_prefix.mp starts
  constructor
  · simp
  · rw [List.take_left]
    exact plain

theorem of_le {text : Text} {count fewer : Nat} (plain : text.Plain count)
    (le : fewer ≤ count) : text.Plain fewer := by
  refine ⟨Nat.le_trans le plain.1, ?_⟩
  intro character member
  exact plain.2 character (List.take_subset_take_left text le member)

theorem byteLength_of_all {text : Text}
    (plain : ∀ character, character ∈ text → isPlain character) :
    byteLength text = text.length := by
  induction text with
  | nil => rfl
  | cons first rest ih =>
      have size : first.utf8Size = 1 := by
        have here := plain first List.mem_cons_self
        simp only [isPlain, Bool.and_eq_true, beq_iff_eq] at here
        exact here.1
      have behind := ih fun character member =>
        plain character (List.mem_cons_of_mem _ member)
      rw [byteLength_cons, size, behind, List.length_cons, Nat.add_comm]

theorem byteLength_take {text : Text} {count : Nat} (plain : text.Plain count) :
    byteLength (text.take count) = count := by
  rw [byteLength_of_all plain.2, List.length_take]
  exact Nat.min_eq_left plain.1

theorem lineFeeds_take {text : Text} {count : Nat} (plain : text.Plain count) :
    lineFeeds (text.take count) = 0 := by
  apply List.count_eq_zero.mpr
  intro member
  have here := plain.2 '\n' member
  revert here
  decide

end Text.Plain

theorem markerAfter?_plain {marker behind : Text} {first second : Char} {count : Nat}
    (found : markerAfter? marker behind = some count)
    (opener : isPlain first ∧ isPlain second)
    (plain : ∀ character, character ∈ marker → isPlain character) :
    Text.Plain (first :: second :: behind) count := by
  unfold markerAfter? at found
  simp only [Option.ite_none_right_eq_some, Option.some.injEq] at found
  obtain ⟨starts, rfl⟩ := found
  have front : Text.Plain (first :: second :: behind) 2 :=
    .cons opener.1 (.one opener.2)
  rw [Nat.add_assoc]
  refine front.add ?_
  refine (Text.Plain.countWhile isPlain_of_isBlank behind).add ?_
  exact .of_isPrefixOf starts plain

theorem marker?_plain {text : Text} {kind : TokenKind} {count : Nat}
    (found : marker? text = some (kind, count)) : text.Plain count := by
  unfold marker? at found
  split at found
  · obtain ⟨length, here, same⟩ := Option.map_eq_some_iff.mp found
    cases same
    exact markerAfter?_plain here (by decide) (isPlain_of_all (by decide))
  · obtain ⟨length, here, same⟩ := Option.map_eq_some_iff.mp found
    cases same
    exact markerAfter?_plain here (by decide) (isPlain_of_all (by decide))
  · cases found

namespace Number

theorem digits_plain (text : Text) : text.Plain (digits text) :=
  .countWhile isPlain_of_isDigit text

theorem sign_plain (text : Text) : text.Plain (sign text) := by
  unfold sign
  split
  · exact .one (by decide)
  · exact .one (by decide)
  · exact .zero text

theorem exponent_plain (text : Text) : text.Plain (exponent text) := by
  unfold exponent
  split
  · exact .zero []
  · rename_i mark rest
    split
    · rename_i marked
      have plain : isPlain mark := by
        simp only [Bool.or_eq_true, beq_iff_eq] at marked
        rcases marked with rfl | rfl
        · decide
        · decide
      split
      · exact .zero _
      · rename_i count found
        have more := digits_plain (rest.drop (sign rest))
        rw [found] at more
        rw [Nat.add_assoc]
        exact .cons plain ((sign_plain rest).add more)
    · exact .zero _

theorem integer_plain (text : Text) : text.Plain (integer text) := by
  unfold integer
  split
  · rename_i rest
    split
    · exact .one (by decide)
    · rename_i count found
      have front : Text.Plain ('0' :: 'x' :: rest) 2 := .cons (by decide) (.one (by decide))
      have more := Text.Plain.countWhile isPlain_of_isHexDigit rest
      rw [found] at more
      exact front.add more
  · rename_i rest
    split
    · exact .one (by decide)
    · rename_i count found
      have front : Text.Plain ('0' :: 'b' :: rest) 2 := .cons (by decide) (.one (by decide))
      have more := Text.Plain.countWhile isPlain_of_isBinaryDigit rest
      rw [found] at more
      exact front.add more
  · rename_i rest _ _
    exact .cons (by decide) (.countWhile isPlain_of_isOctalDigit rest)
  · exact digits_plain text

theorem fraction_plain (whole : Nat) (text : Text) :
    text.Plain (fraction whole text) := by
  unfold fraction
  split
  · rename_i rest
    split
    · exact .cons (by decide) (digits_plain rest)
    · exact .zero _
  · exact .zero text

theorem float_plain (text : Text) : text.Plain (float text) := by
  have mantissa : text.Plain (digits text + fraction (digits text) (text.drop (digits text))) :=
    (digits_plain text).add (fraction_plain _ _)
  unfold float
  dsimp only
  split
  · exact .zero text
  · split
    · split
      · exact .zero text
      · exact mantissa
    · rename_i count found
      have more := exponent_plain
        (text.drop (digits text + fraction (digits text) (text.drop (digits text))))
      rw [found] at more
      exact mantissa.add more

end Number

theorem number?_plain {text : Text} {kind : TokenKind} {count : Nat}
    (found : number? text = some (kind, count)) : text.Plain count := by
  unfold number? at found
  split at found
  · cases found
    exact Number.float_plain text
  · split at found
    · cases found
      exact Number.integer_plain text
    · cases found

namespace Word

theorem atom_plain (text : Text) : text.Plain (atom text) := by
  unfold atom
  split
  · exact .zero []
  · rename_i first rest
    split
    · rename_i lower
      apply Text.Plain.cons (isPlain_of_isLower lower)
      apply Text.Plain.of_le (.countWhile isPlain_of_isHyphenated rest)
      have shorter := (List.dropWhile_suffix (l := (rest.takeWhile isHyphenated).reverse)
        (· == '-')).length_le
      rw [List.length_reverse] at shorter
      rw [Text.trimEnd, List.length_reverse]
      exact shorter
    · split
      · rename_i letter
        exact .cons (isPlain_of_isLetter letter)
          (.countWhile isPlain_of_isAlphanumeric rest)
      · exact .zero _

theorem length_plain (text : Text) : text.Plain (length text) := by
  induction text using length.induct with
  | case1 text found =>
      rw [length]
      split
      · exact .zero text
      · rename_i same
        rw [found] at same
        cases same
  | case2 text count found ih =>
      rw [length]
      split
      · exact .zero text
      · rename_i other same
        rw [found] at same
        cases same
        have separated : text.Plain (separators text) :=
          .countWhile (fun same => by simp only [beq_iff_eq] at same; subst same; decide) text
        have atoms := atom_plain (text.drop (separators text))
        rw [found] at atoms
        exact (separated.add atoms).add ih

end Word

theorem dollar?_plain {text : Text} {kind : TokenKind} {count : Nat}
    (found : dollar? text = some (kind, count)) : text.Plain count := by
  unfold dollar? at found
  split at found
  · rename_i rest
    split at found
    · cases found
      exact .one (by decide)
    · rename_i first behind
      split at found
      · rename_i letter
        cases found
        have front : Text.Plain ('$' :: first :: behind) 2 :=
          .cons (by decide) (.one (isPlain_of_isLetter letter))
        exact front.add (.countWhile isPlain_of_isAlphanumeric behind)
      · cases found
        exact .one (by decide)
  · cases found

namespace MarkupName

theorem tail_plain (text : Text) : text.Plain (tail text) := by
  induction text using tail.induct with
  | case1 => exact .zero []
  | case2 next rest joins ih =>
      rw [tail, if_pos joins]
      have plain : isPlain next := by
        simp only [Bool.or_eq_true, beq_iff_eq] at joins
        rcases joins with letter | rfl
        · exact isPlain_of_isLetter letter
        · decide
      have front : Text.Plain (':' :: next :: rest) 2 := .cons (by decide) (.one plain)
      exact front.add ih
  | case3 next rest apart =>
      rw [tail, if_neg apart]
      exact .zero _
  | case4 first rest other part ih =>
      rw [tail, if_pos part]
      · exact .cons (isPlain_of_isHyphenated part) ih
      · exact other
  | case5 first rest other apart =>
      rw [tail, if_neg apart]
      · exact .zero _
      · exact other

theorem name_plain (text : Text) : text.Plain (name text) := by
  unfold name
  split
  · rename_i first rest
    split
    · rename_i letter
      exact .cons (isPlain_of_isLetter letter) (tail_plain rest)
    · exact .zero _
  · exact .zero []

end MarkupName

theorem markupName?_plain {text : Text} {count : Nat}
    (found : markupName? text = some count) : text.Plain count := by
  unfold markupName? at found
  split at found
  · rename_i rest
    split at found
    · cases found
    · rename_i length named
      cases found
      have front : Text.Plain ('<' :: '%' :: rest) 2 := .cons (by decide) (.one (by decide))
      have more := MarkupName.name_plain rest
      rw [named] at more
      exact front.add more
  · rename_i rest _
    split at found
    · cases found
    · rename_i length named
      cases found
      have more := MarkupName.name_plain rest
      rw [named] at more
      exact .cons (by decide) more
  · cases found

theorem punctuations_plain :
    punctuations.all (fun entry => entry.1.all isPlain) = true := by
  decide

theorem punctuation?_plain {text : Text} {kind : TokenKind} {count : Nat}
    (found : punctuation? text = some (kind, count)) : text.Plain count := by
  obtain ⟨entry, first, same⟩ := Option.map_eq_some_iff.mp found
  cases same
  have starts : entry.1.isPrefixOf text := by
    simpa using List.find?_some first
  have listed := List.all_eq_true.mp punctuations_plain entry
    (List.mem_of_find?_eq_some first)
  exact .of_isPrefixOf starts (isPlain_of_all listed)

theorem Label.ofText?_plain {text : Text} {label : Label}
    (found : Label.ofText? text = some label) :
    text.Plain label.length ∧ text.take label.length = label.text := by
  unfold Label.ofText? at found
  split at found
  · cases found
  · rename_i first rest
    simp only [Option.ite_none_right_eq_some, Bool.and_eq_true, Option.some.injEq] at found
    obtain ⟨⟨upper, _⟩, rfl⟩ := found
    have more := Text.Plain.countWhile isPlain_of_isPart rest
    constructor
    · have plain := Text.Plain.cons (isPlain_of_isUpper upper) more
      rw [Nat.add_comm] at plain
      exact plain
    · change first :: rest.take (Text.countWhile Label.isPart rest) = _
      rw [Text.take_countWhile]
      rfl

theorem Label.isPlain_of_ofText? {text : Text} {label : Label}
    (found : Label.ofText? text = some label) :
    ∀ character, character ∈ label.text → isPlain character := by
  obtain ⟨plain, taken⟩ := Label.ofText?_plain found
  rw [← taken]
  exact plain.2

namespace Cursor

theorem offset_advance_of_plain {cursor : Cursor} {count : Nat}
    (plain : Text.Plain cursor.rest count) :
    (cursor.advance count).offset = cursor.offset + count := by
  rw [advance, plain.byteLength_take]

theorem line_advance_of_plain {cursor : Cursor} {count : Nat}
    (plain : Text.Plain cursor.rest count) :
    (cursor.advance count).line = cursor.line := by
  rw [advance, plain.lineFeeds_take]
  rfl

end Cursor

end HackLexer
