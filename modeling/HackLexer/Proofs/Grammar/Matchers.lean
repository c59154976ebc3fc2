import HackLexer.Proofs.Grammar
import HackLexer.Proofs.Lookahead

/-!
# What the matchers find

Each matcher gives a kind and a length, and the characters of that length belong to
the language of the kind.  For words this rests on the greed of their atoms: behind
an atom there is no letter, so that the next atom has backslashes in front of it.
-/

namespace HackLexer

open scoped Computability

namespace Grammar

theorem take_countWhile_mem (test : Char → Bool) (text : Text) :
    text.take (Text.countWhile test text) ∈ (oneOf test)∗ := by
  rw [Text.take_countWhile]
  apply mem_star_oneOf.mpr
  intro character member
  exact List.all_eq_true.mp List.all_takeWhile character member

theorem take_countWhile_mem_oneOrMore (test : Char → Bool) (text : Text)
    (positive : 0 < Text.countWhile test text) :
    text.take (Text.countWhile test text) ∈ oneOrMore (oneOf test) := by
  apply mem_oneOrMore_oneOf.mpr
  refine ⟨?_, mem_star_oneOf.mp (take_countWhile_mem test text)⟩
  rw [Text.take_countWhile]
  exact List.length_pos_iff.mp positive

theorem drop_countWhile (test : Char → Bool) (text : Text) :
    text.drop (Text.countWhile test text) = text.dropWhile test :=
  calc text.drop (Text.countWhile test text)
    _ = (text.takeWhile test ++ text.dropWhile test).drop (text.takeWhile test).length := by
      rw [List.takeWhile_append_dropWhile, Text.countWhile]
    _ = text.dropWhile test := List.drop_left

theorem cons_mem_oneOf_mul {test : Char → Bool} {language : Language Char} {first : Char}
    {rest : Text} (passes : test first) (more : rest ∈ language) :
    first :: rest ∈ oneOf test * language :=
  Language.append_mem_mul (mem_oneOf passes) more

theorem append_mem_spelling_mul {language : Language Char} (text : String) {rest : Text}
    (more : rest ∈ language) : text.toList ++ rest ∈ spelling text * language :=
  Language.append_mem_mul (mem_spelling text) more

end Grammar

namespace Number

open Grammar

/-- A radix mark and digits of its class, or a zero that the mark does not belong
to. -/
theorem radix_mem {test : Char → Bool} {first second : Char} {rest : Text}
    {language : Language Char} (mark : String) (spelled : mark.toList = [first, second])
    (single : [first] ∈ language) (marked : spelling mark * oneOrMore (oneOf test) ≤ language) :
    (first :: second :: rest).take (match Text.countWhile test rest with
      | 0 => 1
      | count + 1 => 2 + (count + 1) : Nat) ∈ language := by
  split
  · exact single
  · rename_i count digited
    have positive : 0 < Text.countWhile test rest := by omega
    have found := take_countWhile_mem_oneOrMore test rest positive
    have shape : (first :: second :: rest).take (2 + (count + 1)) =
        mark.toList ++ rest.take (Text.countWhile test rest) := by
      rw [digited, spelled, Nat.add_comm 2]
      rfl
    rw [shape]
    exact marked (append_mem_spelling_mul mark found)

theorem integer_mem {text : Text} (positive : 0 < integer text) :
    text.take (integer text) ∈ Grammar.int := by
  have zero : ['0'] ∈ Grammar.int :=
    .inl (.inr (append_mem_spelling_mul "0" (Language.nil_mem_kstar _)))
  match text with
  | [] => cases positive
  | first :: rest =>
      by_cases isZero : first = '0'
      · subst isZero
        unfold integer
        split
        · rename_i same
          cases same
          exact radix_mem "0x" (by decide) zero fun _ member => .inl (.inl (.inl member))
        · rename_i same
          cases same
          exact radix_mem "0b" (by decide) zero fun _ member => .inl (.inl (.inr member))
        · rename_i rest _ _ same
          cases same
          rw [Nat.add_comm]
          exact .inl (.inr (append_mem_spelling_mul "0" (take_countWhile_mem _ rest)))
        · rename_i noZero
          exact absurd rfl (noZero rest)
      · have isDigit : first.isDigit := by
          rw [integer_decimal isZero, digits, Text.countWhile_cons] at positive
          by_contra noDigit
          rw [if_neg noDigit] at positive
          omega
        rw [integer_decimal isZero, digits, Text.countWhile_cons, if_pos isDigit]
        have passes : isPositiveDigit first := by simp [isPositiveDigit, isDigit, isZero]
        exact .inr (cons_mem_oneOf_mul passes (take_countWhile_mem Char.isDigit rest))

theorem sign_mem (text : Text) :
    text.take (sign text) ∈ (1 + spelling "+" + spelling "-" : Language Char) := by
  unfold sign
  split
  · exact .inl (.inr rfl)
  · exact .inr rfl
  · exact .inl (.inl rfl)

theorem exponent_mem {text : Text} (positive : 0 < exponent text) :
    text.take (exponent text) ∈ Grammar.exponent := by
  match text with
  | [] => cases positive
  | mark :: rest =>
      by_cases isMark : mark == 'e' || mark == 'E'
      · rw [exponent_mark isMark] at positive ⊢
        split
        · rename_i none
          rw [if_pos none] at positive
          cases positive
        · rename_i some
          have digited := take_countWhile_mem_oneOrMore _ _ (Nat.pos_of_ne_zero some)
          have shape : (mark :: rest).take (1 + sign rest + digits (rest.drop (sign rest))) =
              [mark] ++ rest.take (sign rest) ++
                (rest.drop (sign rest)).take (digits (rest.drop (sign rest))) := by
            rw [Nat.add_assoc, Nat.add_comm 1, List.take_succ_cons, List.take_add]
            rfl
          rw [shape]
          apply Language.append_mem_mul _ digited
          exact Language.append_mem_mul (mem_oneOf isMark) (sign_mem rest)
      · rw [exponent, if_neg isMark] at positive
        cases positive

theorem exponent_mem_optional (text : Text) :
    text.take (exponent text) ∈ 1 + Grammar.exponent := by
  rcases Nat.eq_zero_or_pos (exponent text) with none | some
  · rw [none]
    exact .inl rfl
  · exact .inr (exponent_mem some)

theorem fraction_pos {whole : Nat} {text : Text} (positive : 0 < fraction whole text) :
    ∃ rest, text = '.' :: rest ∧ fraction whole text = 1 + digits rest ∧
      (0 < whole ∨ 0 < digits rest) := by
  unfold fraction at positive ⊢
  split at positive
  · rename_i rest
    split at positive
    · rename_i digited
      exact ⟨rest, rfl, if_pos digited, digited⟩
    · cases positive
  · cases positive

theorem float_mem {text : Text} (positive : 0 < float text) :
    text.take (float text) ∈ Grammar.float := by
  rw [float_eq rfl rfl rfl] at positive ⊢
  generalize pointed : fraction (digits text) (text.drop (digits text)) = point at *
  split
  · rename_i none
    rw [if_pos none] at positive
    cases positive
  · rename_i some
    have power := exponent_mem_optional (text.drop (digits text + point))
    rw [List.take_add, List.take_add]
    rcases Nat.eq_zero_or_pos point with noPoint | hasPoint
    · subst noPoint
      have hasDigits : 0 < digits text := by omega
      have digited := take_countWhile_mem_oneOrMore Char.isDigit text hasDigits
      rw [List.take_zero, List.append_nil]
      apply Or.inr
      apply Language.append_mem_mul digited
      apply exponent_mem
      omega
    · rw [← pointed] at hasPoint
      obtain ⟨rest, dropped, length, digited⟩ := fraction_pos hasPoint
      have fractional : (text.drop (digits text)).take point =
          ".".toList ++ rest.take (digits rest) := by
        rw [← pointed, length, dropped, Nat.add_comm]
        rfl
      rw [fractional]
      apply Or.inl
      rcases Nat.eq_zero_or_pos (digits text) with noWhole | hasWhole
      · have behind := take_countWhile_mem_oneOrMore Char.isDigit rest
          (digited.resolve_left (by omega))
        rw [noWhole] at power ⊢
        rw [List.take_zero, List.nil_append]
        exact .inr (Language.append_mem_mul (append_mem_spelling_mul "." behind) power)
      · have whole := take_countWhile_mem_oneOrMore Char.isDigit text hasWhole
        have behind := take_countWhile_mem Char.isDigit rest
        rw [← List.append_assoc]
        apply Or.inl
        apply Language.append_mem_mul _ power
        apply Language.append_mem_mul _ behind
        exact Language.append_mem_mul whole (mem_spelling ".")

end Number

theorem number?_mem {text : Text} {kind : TokenKind} {count : Nat}
    (found : number? text = some (kind, count)) :
    text.take count ∈ kind.language ∧ kind.hasValue = false := by
  unfold number? at found
  split at found
  · cases found
    exact ⟨Number.float_mem (by omega), rfl⟩
  · split at found
    · rename_i positive
      cases found
      exact ⟨Number.integer_mem positive, rfl⟩
    · cases found

namespace Word

open Grammar

/-- The letters, digits and hyphens at the front of a text: those that an atom
keeps, and the hyphens that are trimmed off behind them. -/
theorem hyphenated_split (text : Text) :
    ∃ kept hyphens behind, text = kept ++ hyphens ++ behind ∧
      Text.trimEnd (· == '-') (text.takeWhile isHyphenated) = kept ∧
      (∀ character, character ∈ kept → isHyphenated character) ∧
      (∀ character, character ∈ hyphens → character = '-') ∧
      (∀ character, character ∈ behind.head? → isHyphenated character = false) ∧
      (kept = [] ∨ ∃ front last, kept = front ++ [last] ∧ last ≠ '-') := by
  obtain ⟨removed, whole, hyphens, trimmed⟩ :=
    Text.trimEnd_split (· == '-') (text.takeWhile isHyphenated)
  refine ⟨_, removed, text.dropWhile isHyphenated, ?_, rfl, ?_, ?_, ?_, ?_⟩
  · rw [← whole]
    exact List.takeWhile_append_dropWhile.symm
  · intro character member
    have inside : character ∈ text.takeWhile isHyphenated := by
      rw [whole]
      exact List.mem_append_left removed member
    exact List.all_eq_true.mp List.all_takeWhile character inside
  · intro character member
    exact eq_of_beq (hyphens character member)
  · intro character member
    have failing := List.head?_dropWhile_not isHyphenated text
    rw [Option.mem_def.mp member] at failing
    exact failing
  · rcases List.eq_nil_or_concat
      (Text.trimEnd (· == '-') (text.takeWhile isHyphenated)) with empty | ⟨front, last, ends⟩
    · exact .inl empty
    · rw [List.concat_eq_append] at ends
      refine .inr ⟨front, last, ends, ?_⟩
      have noHyphen := trimmed last (by rw [ends]; exact List.getLast?_concat)
      exact ne_of_beq_false noHyphen

theorem isAlphanumeric_of_isHyphenated {character : Char} (hyphenated : isHyphenated character)
    (noHyphen : character ≠ '-') : isAlphanumeric character := by
  simpa [isHyphenated, noHyphen] using hyphenated

theorem isHyphenated_of_isLetter {character : Char} (letter : isLetter character) :
    isHyphenated character := by
  simp [isHyphenated, isAlphanumeric, letter]

theorem atom_mem {text : Text} (positive : 0 < atom text) :
    text.take (atom text) ∈ Grammar.atom := by
  match text with
  | [] => cases positive
  | first :: rest =>
      by_cases lower : first.isLower
      · obtain ⟨kept, hyphens, behind, whole, trimmed, hyphenated, _, _, ending⟩ :=
          hyphenated_split rest
        rw [atom, if_pos lower, trimmed, Nat.add_comm, List.take_succ_cons, whole,
          List.append_assoc, List.take_left]
        rcases ending with rfl | ⟨front, last, rfl, noHyphen⟩
        · have letter := isLetter_of_isLower lower
          exact .inl (cons_mem_oneOf_mul letter (Language.nil_mem_kstar _))
        · have closing : isAlphanumeric last :=
            isAlphanumeric_of_isHyphenated (hyphenated last (by simp)) noHyphen
          apply Or.inr
          apply Language.append_mem_mul (a := first :: front) _ (mem_oneOf closing)
          apply cons_mem_oneOf_mul lower
          apply mem_star_oneOf.mpr
          intro character member
          exact hyphenated character (List.mem_append_left _ member)
      · rw [atom, if_neg lower] at positive ⊢
        by_cases letter : isLetter first
        · rw [if_pos letter, Nat.add_comm]
          exact .inl (cons_mem_oneOf_mul letter (take_countWhile_mem isAlphanumeric rest))
        · rw [if_neg letter] at positive
          cases positive

theorem atom_of_no_letter {text : Text}
    (noLetter : ∀ character, character ∈ text.head? → isLetter character = false) :
    atom text = 0 := by
  match text with
  | [] => rfl
  | first :: rest =>
      have other := noLetter first rfl
      have noLower : ¬ first.isLower := by
        intro lower
        rw [isLetter_of_isLower lower] at other
        cases other
      rw [atom, if_neg noLower, if_neg (by rw [other]; decide)]

theorem atom_eq_zero_iff {text : Text} :
    atom text = 0 ↔ ∀ character, character ∈ text.head? → isLetter character = false := by
  refine ⟨?_, atom_of_no_letter⟩
  intro none character head
  obtain ⟨rest, rfl⟩ := List.head?_eq_some_iff.mp head
  by_contra letter
  rw [atom, if_pos (Bool.eq_true_of_not_eq_false letter)] at none
  split at none <;> omega

/-- An atom is as long as it can be: none follows it at once. -/
theorem atom_drop_atom {text : Text} (positive : 0 < atom text) :
    atom (text.drop (atom text)) = 0 := by
  apply atom_of_no_letter
  intro character member
  cases text with
  | nil => cases positive
  | cons first rest =>
      by_cases lower : first.isLower
      · obtain ⟨kept, hyphens, behind, whole, trimmed, _, hyphen, stops, _⟩ :=
          hyphenated_split rest
        rw [atom, if_pos lower, trimmed, Nat.add_comm, List.drop_succ_cons, whole,
          List.append_assoc, List.drop_left] at member
        cases hyphens with
        | nil =>
            by_contra letter
            have hyphenated := isHyphenated_of_isLetter (Bool.eq_true_of_not_eq_false letter)
            rw [stops character member] at hyphenated
            cases hyphenated
        | cons first more =>
            cases member
            rw [hyphen character List.mem_cons_self]
            decide
      · rw [atom, if_neg lower] at positive member
        by_cases letter : isLetter first
        · have stops := List.head?_dropWhile_not isAlphanumeric rest
          rw [if_pos letter, Nat.add_comm, List.drop_succ_cons, drop_countWhile] at member
          rw [Option.mem_def.mp member] at stops
          simp only [isAlphanumeric, Bool.or_eq_false_iff] at stops
          exact stops.2
        · rw [if_neg letter] at positive
          cases positive

theorem separators_language : oneOf (· == '\\') = backslash := by
  ext shown
  constructor
  · rintro ⟨character, isBackslash, rfl⟩
    rw [eq_of_beq isBackslash]
    rfl
  · rintro rfl
    exact mem_oneOf rfl

/-- What goes on behind an atom: further atoms, each with backslashes in front of
it. -/
theorem length_mem_continued {text : Text} (none : atom text = 0) :
    text.take (length text) ∈ (oneOrMore backslash * Grammar.atom)∗ := by
  induction size : text.length using Nat.strongRecOn generalizing text with
  | ind size ih =>
      subst size
      rw [length_eq]
      split
      · exact Language.nil_mem_kstar _
      · rename_i some
        have positive := Nat.pos_of_ne_zero some
        have nonempty : 0 < text.length := by
          by_contra empty
          have nil := List.length_eq_zero_iff.mp (Nat.eq_zero_of_not_pos empty)
          rw [nil] at positive
          cases positive
        have separated : 0 < separators text := by
          by_contra noSeparator
          rw [Nat.eq_zero_of_not_pos noSeparator, List.drop_zero] at some
          exact some none
        have behind := atom_drop_atom positive
        rw [List.drop_drop] at behind
        have continued := ih _ (by rw [List.length_drop]; omega) behind rfl
        rw [List.take_add, List.take_add]
        apply append_mem_star _ continued
        apply Language.append_mem_mul _ (atom_mem positive)
        rw [← separators_language]
        exact take_countWhile_mem_oneOrMore _ text separated

theorem length_mem {text : Text} (positive : 0 < length text) :
    text.take (length text) ∈ Grammar.word := by
  rw [length_eq] at positive ⊢
  split
  · rename_i none
    rw [if_pos none] at positive
    cases positive
  · rename_i some
    have hasAtom := Nat.pos_of_ne_zero some
    have behind := atom_drop_atom hasAtom
    rw [List.drop_drop] at behind
    rw [List.take_add, List.take_add]
    apply Language.append_mem_mul _ (length_mem_continued behind)
    apply Language.append_mem_mul _ (atom_mem hasAtom)
    rw [← separators_language]
    exact take_countWhile_mem _ text

end Word

/-- A word stands where a letter follows the backslashes at the front of a text. -/
theorem word?_eq_none_iff {text : Text} :
    word? text = none ↔ ∀ character, character ∈ (text.dropWhile (· == '\\')).head? →
      isLetter character = false := by
  rw [← Grammar.drop_countWhile, ← Word.separators, ← Word.atom_eq_zero_iff]
  constructor
  · intro missing
    by_contra some
    unfold word? at missing
    split at missing
    · rename_i none
      rw [Word.length_eq, if_neg some] at none
      omega
    · split at missing <;> cases missing
  · intro none
    unfold word?
    rw [Word.length_eq, if_pos none]

theorem Keyword.mem_of_ofSpelling? {text : Text} {keyword : Keyword}
    (found : ofSpelling? text = some keyword) :
    text ∈ (TokenKind.keyword keyword).language :=
  ofSpelling?_eq_some_iff.mp found

theorem word?_mem {text : Text} {kind : TokenKind} {count : Nat}
    (found : word? text = some (kind, count)) :
    text.take count ∈ kind.language ∧ kind.hasValue = false := by
  unfold word? at found
  split at found
  · cases found
  · rename_i length spelled
    split at found
    · rename_i keyword reserved
      cases found
      exact ⟨Keyword.mem_of_ofSpelling? reserved, rfl⟩
    · rename_i unreserved
      cases found
      have positive : 0 < Word.length text := by omega
      have member := Word.length_mem positive
      rw [spelled] at member
      exact ⟨⟨member, unreserved⟩, rfl⟩

theorem dollar?_mem {text : Text} {kind : TokenKind} {count : Nat}
    (found : dollar? text = some (kind, count)) :
    text.take count ∈ kind.language ∧ kind.hasValue = false := by
  unfold dollar? at found
  split at found
  · split at found
    · cases found
      exact ⟨rfl, rfl⟩
    · rename_i first rest
      split at found
      · rename_i letter
        cases found
        have identified : first :: rest.take (Text.countWhile isAlphanumeric rest) ∈
            Grammar.identifier :=
          Grammar.cons_mem_oneOf_mul letter (Grammar.take_countWhile_mem isAlphanumeric rest)
        rw [Nat.add_comm]
        exact ⟨Grammar.append_mem_spelling_mul "$" identified, rfl⟩
      · cases found
        exact ⟨rfl, rfl⟩
  · cases found

namespace MarkupName

open Grammar

theorem tail_mem (text : Text) :
    text.take (tail text) ∈
      (oneOf isAlphanumeric + spelling "-" + spelling ":" * (oneOf isLetter + spelling "-"))∗ := by
  induction text using tail.induct with
  | case1 => exact Language.nil_mem_kstar _
  | case2 next rest named ih =>
      rw [tail_colon_next, if_pos named, Nat.add_comm]
      have linked : [next] ∈ oneOf isLetter + spelling "-" := by
        rcases Bool.or_eq_true_iff.mp named with letter | hyphen
        · exact .inl (mem_oneOf letter)
        · exact .inr (by rw [eq_of_beq hyphen]; rfl)
      have pair : [':', next] ∈ spelling ":" * (oneOf isLetter + spelling "-") :=
        append_mem_spelling_mul ":" linked
      exact append_mem_star (.inr pair) ih
  | case3 next rest unnamed =>
      rw [tail_colon_next, if_neg unnamed]
      exact Language.nil_mem_kstar _
  | case4 first rest _ named ih =>
      have noColon : first ≠ ':' := by
        rintro rfl
        exact absurd named (by decide)
      rw [tail_cons noColon, if_pos named, Nat.add_comm]
      have single : [first] ∈ oneOf isAlphanumeric + spelling "-" := by
        rcases Bool.or_eq_true_iff.mp named with alphanumeric | hyphen
        · exact .inl (mem_oneOf alphanumeric)
        · exact .inr (by rw [eq_of_beq hyphen]; rfl)
      have joined := append_mem_star (.inl single) ih
      exact joined
  | case5 first rest single unnamed =>
      have none : tail (first :: rest) = 0 := by
        rw [tail, if_neg unnamed]
        exact single
      rw [none]
      exact Language.nil_mem_kstar _

theorem name_mem {text : Text} (positive : 0 < name text) :
    text.take (name text) ∈ oneOf isLetter *
      (oneOf isAlphanumeric + spelling "-" + spelling ":" * (oneOf isLetter + spelling "-"))∗ := by
  match text with
  | [] => cases positive
  | first :: rest =>
      by_cases letter : isLetter first
      · rw [name, if_pos letter, Nat.add_comm]
        exact cons_mem_oneOf_mul letter (tail_mem rest)
      · rw [name, if_neg letter] at positive
        cases positive

end MarkupName

theorem markupName?_mem {text : Text} {count : Nat} (found : markupName? text = some count) :
    text.take count ∈ TokenKind.xhpName.language := by
  unfold markupName? at found
  split at found
  · rename_i rest
    split at found
    · cases found
    · rename_i length named
      cases found
      have member := @MarkupName.name_mem rest (by omega)
      rw [named] at member
      have behind : '%' :: rest.take (length + 1) ∈ Grammar.markupName := by
        rw [Grammar.markupName, mul_assoc]
        have percent : ['%'] ∈ 1 + Grammar.spelling "%" := .inr rfl
        exact Language.append_mem_mul percent member
      rw [Nat.add_comm]
      exact Grammar.append_mem_spelling_mul "<" behind
  · rename_i rest _
    split at found
    · cases found
    · rename_i length named
      cases found
      have member := @MarkupName.name_mem rest (by omega)
      rw [named] at member
      have behind : rest.take (length + 1) ∈ Grammar.markupName := by
        rw [Grammar.markupName, mul_assoc]
        have nothing : [] ∈ 1 + Grammar.spelling "%" := .inl rfl
        exact Language.append_mem_mul nothing member
      rw [Nat.add_comm]
      exact Grammar.append_mem_spelling_mul "<" behind
  · cases found

/-- The kinds of the table are those whose language is read off it. -/
theorem language_of_mem_punctuations {text : Text} {kind : TokenKind}
    (listed : (text, kind) ∈ punctuations) : text ∈ kind.language ∧ kind.hasValue = false := by
  cases kind <;> first
    | exact ⟨listed, rfl⟩
    | simp [punctuations] at listed

theorem punctuation?_mem {text : Text} {kind : TokenKind} {count : Nat}
    (found : punctuation? text = some (kind, count)) :
    text.take count ∈ kind.language ∧ kind.hasValue = false := by
  obtain ⟨⟨spelling, listed⟩, first, same⟩ := Option.map_eq_some_iff.mp found
  cases same
  have matched := List.find?_some first
  have front := List.prefix_iff_eq_take.mp (List.isPrefixOf_iff_prefix.mp matched)
  simp only [← front]
  exact language_of_mem_punctuations (List.mem_of_find?_eq_some first)

/-- A comment opener, blanks and a marker, as they were looked for. -/
theorem markerAfter?_mem {opener name : String} {first second : Char} {behind : Text} {count : Nat}
    (spelled : opener.toList = [first, second])
    (found : markerAfter? name.toList behind = some count) :
    (first :: second :: behind).take count ∈ Grammar.marker opener name := by
  simp only [markerAfter?, Option.ite_none_right_eq_some, Option.some.injEq] at found
  obtain ⟨front, rfl⟩ := found
  have named := List.prefix_iff_eq_take.mp (List.isPrefixOf_iff_prefix.mp front)
  have shape : (first :: second :: behind).take
        (2 + Text.countWhile isBlank behind + name.toList.length) =
      opener.toList ++ behind.take (Text.countWhile isBlank behind) ++ name.toList := by
    rw [Nat.add_assoc, Nat.add_comm 2, List.take_succ_cons, List.take_succ_cons, List.take_add,
      ← named, spelled]
    rfl
  rw [shape]
  apply Language.append_mem_mul _ (Grammar.mem_spelling name)
  exact Grammar.append_mem_spelling_mul opener (Grammar.take_countWhile_mem isBlank behind)

theorem marker?_mem {text : Text} {kind : TokenKind} {count : Nat}
    (found : marker? text = some (kind, count)) :
    text.take count ∈ kind.language ∧ kind.hasValue = false := by
  unfold marker? at found
  split at found
  · obtain ⟨length, marked, same⟩ := Option.map_eq_some_iff.mp found
    cases same
    exact ⟨markerAfter?_mem (by decide) marked, rfl⟩
  · obtain ⟨length, marked, same⟩ := Option.map_eq_some_iff.mp found
    cases same
    exact ⟨markerAfter?_mem (by decide) marked, rfl⟩
  · cases found

end HackLexer
