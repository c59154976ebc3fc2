import HackLexer.Proofs.Grammar.Matchers

/-!
# Longest matches

A matcher finds the longest front of a text that belongs to its language.  For a
matcher that measures words this follows from three facts: what it finds is a word,
a word that stands alone is found whole, and cutting a text behind what is found
changes nothing.  For the table of fixed spellings it follows from the order of the
table.
-/

namespace HackLexer

/-- The longest of the fronts of a text that belong to a language. -/
structure LongestFront (language : Language Char) (text front : Text) : Prop where
  starts : front <+: text
  member : front ∈ language
  longest : ∀ other, other <+: text → other ∈ language → other.length ≤ front.length

namespace LongestFront

variable {language : Language Char} {text front other : Text}

theorem unique (one : LongestFront language text front)
    (another : LongestFront language text other) : front = other := by
  have shorter := another.longest front one.starts one.member
  have longer := one.longest other another.starts another.member
  exact (List.prefix_of_prefix_length_le one.starts another.starts shorter).eq_of_length_le longer

theorem take_length (longest : LongestFront language text front) :
    text.take front.length = front :=
  (List.prefix_iff_eq_take.mp longest.starts).symm

/-- What stands behind a longest front does not go on with a class of characters
that its language takes in. -/
theorem next_fails {test : Char → Bool} (longest : LongestFront language text front)
    (closed : language * Grammar.oneOf test ≤ language) {next : Char}
    (behind : (text.drop front.length).head? = some next) : test next = false := by
  obtain ⟨rest, dropped⟩ := List.head?_eq_some_iff.mp behind
  have whole : text = front ++ [next] ++ rest := by
    calc
      text = text.take front.length ++ text.drop front.length :=
        (List.take_append_drop front.length text).symm
      _ = front ++ [next] ++ rest := by
        rw [longest.take_length, dropped, List.append_assoc]
        rfl
  by_contra passes
  have extended : front ++ [next] ∈ language :=
    closed (Language.append_mem_mul longest.member
      (Grammar.mem_oneOf (Bool.eq_true_of_not_eq_false passes)))
  have shorter := longest.longest (front ++ [next]) ⟨rest, whole.symm⟩ extended
  rw [List.length_append, List.length_singleton] at shorter
  omega

end LongestFront

/-- A length function that measures the words of a language at the front of a text:
where it is positive, it gives a word; it measures a word that stands alone whole; and
cutting a text behind what it measures does not change it. -/
structure Measures (length : Text → Nat) (language : Language Char) : Prop where
  nonempty : [] ∉ language
  found : ∀ {text : Text}, 0 < length text → text.take (length text) ∈ language
  whole : ∀ {word : Text}, word ∈ language → length word = word.length
  cut : ∀ {text tail : Text}, length (text ++ tail) ≤ text.length →
    length text = length (text ++ tail)

namespace Measures

variable {length other : Text → Nat} {language another : Language Char} {text front : Text}

theorem le_length (measures : Measures length language) (text : Text) :
    length text ≤ text.length := by
  by_contra beyond
  have word := measures.found (by omega : 0 < length text)
  rw [List.take_of_length_le (by omega)] at word
  exact beyond (Nat.le_of_eq (measures.whole word))

/-- No word at the front of a text is longer than what is measured: else the word
alone would be measured shorter than it is. -/
theorem length_le (measures : Measures length language) (starts : front <+: text)
    (member : front ∈ language) : front.length ≤ length text := by
  obtain ⟨tail, rfl⟩ := starts
  by_contra shorter
  have same := measures.cut (by omega : length (front ++ tail) ≤ front.length)
  have whole := measures.whole member
  omega

theorem longestFront (measures : Measures length language) (positive : 0 < length text) :
    LongestFront language text (text.take (length text)) := by
  constructor
  · exact List.take_prefix _ text
  · exact measures.found positive
  · intro other starts member
    rw [List.length_take, Nat.min_eq_left (measures.le_length text)]
    exact measures.length_le starts member

theorem longestFront_iff (measures : Measures length language) :
    LongestFront language text front ↔ 0 < length text ∧ front = text.take (length text) := by
  constructor
  · intro longest
    have filled : 0 < front.length := by
      apply List.length_pos_iff.mpr
      rintro rfl
      exact measures.nonempty longest.member
    have positive : 0 < length text :=
      Nat.lt_of_lt_of_le filled (measures.length_le longest.starts longest.member)
    exact ⟨positive, longest.unique (measures.longestFront positive)⟩
  · rintro ⟨positive, rfl⟩
    exact measures.longestFront positive

theorem length_eq (measures : Measures length language)
    (longest : LongestFront language text front) : front.length = length text := by
  obtain ⟨_, rfl⟩ := measures.longestFront_iff.mp longest
  rw [List.length_take, Nat.min_eq_left (measures.le_length text)]

theorem eq_zero_iff (measures : Measures length language) :
    length text = 0 ↔ ∀ front, front <+: text → front ∉ language := by
  constructor
  · intro none front starts member
    have shorter := measures.length_le starts member
    rw [none, Nat.le_zero, List.length_eq_zero_iff] at shorter
    subst shorter
    exact measures.nonempty member
  · intro missing
    by_contra some
    exact missing _ (List.take_prefix _ text) (measures.found (Nat.pos_of_ne_zero some))

/-- The longer of two measures measures the words of both languages. -/
theorem union (one : Measures length language) (two : Measures other another) :
    Measures (fun text => max (length text) (other text)) (language + another) where
  nonempty member := member.elim one.nonempty two.nonempty
  found {text} positive := by
    rcases Nat.le_total (length text) (other text) with shorter | longer
    · rw [Nat.max_eq_right shorter] at positive ⊢
      exact .inr (two.found positive)
    · rw [Nat.max_eq_left longer] at positive ⊢
      exact .inl (one.found positive)
  whole {word} member := by
    rcases member with first | second
    · have bound := two.le_length word
      rw [← one.whole first] at bound ⊢
      exact Nat.max_eq_left bound
    · have bound := one.le_length word
      rw [← two.whole second] at bound ⊢
      exact Nat.max_eq_right bound
  cut {text tail} within := by
    have bounds := Nat.max_le.mp within
    rw [one.cut bounds.1, two.cut bounds.2]

end Measures

/-- No spelling of a table stands in front of one that it starts. -/
def SpelledInOrder (table : List (Text × TokenKind)) : Prop :=
  table.Pairwise fun earlier later => ¬ earlier.1 <+: later.1

namespace SpelledInOrder

/-- The first entry of an ordered table that starts a text has the longest
spelling. -/
theorem length_le_of_find? {table : List (Text × TokenKind)} {text : Text}
    {first : Text × TokenKind} (ordered : SpelledInOrder table)
    (found : table.find? (fun entry => entry.1.isPrefixOf text) = some first) :
    ∀ other ∈ table, other.1 <+: text → other.1.length ≤ first.1.length := by
  induction table with
  | nil => cases found
  | cons head tail ih =>
      obtain ⟨before, behind⟩ := List.pairwise_cons.mp ordered
      intro other member starts
      by_cases matched : head.1.isPrefixOf text
      · have same : head = first := by simpa [matched] using found
        subst same
        rcases List.mem_cons.mp member with rfl | later
        · exact Nat.le_refl _
        · have front := List.isPrefixOf_iff_prefix.mp matched
          have shorter := (List.prefix_or_prefix_of_prefix front starts).resolve_left
            (before other later)
          exact shorter.length_le
      · have further : tail.find? (fun entry => entry.1.isPrefixOf text) = some first := by
          simpa [matched] using found
        rcases List.mem_cons.mp member with rfl | later
        · exact absurd (List.isPrefixOf_iff_prefix.mpr starts) matched
        · exact ih behind further other later starts

/-- An ordered table lists no spelling twice. -/
theorem eq_of_spelling {table : List (Text × TokenKind)} (ordered : SpelledInOrder table) :
    ∀ one ∈ table, ∀ other ∈ table, one.1 = other.1 → one = other := by
  have distinct : (table.map Prod.fst).Nodup := by
    apply List.pairwise_map.mpr
    apply List.Pairwise.imp _ ordered
    intro earlier later apart same
    exact apart (same ▸ List.prefix_refl _)
  intro one member other otherMember same
  exact List.inj_on_of_nodup_map distinct member otherMember same

end SpelledInOrder

namespace Grammar

/-- The fixed spellings of the table. -/
def punctuation : Language Char :=
  {spelling | ∃ kind, (spelling, kind) ∈ punctuations}

theorem punctuations_inOrder : SpelledInOrder punctuations := by
  unfold SpelledInOrder
  decide +kernel

theorem punctuations_kinds_nodup : (punctuations.map Prod.snd).Nodup := by
  decide +kernel

end Grammar

/-- The first spelling of the table that starts a text is the longest one. -/
theorem longestFront_of_find? {text : Text} {first : Text × TokenKind}
    (found : punctuations.find? (fun entry => entry.1.isPrefixOf text) = some first) :
    LongestFront Grammar.punctuation text first.1 := by
  have matched : first.1.isPrefixOf text := by simpa using List.find?_some found
  constructor
  · exact List.isPrefixOf_iff_prefix.mp matched
  · exact ⟨first.2, List.mem_of_find?_eq_some found⟩
  · rintro other starts ⟨kind, listed⟩
    exact Grammar.punctuations_inOrder.length_le_of_find? found (other, kind) listed starts

theorem punctuation?_eq_some_iff {text : Text} {kind : TokenKind} {count : Nat} :
    punctuation? text = some (kind, count) ↔
      ∃ front, LongestFront Grammar.punctuation text front ∧ (front, kind) ∈ punctuations ∧
        front.length = count := by
  constructor
  · intro found
    obtain ⟨⟨front, _⟩, first, same⟩ := Option.map_eq_some_iff.mp found
    cases same
    exact ⟨front, longestFront_of_find? first, List.mem_of_find?_eq_some first, rfl⟩
  · rintro ⟨front, longest, listed, rfl⟩
    cases first : punctuations.find? (fun entry => entry.1.isPrefixOf text) with
    | none =>
        have refused := List.find?_eq_none.mp first (front, kind) listed
        exact absurd (List.isPrefixOf_iff_prefix.mpr longest.starts) refused
    | some entry =>
        have same : entry = (front, kind) :=
          Grammar.punctuations_inOrder.eq_of_spelling entry (List.mem_of_find?_eq_some first)
            (front, kind) listed ((longestFront_of_find? first).unique longest)
        rw [punctuation?, first, same]
        rfl

theorem punctuation?_isSome_iff {text : Text} :
    (punctuation? text).isSome ↔ ∃ entry ∈ punctuations, entry.1 <+: text := by
  rw [punctuation?, Option.isSome_map, List.find?_isSome]
  simp only [List.isPrefixOf_iff_prefix]

theorem eq_of_kind {one other : Text × TokenKind} (listed : one ∈ punctuations)
    (otherListed : other ∈ punctuations) (same : one.2 = other.2) : one = other :=
  List.inj_on_of_nodup_map Grammar.punctuations_kinds_nodup listed otherListed same

/-- A fixed spelling is found where one of the table starts the text, and it is the
longest one that does, with its kind.  Different spellings have different kinds, so
that the kind tells which characters were found. -/
theorem punctuation?_longest :
    (∀ text, (punctuation? text).isSome ↔ ∃ entry ∈ punctuations, entry.1 <+: text) ∧
    (∀ text kind count, punctuation? text = some (kind, count) ↔
      ∃ front, LongestFront Grammar.punctuation text front ∧ (front, kind) ∈ punctuations ∧
        front.length = count ∧ Text.byteLength front = count) ∧
    (∀ one ∈ punctuations, ∀ other ∈ punctuations, one.1 ≠ other.1 ↔ one.2 ≠ other.2) ∧
    ∀ text other kind count more, punctuation? text = some (kind, count) →
      punctuation? other = some (kind, more) → text.take count = other.take more := by
  refine ⟨fun text => punctuation?_isSome_iff, ?_, ?_, ?_⟩
  · intro text kind count
    constructor
    · intro found
      obtain ⟨front, longest, listed, rfl⟩ := punctuation?_eq_some_iff.mp found
      have bytes := (punctuation?_plain found).byteLength_take
      rw [longest.take_length] at bytes
      exact ⟨front, longest, listed, rfl, bytes⟩
    · rintro ⟨front, longest, listed, length, _⟩
      exact punctuation?_eq_some_iff.mpr ⟨front, longest, listed, length⟩
  · intro one listed other otherListed
    constructor
    · intro apart same
      exact apart (congrArg Prod.fst (eq_of_kind listed otherListed same))
    · intro apart same
      have equal := Grammar.punctuations_inOrder.eq_of_spelling one listed other otherListed same
      exact apart (congrArg Prod.snd equal)
  · intro text other kind count more found otherFound
    obtain ⟨front, longest, listed, rfl⟩ := punctuation?_eq_some_iff.mp found
    obtain ⟨otherFront, otherLongest, otherListed, rfl⟩ := punctuation?_eq_some_iff.mp otherFound
    rw [longest.take_length, otherLongest.take_length]
    exact congrArg Prod.fst (eq_of_kind listed otherListed rfl)

/-- A spelling of three characters, of which the first one and the first two are
spellings as well, at the front of two texts. -/
theorem shift_assignment_longest :
    let text := "<<==".toList
    let other := "<<=$b".toList
    punctuation? text = some (.shiftLeftEq, 3) ∧ punctuation? other = some (.shiftLeftEq, 3) ∧
      LongestFront Grammar.punctuation text "<<=".toList ∧ text.take 3 = other.take 3 ∧
      ("<<".toList, TokenKind.shiftLeft) ∈ punctuations ∧ TokenKind.shiftLeftEq ≠ .shiftLeft := by
  intro text other
  have found : punctuation? text = some (.shiftLeftEq, 3) := by decide
  have otherFound : punctuation? other = some (.shiftLeftEq, 3) := by decide
  have listed : ("<<=".toList, TokenKind.shiftLeftEq) ∈ punctuations := by decide
  have shorterListed : ("<<".toList, TokenKind.shiftLeft) ∈ punctuations := by decide
  obtain ⟨_, found_iff, distinct, determined⟩ := punctuation?_longest
  obtain ⟨front, longest, _, length, _⟩ := (found_iff text .shiftLeftEq 3).mp found
  have same : front = "<<=".toList := by
    rw [← longest.take_length, length]
    rfl
  subst same
  have apart := (distinct _ listed _ shorterListed).mp (by decide)
  exact ⟨found, otherFound, longest, determined text other .shiftLeftEq 3 3 found otherFound,
    shorterListed, apart⟩

end HackLexer
