import HackLexer.Proofs.Lookahead
import HackLexer.Proofs.ScanOutcomes

/-!
# Trees of markup elements

An element has a name and attributes and either closes itself or encloses
children, which are words or again elements.  A tree of elements is written as
markup text, and its flattening lists the kinds and texts of its tokens in the
order in which they are written.

The second part of the module tells what the recognisers find at the front of
the pieces of which such a text is made.
-/

namespace HackLexer

/-- A lower-case letter with lower-case letters and digits behind it. -/
structure NamePart where
  first : Char
  more : Text
  lower : first.isLower
  parts : ∀ character, character ∈ more → character.isLower ∨ character.isDigit

/-- The name of an element: one part, or two with a colon between them. -/
structure ElementName where
  part : NamePart
  second : Option NamePart

/-- A word of lower-case letters. -/
structure LowerWord where
  first : Char
  more : Text
  lower : first.isLower
  letters : ∀ character, character ∈ more → character.isLower

/-- An attribute; its value needs no escape and opens no interpolation. -/
structure Attribute where
  word : LowerWord
  value : Text
  plain : ∀ character, character ∈ value →
    character ≠ '"' ∧ character ≠ '\\' ∧ character ≠ '\x7b'

/-- What an element opens with. -/
structure OpeningTag where
  name : ElementName
  attributes : List Attribute

mutual

/-- A markup element with all that is inside of it. -/
inductive MarkupTree where
  | selfClosing (tag : OpeningTag)
  | enclosing (tag : OpeningTag) (children : MarkupForest)

/-- A list of children of an element. -/
inductive MarkupForest where
  | none
  | word (word : LowerWord) (more : MarkupForest)
  | element (tree : MarkupTree) (more : MarkupForest)

end

def NamePart.text (part : NamePart) : Text :=
  part.first :: part.more

def ElementName.text (name : ElementName) : Text :=
  name.part.text ++
    match name.second with
    | none => []
    | some part => ':' :: part.text

def LowerWord.text (word : LowerWord) : Text :=
  word.first :: word.more

/-- The kind of a token that is spelled like a word. -/
def wordKind (spelling : Text) : TokenKind :=
  match Keyword.ofSpelling? spelling with
  | some keyword => .keyword keyword
  | none => .word

def Attribute.render (given : Attribute) : Text :=
  ' ' :: given.word.text ++ '=' :: '"' :: given.value ++ ['"']

def Attribute.flatten (given : Attribute) : List (TokenKind × Text) :=
  [(wordKind given.word.text, given.word.text), (.eq, ['=']),
    (.doubleQuotedString, given.value)]

def OpeningTag.render (tag : OpeningTag) : Text :=
  '<' :: tag.name.text ++ tag.attributes.flatMap Attribute.render

def OpeningTag.flatten (tag : OpeningTag) : List (TokenKind × Text) :=
  (.xhpName, '<' :: tag.name.text) :: tag.attributes.flatMap Attribute.flatten

mutual

/-- The markup text of an element. -/
def MarkupTree.render : MarkupTree → Text
  | .selfClosing tag => tag.render ++ " />".toList
  | .enclosing tag children =>
      tag.render ++ '>' :: children.render ++ " </".toList ++ tag.name.text ++ ['>']

def MarkupForest.render : MarkupForest → Text
  | .none => []
  | .word word more => ' ' :: word.text ++ more.render
  | .element tree more => ' ' :: tree.render ++ more.render

end

mutual

/-- Kinds and texts of the tokens of an element, in order. -/
def MarkupTree.flatten : MarkupTree → List (TokenKind × Text)
  | .selfClosing tag => tag.flatten ++ [(.slash, ['/']), (.gt, ['>'])]
  | .enclosing tag children =>
      tag.flatten ++ (.gt, ['>']) :: children.flatten ++ [(.xhpClosing, tag.name.text)]

def MarkupForest.flatten : MarkupForest → List (TokenKind × Text)
  | .none => []
  | .word word more => (wordKind word.text, word.text) :: more.flatten
  | .element tree more => tree.flatten ++ more.flatten

end

/-- A text that does not start with a character of the given class. -/
def Text.EndsRun (test : Char → Bool) (text : Text) : Prop :=
  ∀ character, text.head? = some character → test character = false

theorem Text.EndsRun.cons {test : Char → Bool} {first : Char} {rest : Text}
    (fails : test first = false) : Text.EndsRun test (first :: rest) := by
  intro character head
  cases head
  exact fails

theorem Text.takeWhile_of_endsRun {test : Char → Bool} {run rest : Text}
    (passes : ∀ character, character ∈ run → test character)
    (ends : rest.EndsRun test) : (run ++ rest).takeWhile test = run := by
  rw [List.takeWhile_append_of_pos passes]
  cases rest with
  | nil => rw [List.takeWhile_nil, List.append_nil]
  | cons first more =>
      rw [List.takeWhile_cons_of_neg (by simp [ends first rfl]), List.append_nil]

theorem Text.trimEnd_of_notMem {mark : Char} {text : Text} (absent : mark ∉ text) :
    text.trimEnd (· == mark) = text := by
  apply trimEnd_of_kept
  intro last member
  rw [beq_eq_false_iff_ne]
  rintro rfl
  exact absent (List.mem_of_getLast? member)

theorem ne_of_isLower {letter other : Char} (lower : letter.isLower)
    (different : other.isLower = false) : letter ≠ other := by
  rintro rfl
  rw [different] at lower
  cases lower

theorem isAlphanumeric_of_isLower {character : Char} (lower : character.isLower) :
    isAlphanumeric character := by
  simp [isAlphanumeric, isLetter_of_isLower lower]

theorem not_isDigit_of_isLower {character : Char} (lower : character.isLower) :
    character.isDigit = false := by
  obtain ⟨least, _⟩ := Bool.and_eq_true_iff.mp lower
  have above : 97 ≤ character.val.toNat :=
    UInt32.le_iff_toNat_le.mp (of_decide_eq_true least)
  have far : ¬ character.val ≤ 57 := by
    intro below
    have bound : character.val.toNat ≤ 57 := UInt32.le_iff_toNat_le.mp below
    omega
  simp [Char.isDigit, far]

theorem number?_of_isLower {first : Char} {rest : Text} (lower : first.isLower) :
    number? (first :: rest) = none :=
  number?_of_no_digit rest (not_isDigit_of_isLower lower) (ne_of_isLower lower rfl)

/-- A character that continues a word or separates its atoms. -/
def Word.isPart (character : Char) : Bool :=
  isHyphenated character || character == '\\'

theorem Word.length_of_endsRun {rest : Text} (ends : rest.EndsRun isPart) :
    length rest = 0 := by
  cases rest with
  | nil =>
      rw [length]
      rfl
  | cons first more =>
      have stops := ends first rfl
      simp only [isPart, isHyphenated, isAlphanumeric, Bool.or_eq_false_iff] at stops
      have noLetter : isLetter first = false := stops.1.1.2
      have noLower : first.isLower = false := by
        apply eq_false_of_ne_true
        intro lower
        rw [isLetter_of_isLower lower] at noLetter
        cases noLetter
      have none_ : separators (first :: more) = 0 := by
        simp [separators, Text.countWhile, stops.2]
      have noAtom : atom ((first :: more).drop (separators (first :: more))) = 0 := by
        rw [none_, List.drop_zero]
        simp [atom, noLetter, noLower]
      rw [length]
      split
      · rfl
      · rename_i found
        rw [noAtom] at found
        cases found

theorem Word.length_lower {first : Char} {more rest : Text} (lower : first.isLower)
    (parts : ∀ character, character ∈ more → isAlphanumeric character)
    (ends : rest.EndsRun isPart) :
    length (first :: more ++ rest) = more.length + 1 := by
  have none_ : separators (first :: more ++ rest) = 0 := by
    have other : first ≠ '\\' := ne_of_isLower lower rfl
    simp [separators, Text.countWhile, other]
  have hyphenated : ∀ character, character ∈ more → isHyphenated character := by
    intro character member
    simp [isHyphenated, parts character member]
  have stops : rest.EndsRun isHyphenated := by
    intro character head
    have fails := ends character head
    simp only [isPart, Bool.or_eq_false_iff] at fails
    exact fails.1
  have noHyphen : '-' ∉ more := by
    intro member
    have alphanumeric := parts '-' member
    revert alphanumeric
    decide
  have found : atom ((first :: more ++ rest).drop
      (separators (first :: more ++ rest))) = more.length + 1 := by
    rw [none_, List.drop_zero, List.cons_append, atom, if_pos lower,
      Text.takeWhile_of_endsRun hyphenated stops, Text.trimEnd_of_notMem noHyphen,
      Nat.add_comm]
  rw [length]
  split
  · rename_i missing
    rw [found] at missing
    cases missing
  · rename_i count same
    rw [found] at same
    cases same
    have behind : (first :: more ++ rest).drop (more.length + 1) = rest :=
      @List.drop_left _ (first :: more) rest
    rw [none_, Nat.zero_add, behind, length_of_endsRun ends, Nat.add_zero]

theorem word?_lower {first : Char} {more rest : Text} (lower : first.isLower)
    (parts : ∀ character, character ∈ more → isAlphanumeric character)
    (ends : rest.EndsRun Word.isPart) :
    word? (first :: more ++ rest) =
      some (wordKind (first :: more), (first :: more).length) := by
  have taken : (first :: more ++ rest).take (more.length + 1) = first :: more :=
    @List.take_left _ (first :: more) rest
  unfold word? wordKind
  rw [Word.length_lower lower parts ends]
  dsimp only
  rw [taken]
  cases Keyword.ofSpelling? (first :: more) with
  | none => rfl
  | some keyword => rfl

/-- A character that may continue the name of an element. -/
def MarkupName.isPart (character : Char) : Bool :=
  isAlphanumeric character || character == '-' || character == ':'

namespace MarkupName

theorem tail_of_endsRun {rest : Text} (ends : rest.EndsRun isPart) : tail rest = 0 := by
  unfold tail
  split
  · rfl
  · have stops := ends ':' rfl
    cases stops
  · rename_i first more _
    have stops := ends first rfl
    simp only [isPart, Bool.or_eq_false_iff] at stops
    simp [stops.1]

theorem tail_append {part rest : Text}
    (parts : ∀ character, character ∈ part → isAlphanumeric character) :
    tail (part ++ rest) = part.length + tail rest := by
  induction part with
  | nil => rw [List.nil_append, List.length_nil, Nat.zero_add]
  | cons first more ih =>
      have here := parts first List.mem_cons_self
      have noColon : first ≠ ':' := by
        rintro rfl
        cases here
      rw [List.cons_append, tail, if_pos (by simp [here]),
        ih fun character member => parts character (List.mem_cons_of_mem _ member),
        List.length_cons]
      · omega
      · intro next behind colon
        exact absurd colon noColon

theorem tail_colon {first : Char} {more : Text} (rest : Text) (lower : first.isLower)
    (parts : ∀ character, character ∈ more → isAlphanumeric character) :
    tail (':' :: first :: more ++ rest) = more.length + 2 + tail rest := by
  rw [List.cons_append, List.cons_append, tail,
    if_pos (by simp [isLetter_of_isLower lower]), tail_append parts]
  omega

end MarkupName

theorem NamePart.isAlphanumeric_of_mem (part : NamePart) :
    ∀ character, character ∈ part.more → isAlphanumeric character := by
  intro character member
  rcases part.parts character member with lower | digit
  · exact isAlphanumeric_of_isLower lower
  · simp [isAlphanumeric, digit]

theorem LowerWord.isAlphanumeric_of_mem (word : LowerWord) :
    ∀ character, character ∈ word.more → isAlphanumeric character :=
  fun character member => isAlphanumeric_of_isLower (word.letters character member)

theorem markupName?_name (name : ElementName) {rest : Text}
    (ends : rest.EndsRun MarkupName.isPart) :
    markupName? ('<' :: name.text ++ rest) = some ('<' :: name.text).length := by
  obtain ⟨part, second⟩ := name
  have percent : part.first ≠ '%' := ne_of_isLower part.lower rfl
  have length : MarkupName.name (ElementName.text ⟨part, second⟩ ++ rest) =
      (ElementName.text ⟨part, second⟩).length := by
    cases second with
    | none =>
        simp only [ElementName.text, NamePart.text, List.append_nil, List.cons_append,
          MarkupName.name, isLetter_of_isLower part.lower, if_true,
          MarkupName.tail_append part.isAlphanumeric_of_mem,
          MarkupName.tail_of_endsRun ends, List.length_cons]
        omega
    | some last =>
        have colon := MarkupName.tail_colon rest last.lower last.isAlphanumeric_of_mem
        simp only [ElementName.text, NamePart.text, List.append_assoc, List.cons_append,
          MarkupName.name, isLetter_of_isLower part.lower, if_true,
          MarkupName.tail_append part.isAlphanumeric_of_mem, List.length_cons,
          List.length_append] at colon ⊢
        rw [colon, MarkupName.tail_of_endsRun ends]
        omega
  obtain ⟨more, text⟩ : ∃ more, ElementName.text ⟨part, second⟩ = part.first :: more :=
    ⟨_, rfl⟩
  rw [text, List.cons_append] at length ⊢
  simp only [List.cons_append, List.length_cons, markupName?] at length ⊢
  split
  · rename_i same
    exact absurd (List.cons.inj (List.cons.inj same).2).1 percent
  · rename_i same
    cases same
    rw [length]
    simp only [Option.some.injEq]
    omega
  · rename_i other
    exact absurd rfl (other _)

end HackLexer
