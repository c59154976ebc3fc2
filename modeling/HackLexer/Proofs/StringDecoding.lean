import HackLexer.Proofs.FirstTokens
import HackLexer.Proofs.SearchLookahead

/-!
# Decoding of quoted strings

The body of a quoted string falls into parts: single characters, and pairs of a
backslash and the character behind it.  What a part stands for does not depend
on the parts around it.  So the value of a string is put together from the
values of its parts, and a text that is written with escapes is read back.

The main statements are `doubleQuoted_decoded` and `singleQuoted_decoded`.
-/

namespace HackLexer

namespace DoubleQuoted

/-- The codes of escapes with the characters that they stand for. -/
def escapes : List (Char × Char) :=
  [('n', '\n'), ('r', '\r'), ('t', '\t'), ('v', '\x0b'), ('e', '\x1b'), ('f', '\x0c'),
    ('\\', '\\'), ('$', '$'), ('"', '"')]

/-- A part of a body without interpolations. -/
inductive Part where
  /-- A character that stands for itself. -/
  | plain (character : Char) (unmarked : character ∉ ['"', '\\', '\x7b'])
  /-- A backslash and any character behind it. -/
  | pair (code : Char)

def Part.source : Part → Text
  | .plain character _ => [character]
  | .pair code => ['\\', code]

/-- What a part stands for: a pair with a code of the table is one character,
and any other pair is kept. -/
def Part.value : Part → Text
  | .plain character _ => [character]
  | .pair code =>
      match escapes.lookup code with
      | some character => [character]
      | none => ['\\', code]

/-- How a character of a value can be written between double quotes. -/
def encodeCharacter : Char → Text
  | '\n' => ['\\', 'n']
  | '\t' => ['\\', 't']
  | '"' => ['\\', '"']
  | '\\' => ['\\', '\\']
  | '$' => ['\\', '$']
  | character => [character]

/-- A double-quoted string with the given value. -/
def encode (value : Text) : Text :=
  '"' :: value.flatMap encodeCharacter ++ ['"']

theorem escapeValue?_eq_lookup (code : Char) : escapeValue? code = escapes.lookup code := by
  unfold escapeValue?
  split
  case h_10 =>
    symm
    rw [List.lookup_eq_none_iff]
    simp_all [escapes]
  all_goals rfl

theorem unescape_eq_value (code : Char) : unescape code = (Part.pair code).value := by
  rw [unescape, escapeValue?_eq_lookup]
  rfl

/-- A part is read as it is wherever it stands. -/
theorem body_part (part : Part) (rest : Text) :
    body (part.source ++ rest) = (body rest).prepend part.value part.source.length := by
  cases part with
  | plain character unmarked =>
      simp only [List.mem_cons, List.not_mem_nil, or_false, not_or] at unmarked
      obtain ⟨notQuote, notBackslash, notBrace⟩ := unmarked
      exact body_cons notQuote notBrace notBackslash
  | pair code =>
      rw [← unescape_eq_value]
      change body ('\\' :: code :: rest) = _
      rw [body]
      rfl

/-- A body of parts is read up to the quote behind it, and its value is put
together from what the parts stand for. -/
theorem body_parts (parts : List Part) (behind : Text) :
    body (parts.flatMap Part.source ++ '"' :: behind) =
      { value := parts.flatMap Part.value
        length := (parts.flatMap Part.source ++ ['"']).length
        ending := .closed } := by
  induction parts with
  | nil => rfl
  | cons part parts ih =>
      rw [List.flatMap_cons, List.append_assoc, body_part, ih]
      simp [Body.prepend]

/-- A character other than a brace is written as a part that stands for it. -/
theorem exists_part {character : Char} (noBrace : character ≠ '\x7b') :
    ∃ part : Part, part.source = encodeCharacter character ∧ part.value = [character] := by
  unfold encodeCharacter
  split
  · exact ⟨.pair 'n', rfl, rfl⟩
  · exact ⟨.pair 't', rfl, rfl⟩
  · exact ⟨.pair '"', rfl, rfl⟩
  · exact ⟨.pair '\\', rfl, rfl⟩
  · exact ⟨.pair '$', rfl, rfl⟩
  · refine ⟨.plain character ?_, rfl, rfl⟩
    simp_all

theorem exists_parts {value : Text} (noBrace : '\x7b' ∉ value) :
    ∃ parts : List Part, parts.flatMap Part.source = value.flatMap encodeCharacter ∧
      parts.flatMap Part.value = value := by
  induction value with
  | nil => exact ⟨[], rfl, rfl⟩
  | cons first rest ih =>
      have other : first ≠ '\x7b' := by
        rintro rfl
        exact noBrace List.mem_cons_self
      obtain ⟨part, source, stands⟩ := exists_part other
      obtain ⟨parts, sources, values⟩ :=
        ih fun member => noBrace (List.mem_cons_of_mem _ member)
      refine ⟨part :: parts, ?_, ?_⟩
      · rw [List.flatMap_cons, List.flatMap_cons, source, sources]
      · rw [List.flatMap_cons, stands, values]
        rfl

end DoubleQuoted

theorem scan_doubleQuote (markup : Bool) {cursor : Cursor} {rest : Text}
    (here : cursor.rest = '"' :: rest) :
    scan markup cursor =
      .ok
        { found := .literal (opening cursor .doubleQuoted)
          after := cursor.advance 1
          comment := none } := by
  unfold scan recognise layoutAt markerAt commentAt quotedAt
  rw [here]
  rfl

theorem DoubleQuoted.opensWith_parts (parts : List Part) (suffix : Text) :
    OpensWith ('"' :: parts.flatMap Part.source ++ ['"'] ++ suffix) .doubleQuotedString
      ('"' :: parts.flatMap Part.source ++ ['"']) (parts.flatMap Part.value) suffix := by
  have read : body (parts.flatMap Part.source ++ ['"'] ++ suffix) =
      { value := parts.flatMap Part.value
        length := (parts.flatMap Part.source ++ ['"']).length
        ending := .closed } := by
    rw [List.append_assoc]
    exact body_parts parts suffix
  exact @OpensWith.of_literal _ ['"'] _ _ _ _ (List.cons_ne_nil _ _) (scan_doubleQuote true rfl)
    read rfl

/-- A double-quoted string that is written with escapes has the value that was
written.  More generally, a body of single characters and pairs of a backslash
and any character has the value that is put together from its parts, and the
token ends behind the quote. -/
theorem doubleQuoted_decoded :
    (∀ value suffix : Text, '\x7b' ∉ value →
      OpensWith (DoubleQuoted.encode value ++ suffix) .doubleQuotedString
        (DoubleQuoted.encode value) value suffix) ∧
    (∀ (parts : List DoubleQuoted.Part) (suffix : Text),
      OpensWith ('"' :: parts.flatMap DoubleQuoted.Part.source ++ ['"'] ++ suffix)
        .doubleQuotedString ('"' :: parts.flatMap DoubleQuoted.Part.source ++ ['"'])
        (parts.flatMap DoubleQuoted.Part.value) suffix) := by
  refine ⟨?_, DoubleQuoted.opensWith_parts⟩
  intro value suffix noBrace
  obtain ⟨parts, sources, values⟩ := DoubleQuoted.exists_parts noBrace
  have decoded := DoubleQuoted.opensWith_parts parts suffix
  rw [sources, values] at decoded
  exact decoded

/-- A value with a line feed, a quote, a dollar sign and a backslash at its end, and a
body with an escaped brace, an escaped line feed, an escaped character of two bytes and
an escaped backslash in front of the quote. -/
theorem escaped_value_and_pairs_decoded :
    '\x7b' ∉ "é\n\"$\\".toList ∧
    OpensWith "\"é\\n\\\"\\$\\\\\";\"".toList .doubleQuotedString
      "\"é\\n\\\"\\$\\\\\"".toList "é\n\"$\\".toList ";\"".toList ∧
    OpensWith "\"a\\\x7b\\\n\\é\\e\\\\\"\"".toList .doubleQuotedString
      "\"a\\\x7b\\\n\\é\\e\\\\\"".toList "a\\\x7b\\\n\\é\x1b\\".toList "\"".toList :=
  ⟨by decide, doubleQuoted_decoded.1 "é\n\"$\\".toList ";\"".toList (by decide),
    doubleQuoted_decoded.2
      [.plain 'a' (by decide), .pair '\x7b', .pair '\n', .pair 'é', .pair 'e', .pair '\\'] ['"']⟩

namespace SingleQuoted

/-- What is read at once between single quotes. -/
inductive Part where
  | single (character : Char)
  /-- A backslash with the quote or backslash that it escapes. -/
  | pair (code : Char)
  deriving DecidableEq

def Part.source : Part → Text
  | .single character => [character]
  | .pair code => ['\\', code]

def Part.value : Part → Char
  | .single character => character
  | .pair code => code

/-- The parts of a text, from left to right. -/
def parts : Text → List Part
  | [] => []
  | '\\' :: '\'' :: rest => .pair '\'' :: parts rest
  | '\\' :: '\\' :: rest => .pair '\\' :: parts rest
  | character :: rest => .single character :: parts rest

/-- How a character of a value is written between single quotes. -/
def encodeCharacter (character : Char) : Text :=
  if character = '\'' ∨ character = '\\' then ['\\', character] else [character]

/-- A single-quoted string with the given value. -/
def encode (value : Text) : Text :=
  '\'' :: value.flatMap encodeCharacter ++ ['\'']

theorem source_parts (text : Text) : (parts text).flatMap Part.source = text := by
  fun_induction parts text with
  | case1 => rfl
  | case2 rest ih => rw [List.flatMap_cons, ih]; rfl
  | case3 rest ih => rw [List.flatMap_cons, ih]; rfl
  | case4 character rest _ _ ih => rw [List.flatMap_cons, ih]; rfl

theorem body_of_cons {text : Text} {part : Part} {more : List Part}
    (split : parts text = part :: more) :
    ∃ rest, parts rest = more ∧
      body text =
        if part = .single '\'' then some ([], 1)
        else (body rest).map fun read => (part.value :: read.1, part.source.length + read.2) := by
  unfold parts at split
  split at split
  case h_1 => cases split
  case h_2 rest =>
    obtain ⟨rfl, rfl⟩ := List.cons.inj split
    exact ⟨rest, rfl, body_escape (.inl rfl)⟩
  case h_3 rest =>
    obtain ⟨rfl, rfl⟩ := List.cons.inj split
    exact ⟨rest, rfl, body_escape (.inr rfl)⟩
  case h_4 character rest noQuote noBackslash =>
    obtain ⟨rfl, rfl⟩ := List.cons.inj split
    refine ⟨rest, rfl, ?_⟩
    by_cases quote : character = '\''
    · subst quote
      rfl
    · rw [if_neg (by simpa using quote)]
      apply body_cons quote
      rintro rfl
      constructor
      · intro head
        obtain ⟨behind, rfl⟩ := List.head?_eq_some_iff.mp head
        exact noQuote behind rfl rfl
      · intro head
        obtain ⟨behind, rfl⟩ := List.head?_eq_some_iff.mp head
        exact noBackslash behind rfl rfl

/-- A body is read up to the first quote that is no part of a pair. -/
theorem body_of_quote {text : Text} {before after : List Part}
    (split : parts text = before ++ .single '\'' :: after)
    (first : .single '\'' ∉ before) :
    body text =
      some (before.map Part.value, (before.flatMap Part.source ++ ['\'']).length) := by
  induction before generalizing text with
  | nil =>
      obtain ⟨rest, _, read⟩ := body_of_cons split
      rw [read, if_pos rfl]
      rfl
  | cons part before ih =>
      obtain ⟨rest, behind, read⟩ := body_of_cons split
      have other : part ≠ .single '\'' := fun same => first (same ▸ List.mem_cons_self)
      rw [read, if_neg other, ih behind fun member => first (List.mem_cons_of_mem _ member)]
      simp

theorem body_of_no_quote {text : Text} (absent : .single '\'' ∉ parts text) :
    body text = none := by
  -- By induction on the parts: at a pair the reader is two characters further on.
  generalize split : parts text = all at absent
  induction all generalizing text with
  | nil =>
      have empty := source_parts text
      rw [split] at empty
      rw [← empty]
      rfl
  | cons part more ih =>
      obtain ⟨rest, behind, read⟩ := body_of_cons split
      have other : part ≠ .single '\'' := fun same => absent (same ▸ List.mem_cons_self)
      rw [read, if_neg other, ih behind fun member => absent (List.mem_cons_of_mem _ member)]
      rfl

/-- A character is written as one part, which is no single quote. -/
theorem parts_encodeCharacter (character : Char) (rest : Text) :
    ∃ part : Part, parts (encodeCharacter character ++ rest) = part :: parts rest ∧
      part.source = encodeCharacter character ∧ part.value = character ∧
      part ≠ .single '\'' := by
  by_cases quote : character = '\''
  · subst quote
    exact ⟨.pair '\'', rfl, rfl, rfl, nofun⟩
  by_cases backslash : character = '\\'
  · subst backslash
    exact ⟨.pair '\\', rfl, rfl, rfl, nofun⟩
  have encoded : encodeCharacter character = [character] := by
    rw [encodeCharacter, if_neg (not_or.mpr ⟨quote, backslash⟩)]
  refine ⟨.single character, ?_, encoded.symm, rfl, ?_⟩
  · rw [encoded, List.singleton_append, parts]
    · intro behind same
      exact absurd same backslash
    · intro behind same
      exact absurd same backslash
  · simpa using quote

theorem parts_encode (value rest : Text) :
    ∃ written : List Part,
      parts (value.flatMap encodeCharacter ++ rest) = written ++ parts rest ∧
      written.flatMap Part.source = value.flatMap encodeCharacter ∧
      written.map Part.value = value ∧ .single '\'' ∉ written := by
  induction value with
  | nil => exact ⟨[], rfl, rfl, rfl, List.not_mem_nil⟩
  | cons first value ih =>
      obtain ⟨written, split, sources, values, absent⟩ := ih
      obtain ⟨part, front, source, stands, other⟩ :=
        parts_encodeCharacter first (value.flatMap encodeCharacter ++ rest)
      refine ⟨part :: written, ?_, ?_, ?_, ?_⟩
      · rw [List.flatMap_cons, List.append_assoc, front, split, List.cons_append]
      · rw [List.flatMap_cons, List.flatMap_cons, source, sources]
      · rw [List.map_cons, stands, values]
      · simp [absent, Ne.symm other]

end SingleQuoted

theorem scan_singleQuote (markup : Bool) {cursor : Cursor} {rest : Text}
    (here : cursor.rest = '\'' :: rest) :
    scan markup cursor =
      match SingleQuoted.body rest with
      | none => .error (.unclosed (.unterminatedString .single) (cursor.spanOf 1) cursor)
      | some (value, count) =>
          .ok (.ofLexeme
            { kind := .quotedString
              start := cursor
              stop := cursor.advance (1 + count)
              literal := some value }) := by
  have unopened :
      layoutAt cursor = none ∧ markerAt cursor = none ∧ commentAt cursor = none := by
    unfold layoutAt markerAt commentAt
    rw [here]
    exact ⟨rfl, rfl, rfl⟩
  unfold scan recognise
  rw [unopened.1, unopened.2.1, unopened.2.2]
  simp only [quotedAt, here]
  cases SingleQuoted.body rest with
  | none => rfl
  | some read => rfl

theorem SingleQuoted.opensWith_parts {text : Text} {before after : List Part}
    (split : parts text = before ++ .single '\'' :: after)
    (first : .single '\'' ∉ before) :
    OpensWith ('\'' :: text) .quotedString ('\'' :: before.flatMap Part.source ++ ['\''])
      (before.map Part.value) (after.flatMap Part.source) := by
  have scanned := @scan_singleQuote true (.atStart ('\'' :: text)) text rfl
  rw [body_of_quote split first] at scanned
  have whole : '\'' :: text =
      '\'' :: before.flatMap Part.source ++ ['\''] ++ after.flatMap Part.source := by
    rw [← source_parts text, split]
    simp [Part.source]
  dsimp only at scanned
  rw [whole, Nat.add_comm] at scanned
  rw [whole]
  apply OpensWith.of_lexeme (List.cons_ne_nil _ _)
  rw [← Cursor.advance_atStart]
  exact scanned

/-- A single-quoted string that is written with escapes has the value that was
written.  Every other text that opens with a single quote is read as parts: it
opens with the string up to the first quote that is no part of a pair, whose
value is put together from its parts, and if there is no such quote the string
is left open. -/
theorem singleQuoted_decoded :
    (∀ value suffix : Text,
      OpensWith (SingleQuoted.encode value ++ suffix) .quotedString
        (SingleQuoted.encode value) value suffix) ∧
    (∀ (text : Text) (before after : List SingleQuoted.Part),
      SingleQuoted.parts text = before ++ .single '\'' :: after → .single '\'' ∉ before →
      OpensWith ('\'' :: text) .quotedString
        ('\'' :: before.flatMap SingleQuoted.Part.source ++ ['\''])
        (before.map SingleQuoted.Part.value) (after.flatMap SingleQuoted.Part.source)) ∧
    (∀ text : Text, .single '\'' ∉ SingleQuoted.parts text →
      LeavesOpen ('\'' :: text) (.unterminatedString .single) ['\'']) := by
  refine ⟨?_, fun text before after => SingleQuoted.opensWith_parts, ?_⟩
  · intro value suffix
    obtain ⟨written, split, sources, values, absent⟩ :=
      SingleQuoted.parts_encode value ('\'' :: suffix)
    have decoded := SingleQuoted.opensWith_parts split absent
    rw [sources, values, SingleQuoted.source_parts] at decoded
    unfold SingleQuoted.encode
    rw [List.append_assoc]
    exact decoded
  · intro text absent
    have scanned := @scan_singleQuote true (.atStart ('\'' :: text)) text rfl
    rw [SingleQuoted.body_of_no_quote absent] at scanned
    exact .of_scan (List.cons_ne_nil '\'' []) scanned

/-- A value with both characters that are escaped; a text with a kept backslash and an
escaped one in front of the quote; a text whose only quote is escaped. -/
theorem escaped_and_kept_backslashes_decoded :
    OpensWith "'\\'é\\\\''".toList .quotedString "'\\'é\\\\'".toList "'é\\".toList "'".toList ∧
    OpensWith "'\\é\n\\\\'\\'".toList .quotedString "'\\é\n\\\\'".toList "\\é\n\\".toList
      "\\'".toList ∧
    LeavesOpen "'\n\\'\\".toList (.unterminatedString .single) "'".toList :=
  ⟨singleQuoted_decoded.1 "'é\\".toList "'".toList,
    singleQuoted_decoded.2.1 "\\é\n\\\\'\\'".toList
      [.single '\\', .single 'é', .single '\n', .pair '\\'] [.pair '\''] (by decide) (by decide),
    singleQuoted_decoded.2.2 "\n\\'\\".toList (by decide)⟩

end HackLexer
