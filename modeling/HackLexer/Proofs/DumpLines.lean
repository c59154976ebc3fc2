import HackLexer.CommandLine
import HackLexer.Proofs.LoadedSources
import HackLexer.Proofs.QuotedTexts

/-!
# The lines of a dump

None of the fields of a line holds a tab or a line feed, so a dump falls back
into its lines and a line into its fields.  The fields tell what they were made
from: two lines of tokens are the same only if all that is printed is the same.

Either the whole dump is printed, or nothing is printed but a message on the
error stream.  All this holds whichever characters are hidden in quoted texts.
-/

namespace HackLexer

/-- A text without tabs and line feeds. -/
def Unseparated (text : Text) : Prop :=
  '\t' ∉ text ∧ '\n' ∉ text

theorem unseparated_append {left right : Text} (leftHolds : Unseparated left)
    (rightHolds : Unseparated right) : Unseparated (left ++ right) := by
  refine ⟨?_, ?_⟩
  · simp [leftHolds.1, rightHolds.1]
  · simp [leftHolds.2, rightHolds.2]

theorem unseparated_decimal (number : Nat) : Unseparated (Text.decimal number) :=
  ⟨Text.not_mem_toDigits (by decide) (by decide) number (by decide),
    Text.not_mem_toDigits (by decide) (by decide) number (by decide)⟩

theorem unseparated_quoteHiding (hidden : Char → Bool) (text : Text) :
    Unseparated (Text.quoteHiding hidden text) :=
  ⟨Text.not_mem_quoteHiding text (.inl rfl), Text.not_mem_quoteHiding text (.inr rfl)⟩

theorem Keyword.unseparated_name (keyword : Keyword) : Unseparated keyword.name.toList := by
  unfold Unseparated
  cases keyword <;> decide +kernel

theorem TokenKind.unseparated_name (kind : TokenKind) : Unseparated kind.name.toList := by
  cases kind with
  | keyword reserved => exact reserved.unseparated_name
  | _ =>
      unfold Unseparated
      decide +kernel

theorem CommentKind.unseparated_name (kind : CommentKind) : Unseparated kind.name.toList := by
  unfold Unseparated
  cases kind <;> decide

theorem not_mem_intercalate {fields : List Text} {separator other : Char}
    (free : ∀ field ∈ fields, other ∉ field) (differs : other ≠ separator) :
    other ∉ [separator].intercalate fields := by
  induction fields with
  | nil => exact List.not_mem_nil
  | cons field fields ih =>
      have first := free field List.mem_cons_self
      cases fields with
      | nil =>
          rw [List.intercalate_singleton]
          exact first
      | cons next fields =>
          have others := ih fun later member => free later (List.mem_cons_of_mem _ member)
          rw [List.intercalate_cons_cons]
          simp [first, differs, others]

/-- Ended lines fall back into the lines. -/
theorem splitOn_lines {lines : List Text} (free : ∀ line ∈ lines, '\n' ∉ line) :
    (lines.flatMap (· ++ ['\n'])).splitOn '\n' = lines ++ [[]] := by
  induction lines with
  | nil => rfl
  | cons line lines ih =>
      have others := ih fun later member => free later (List.mem_cons_of_mem _ member)
      rw [List.flatMap_cons, List.append_assoc, List.singleton_append,
        List.splitOn_append_cons_self_of_not_mem (free line List.mem_cons_self), others,
        List.cons_append]

namespace CommandLine

def rangeFields (offsets : Bool) (span : Span) : List Text :=
  if offsets then
    [Text.decimal span.start ++ "..".toList ++ Text.decimal span.stop]
  else
    []

def tokenFields (hidden : Char → Bool) (offsets : Bool) (token : Token) : List Text :=
  [Text.decimal token.line, token.kind.name.toList, Text.quoteHiding hidden token.text] ++
    rangeFields offsets token.span

def commentFields (hidden : Char → Bool) (offsets : Bool) (comment : Comment) : List Text :=
  [comment.kind.name.toList, Text.quoteHiding hidden comment.text] ++
    rangeFields offsets comment.span

section

variable (hidden : Char → Bool) (offsets : Bool)

theorem unseparated_rangeFields (span : Span) :
    ∀ field ∈ rangeFields offsets span, Unseparated field := by
  intro field member
  unfold rangeFields at member
  split at member
  · cases List.mem_singleton.mp member
    have dots : Unseparated "..".toList := ⟨by decide, by decide⟩
    exact unseparated_append (unseparated_append (unseparated_decimal _) dots)
      (unseparated_decimal _)
  · cases member

theorem unseparated_tokenFields (token : Token) :
    ∀ field ∈ tokenFields hidden offsets token, Unseparated field := by
  intro field member
  rcases List.mem_append.mp member with always | range
  · simp only [List.mem_cons, List.not_mem_nil, or_false] at always
    rcases always with rfl | rfl | rfl
    · exact unseparated_decimal token.line
    · exact token.kind.unseparated_name
    · exact unseparated_quoteHiding hidden token.text
  · exact unseparated_rangeFields offsets token.span field range

theorem unseparated_commentFields (comment : Comment) :
    ∀ field ∈ commentFields hidden offsets comment, Unseparated field := by
  intro field member
  rcases List.mem_append.mp member with always | range
  · simp only [List.mem_cons, List.not_mem_nil, or_false] at always
    rcases always with rfl | rfl
    · exact comment.kind.unseparated_name
    · exact unseparated_quoteHiding hidden comment.text
  · exact unseparated_rangeFields offsets comment.span field range

theorem tokenLine_eq (token : Token) :
    tokenLine hidden offsets token = ['\t'].intercalate (tokenFields hidden offsets token) := by
  unfold tokenLine tokenFields rangeField rangeFields
  cases offsets <;> simp [List.intercalate_cons_cons, List.intercalate_singleton]

theorem commentLine_eq (comment : Comment) :
    commentLine hidden offsets comment =
      ['\t'].intercalate (commentFields hidden offsets comment) := by
  unfold commentLine commentFields rangeField rangeFields
  cases offsets <;> simp [List.intercalate_cons_cons, List.intercalate_singleton]

theorem splitOn_tokenLine (token : Token) :
    (tokenLine hidden offsets token).splitOn '\t' = tokenFields hidden offsets token := by
  rw [tokenLine_eq]
  exact List.splitOn_intercalate '\t' (fun field member =>
    (unseparated_tokenFields hidden offsets token field member).1) nofun

theorem splitOn_commentLine (comment : Comment) :
    (commentLine hidden offsets comment).splitOn '\t' = commentFields hidden offsets comment := by
  rw [commentLine_eq]
  exact List.splitOn_intercalate '\t' (fun field member =>
    (unseparated_commentFields hidden offsets comment field member).1) nofun

/-- No line of a dump is broken. -/
theorem noFeed_of_mem_dump {arguments : Arguments} {tokenized : Tokenized} {line : Text}
    (member : line ∈ dump hidden arguments tokenized) : '\n' ∉ line := by
  have ofToken (token : Token) : '\n' ∉ tokenLine hidden arguments.offsets token := by
    rw [tokenLine_eq]
    exact not_mem_intercalate (fun field member =>
      (unseparated_tokenFields hidden _ token field member).2) (by decide)
  have ofComment (comment : Comment) : '\n' ∉ commentLine hidden arguments.offsets comment := by
    rw [commentLine_eq]
    exact not_mem_intercalate (fun field member =>
      (unseparated_commentFields hidden _ comment field member).2) (by decide)
  rcases List.mem_append.mp member with tokens | comments
  · obtain ⟨token, _, rfl⟩ := List.mem_map.mp tokens
    exact ofToken token
  · split at comments
    · obtain ⟨comment, _, rfl⟩ := List.mem_map.mp comments
      exact ofComment comment
    · cases comments

/-- The lines of two tokens are the same exactly if all that they show is the same. -/
theorem tokenLine_inj {left right : Token} :
    tokenLine hidden offsets left = tokenLine hidden offsets right ↔
      left.line = right.line ∧ left.kind.name = right.kind.name ∧ left.text = right.text ∧
      (offsets = true →
        left.span.start = right.span.start ∧ left.span.stop = right.span.stop) := by
  constructor
  · intro same
    have fields : tokenFields hidden offsets left = tokenFields hidden offsets right := by
      rw [← splitOn_tokenLine, ← splitOn_tokenLine, same]
    obtain ⟨always, ranges⟩ := List.append_inj fields rfl
    simp only [List.cons.injEq, and_true, Text.quoteHiding_inj] at always
    obtain ⟨lines, kinds, texts⟩ := always
    refine ⟨Text.toDigits_injective (by decide) (by decide) lines, String.toList_inj.mp kinds,
      texts, ?_⟩
    rintro rfl
    have dots : '.' ∉ "0123456789abcdef".toList := by decide
    have range := List.singleton_inj.mp ranges
    rw [List.append_assoc, List.append_assoc] at range
    obtain ⟨starts, behind⟩ := Text.append_cons_inj_of_not_mem
      (Text.not_mem_toDigits (by decide) (by decide) _ dots)
      (Text.not_mem_toDigits (by decide) (by decide) _ dots) range
    exact ⟨Text.toDigits_injective (by decide) (by decide) starts,
      Text.toDigits_injective (by decide) (by decide) (List.cons.inj behind).2⟩
  · rintro ⟨lines, kinds, texts, ranges⟩
    unfold tokenLine rangeField
    rw [lines, kinds, texts]
    split
    · obtain ⟨starts, stops⟩ := ranges ‹_›
      rw [starts, stops]
    · rfl

end

/-- The file can be opened, it holds the encoding of a text, and this text can be
lexed. -/
def Readable (opened : Except Text (List UInt8)) (tokenized : Tokenized) : Prop :=
  ∃ text, opened = .ok (Text.bytes text) ∧ tokenize text = .ok tokenized

section

variable {hidden : Char → Bool} {arguments : Arguments} {opened : Except Text (List UInt8)}

theorem outcome_of_readable {tokenized : Tokenized} (readable : Readable opened tokenized) :
    outcome hidden arguments opened =
      { exit := 0
        stdout := (dump hidden arguments tokenized).flatMap (· ++ ['\n'])
        stderr := [] } := by
  obtain ⟨text, rfl, lexed⟩ := readable
  have loaded : Source.ofBytes arguments.file (Text.bytes text) = .ok ⟨arguments.file, text⟩ :=
    load_bytes (fun _ _ => rfl) arguments.file text
  unfold outcome
  simp only [loaded, lexed]

/-- Whatever goes wrong, nothing has been printed before. -/
theorem outcome_of_unreadable (unreadable : ¬ ∃ tokenized, Readable opened tokenized) :
    (outcome hidden arguments opened).exit = 1 ∧ (outcome hidden arguments opened).stdout = [] ∧
    (outcome hidden arguments opened).stderr ≠ [] := by
  unfold outcome
  cases opened with
  | error reason => exact ⟨rfl, rfl, List.append_ne_nil_of_right_ne_nil _ nofun⟩
  | ok bytes =>
      by_cases encoded : ∃ text, bytes = Text.bytes text
      · obtain ⟨text, rfl⟩ := encoded
        have loaded : Source.ofBytes arguments.file (Text.bytes text) =
            .ok ⟨arguments.file, text⟩ := load_bytes (fun _ _ => rfl) arguments.file text
        cases lexed : tokenize text with
        | ok tokenized => exact absurd ⟨tokenized, text, rfl, lexed⟩ unreadable
        | error error =>
            simp only [loaded, lexed]
            exact ⟨trivial, trivial, List.append_ne_nil_of_right_ne_nil _ nofun⟩
      · obtain ⟨fault, _, refused⟩ := load_error (fun _ _ => rfl) arguments.file encoded
        change Source.ofBytes arguments.file bytes = _ at refused
        simp only [refused]
        exact ⟨rfl, rfl, List.append_ne_nil_of_right_ne_nil _ nofun⟩

end

/-- The exit code is zero exactly if the file can be opened, holds the encoding of
a text, and this text can be lexed; otherwise all output is on the error stream.

On success the output is one line for each token, then, if comments are asked for,
one line for each comment, and nothing is on the error stream.  Tabs split the line
of a token into three fields and that of a comment into two, with one more field for
the byte range if ranges are asked for.  The lines of two tokens are the same exactly
if line numbers, names of kinds, texts and printed byte ranges are the same. -/
theorem outcome_is_whole_or_failure (hidden : Char → Bool) (arguments : Arguments)
    (opened : Except Text (List UInt8)) :
    ((outcome hidden arguments opened).exit = 0 ↔ ∃ tokenized, Readable opened tokenized) ∧
    ((outcome hidden arguments opened).exit ≠ 0 →
      (outcome hidden arguments opened).stdout = [] ∧
      (outcome hidden arguments opened).stderr ≠ []) ∧
    (∀ tokenized, Readable opened tokenized →
      (outcome hidden arguments opened).stderr = [] ∧
      (outcome hidden arguments opened).stdout.splitOn '\n' =
        tokenized.tokens.map (tokenLine hidden arguments.offsets) ++
          (if arguments.comments then
            tokenized.comments.map (commentLine hidden arguments.offsets)
          else
            []) ++ [[]]) ∧
    (∀ token, ((tokenLine hidden arguments.offsets token).splitOn '\t').length =
      if arguments.offsets then 4 else 3) ∧
    (∀ comment, ((commentLine hidden arguments.offsets comment).splitOn '\t').length =
      if arguments.offsets then 3 else 2) ∧
    ∀ left right,
      tokenLine hidden arguments.offsets left = tokenLine hidden arguments.offsets right ↔
        left.line = right.line ∧ left.kind.name = right.kind.name ∧ left.text = right.text ∧
        (arguments.offsets = true →
          left.span.start = right.span.start ∧ left.span.stop = right.span.stop) := by
  refine ⟨?_, ?_, ?_, ?_, ?_, fun left right => tokenLine_inj hidden arguments.offsets⟩
  · constructor
    · intro success
      by_cases readable : ∃ tokenized, Readable opened tokenized
      · exact readable
      · rw [(outcome_of_unreadable readable).1] at success
        cases success
    · rintro ⟨tokenized, readable⟩
      rw [outcome_of_readable readable]
  · intro failure
    by_cases readable : ∃ tokenized, Readable opened tokenized
    · obtain ⟨tokenized, readable⟩ := readable
      rw [outcome_of_readable readable] at failure
      exact absurd rfl failure
    · exact (outcome_of_unreadable readable).2
  · intro tokenized readable
    rw [outcome_of_readable readable]
    exact ⟨rfl, splitOn_lines fun line => noFeed_of_mem_dump hidden⟩
  · intro token
    rw [splitOn_tokenLine, tokenFields, rangeFields]
    split <;> rfl
  · intro comment
    rw [splitOn_commentLine, commentFields, rangeFields]
    split <;> rfl

/-- The value of a string with a line feed and a tab stays on its line. -/
theorem escaped_value_on_its_line :
    let arguments : Arguments := { file := "a.hack", comments := true, offsets := true }
    let text := "\"a\\n\tb\" # c".toList
    let dumped := outcome (fun _ => false) arguments (.ok (Text.bytes text))
    dumped.stderr = [] ∧
    dumped.stdout.splitOn '\n' =
      ["0\tT_DOUBLE_QUOTED_STRING\t\"a\\n\\tb\"\t0..7".toList,
        "Line\t\"# c\"\t8..11".toList, []] := by
  intro arguments text dumped
  have lexed : (tokenize text).toOption.map (fun tokenized =>
      (tokenized.tokens.map (tokenLine (fun _ => false) true),
        tokenized.comments.map (commentLine (fun _ => false) true))) =
      some (["0\tT_DOUBLE_QUOTED_STRING\t\"a\\n\\tb\"\t0..7".toList],
        ["Line\t\"# c\"\t8..11".toList]) := by
    decide +kernel
  cases result : tokenize text with
  | error error =>
      rw [result] at lexed
      cases lexed
  | ok tokenized =>
      rw [result] at lexed
      obtain ⟨tokens, comments⟩ := Prod.mk.inj (Option.some.inj lexed)
      have whole := outcome_is_whole_or_failure (fun _ => false) arguments (.ok (Text.bytes text))
      obtain ⟨quiet, lines⟩ := whole.2.2.1 tokenized ⟨text, rfl, result⟩
      refine ⟨quiet, lines.trans ?_⟩
      rw [if_pos rfl, tokens, comments]
      rfl

end CommandLine

end HackLexer
