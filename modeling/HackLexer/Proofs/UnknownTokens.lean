import HackLexer.Proofs.ClosingNames

/-!
# Where no token starts

Every visible character of ASCII starts something, a backslash only in front of
a name.  So the recognisers leave a character to the error about unknown tokens
exactly if it is outside ASCII, a control character that is no layout, or the
first of backslashes that no letter follows.

The main statement is `unknownToken_iff_startsNoToken`.
-/

namespace HackLexer

/-- A character with a code below the one of the space, or the delete
character. -/
def isControl (character : Char) : Bool :=
  character.toNat < 32 || character.toNat == 127

/-- The texts at whose front neither a token nor layout starts. -/
inductive StartsNoToken : Text → Prop where
  | foreign {first : Char} (behind : Text) (wide : 128 ≤ first.toNat) :
      StartsNoToken (first :: behind)
  | control {first : Char} (behind : Text) (control : isControl first = true)
      (noLayout : first ≠ '\t' ∧ first ≠ '\n' ∧ first ≠ '\x0c' ∧ first ≠ '\r') :
      StartsNoToken (first :: behind)
  /-- All backslashes at the front of the text, with no letter behind them. -/
  | backslashes (count : Nat) {behind : Text}
      (stops : ∀ next, next ∈ behind.head? → next ≠ '\\' ∧ isLetter next = false) :
      StartsNoToken (List.replicate (count + 1) '\\' ++ behind)

/-- A character of ASCII that is neither a space nor a control character. -/
def isVisible (character : Char) : Bool :=
  32 < character.toNat && character.toNat < 127

theorem ascii_all (holds : Char → Prop) (codes : ∀ code < 128, holds (Char.ofNat code))
    {character : Char} (ascii : character.toNat < 128) : holds character := by
  have here := codes character.toNat ascii
  rwa [Char.ofNat_toNat] at here

theorem toNat_lt_of_isPlain {character : Char} (plain : isPlain character) :
    character.toNat < 128 := by
  have size := (Bool.and_eq_true_iff.mp plain).1
  rw [beq_iff_eq, Char.utf8Size_eq_one_iff, UInt32.le_iff_toNat_le] at size
  exact Nat.lt_succ_of_le size

theorem isVisible_of_isAlphanumeric {character : Char}
    (alphanumeric : isAlphanumeric character = true) : isVisible character = true := by
  have ascii := toNat_lt_of_isPlain (isPlain_of_isAlphanumeric alphanumeric)
  revert alphanumeric
  exact ascii_all (fun character => isAlphanumeric character = true → isVisible character = true)
    (by decide) ascii

theorem punctuations_visible :
    ∀ entry ∈ punctuations, ∃ first more, entry.1 = first :: more ∧ isVisible first = true := by
  have heads : ∀ entry ∈ punctuations, entry.1.head?.any isVisible = true := by decide
  intro entry member
  have head := heads entry member
  cases spelled : entry.1 with
  | nil =>
      rw [spelled] at head
      cases head
  | cons first more =>
      rw [spelled] at head
      exact ⟨first, more, rfl, head⟩

/-- Every visible character starts something. -/
theorem visible_starts {character : Char} (visible : isVisible character = true) :
    character ∈ ['\\', '#', '"', '\'', '$'] ∨ isAlphanumeric character = true ∨
      ∃ entry ∈ punctuations, entry.1 = [character] := by
  have ascii : character.toNat < 128 := by
    simp only [isVisible, Bool.and_eq_true, decide_eq_true_eq] at visible
    omega
  revert visible
  exact ascii_all (fun character => isVisible character = true →
    character ∈ ['\\', '#', '"', '\'', '$'] ∨ isAlphanumeric character = true ∨
      ∃ entry ∈ punctuations, entry.1 = [character]) (by decide +kernel) ascii

theorem punctuation?_eq_none {first : Char} (rest : Text)
    (unlisted : ∀ entry ∈ punctuations, ∀ more, entry.1 ≠ first :: more) :
    punctuation? (first :: rest) = none := by
  rw [punctuation?, Option.map_eq_none_iff, List.find?_eq_none]
  intro entry member starts
  obtain ⟨other, more, same, _⟩ := punctuations_visible entry member
  rw [same, List.isPrefixOf_cons_cons, Bool.and_eq_true, beq_iff_eq] at starts
  exact unlisted entry member more (starts.1 ▸ same)

section Recognisers

variable {markup : Bool} {cursor : Cursor} {first : Char} {behind : Text}

theorem recognise_eq_none_iff :
    recognise markup cursor = none ↔
      layoutAt cursor = none ∧ markerAt cursor = none ∧ commentAt cursor = none ∧
        quotedAt cursor = none ∧ docStringAt cursor = none ∧ number? cursor.rest = none ∧
        word? cursor.rest = none ∧ dollar? cursor.rest = none ∧
        elementAt markup cursor = none ∧ punctuation? cursor.rest = none := by
  simp only [recognise, Option.orElse_eq_none, tokenAt, Option.map_eq_none_iff]

theorem layoutAt_ne_none (rest : cursor.rest = first :: behind) (layout : isLayout first = true) :
    layoutAt cursor ≠ none := by
  unfold layoutAt
  split
  · exact Option.some_ne_none _
  · rename_i noFeed
    have blank : isBlank first = true := by
      rcases Bool.or_eq_true_iff.mp layout with blank | feed
      · exact blank
      · exact absurd (eq_of_beq feed ▸ rest) (noFeed behind)
    rw [rest, Text.countWhile_cons, if_pos blank]
    exact Option.some_ne_none _

theorem recognise_eq_none (rest : cursor.rest = first :: behind) (inked : isLayout first = false)
    (unmarked : first ∉ ['"', '\'', '#', '/', '<', '$', '.']) (noDigit : first.isDigit = false)
    (noWord : word? (first :: behind) = none)
    (unlisted : ∀ entry ∈ punctuations, ∀ more, entry.1 ≠ first :: more) :
    recognise markup cursor = none := by
  simp only [List.mem_cons, List.not_mem_nil, or_false, not_or] at unmarked
  obtain ⟨noDouble, noSingle, noHash, noSlash, noAngle, noDollar, noPoint⟩ := unmarked
  have spelled := recognise_spelled markup rest inked ⟨noDouble, noSingle, noHash⟩
    (fun slash => absurd slash noSlash) (by simp [rest, Ne.symm noAngle])
  have element : elementAt markup cursor = none := by
    rw [ModeStack.Machine.elementAt_eq, rest, markupName?_of_ne noAngle, ite_self]
    rfl
  rw [spelled, ModeStack.Machine.spelledAt, element, rest,
    number?_of_no_digit behind noDigit noPoint, noWord, dollar?_of_ne noDollar,
    punctuation?_eq_none behind unlisted]
  rfl

theorem recognise_of_invisible (rest : cursor.rest = first :: behind)
    (invisible : isVisible first = false) (inked : isLayout first = false) :
    recognise markup cursor = none := by
  have other {character : Char} (visible : isVisible character = true) : first ≠ character := by
    rintro rfl
    rw [invisible] at visible
    cases visible
  have noAlphanumeric : isAlphanumeric first = false := by
    by_contra alphanumeric
    exact other (isVisible_of_isAlphanumeric (Bool.eq_true_of_not_eq_false alphanumeric)) rfl
  obtain ⟨noDigit, noLetter⟩ := Bool.or_eq_false_iff.mp noAlphanumeric
  apply recognise_eq_none rest inked _ noDigit
  · exact word?_of_no_letter behind noLetter (beq_eq_false_iff_ne.mpr (other rfl))
  · intro entry member more same
    obtain ⟨character, _, spelled, visible⟩ := punctuations_visible entry member
    rw [spelled] at same
    exact other visible (List.cons.inj same).1.symm
  · intro member
    have visible : ['"', '\'', '#', '/', '<', '$', '.'].all isVisible = true := by decide
    exact other (List.all_eq_true.mp visible first member) rfl

theorem recognise_of_backslashes (count : Nat)
    (rest : cursor.rest = List.replicate (count + 1) '\\' ++ behind)
    (stops : ∀ next, next ∈ behind.head? → next ≠ '\\' ∧ isLetter next = false) :
    recognise markup cursor = none := by
  have noWord : word? (List.replicate (count + 1) '\\' ++ behind) = none := by
    have dropped : (List.replicate (count + 1) '\\' ++ behind).dropWhile (· == '\\') =
        behind.dropWhile (· == '\\') :=
      List.dropWhile_append_of_pos (by simp)
    rw [word?_eq_none_iff, dropped]
    cases behind with
    | nil => nofun
    | cons next more =>
        obtain ⟨other, noLetter⟩ := stops next rfl
        rw [List.dropWhile_cons_of_neg (by simpa using other)]
        intro character head
        cases head
        exact noLetter
  rw [List.replicate_succ, List.cons_append] at rest noWord
  refine recognise_eq_none rest rfl (by decide) rfl noWord ?_
  have heads : ∀ entry ∈ punctuations, entry.1.head? ≠ some '\\' := by decide
  intro entry member more same
  exact heads entry member (same ▸ rfl)

theorem startsNoToken_of_backslash (noWord : word? ('\\' :: behind) = none) :
    StartsNoToken ('\\' :: behind) := by
  have run : behind.takeWhile (· == '\\') =
      List.replicate (behind.takeWhile (· == '\\')).length '\\' := by
    apply List.eq_replicate_of_mem
    intro character member
    exact eq_of_beq (List.all_eq_true.mp List.all_takeWhile character member)
  have whole : '\\' :: behind =
      List.replicate ((behind.takeWhile (· == '\\')).length + 1) '\\' ++
        behind.dropWhile (· == '\\') := by
    rw [List.replicate_succ, ← run, List.cons_append, List.takeWhile_append_dropWhile]
  rw [word?_eq_none_iff, List.dropWhile_cons_of_pos (by decide)] at noWord
  rw [whole]
  refine .backslashes _ fun next head => ⟨?_, noWord next head⟩
  have other := List.head?_dropWhile_not (· == '\\') behind
  rw [Option.mem_def.mp head] at other
  exact beq_eq_false_iff_ne.mp other

/-- Where no recogniser applies, the first character is no visible one but a
backslash. -/
theorem startsNoToken_of_recognise (rest : cursor.rest = first :: behind)
    (silent : recognise markup cursor = none) : StartsNoToken (first :: behind) := by
  obtain ⟨noLayout, _, noComment, noQuote, _, noNumber, noWord, noDollar, _, noMark⟩ :=
    recognise_eq_none_iff.mp silent
  rw [rest] at noNumber noWord noDollar noMark
  have inked : isLayout first = false := by
    by_contra layout
    exact layoutAt_ne_none rest (Bool.eq_true_of_not_eq_false layout) noLayout
  by_cases visible : isVisible first = true
  · rcases visible_starts visible with listed | alphanumeric | ⟨entry, member, spelled⟩
    · simp only [List.mem_cons, List.not_mem_nil, or_false] at listed
      rcases listed with rfl | rfl | rfl | rfl | rfl
      · exact startsNoToken_of_backslash noWord
      · simp [commentAt, rest] at noComment
      · simp [quotedAt, rest] at noQuote
      · simp only [quotedAt, rest] at noQuote
        split at noQuote <;> cases noQuote
      · simp only [dollar?] at noDollar
        split at noDollar
        · cases noDollar
        · split at noDollar <;> cases noDollar
    · rcases Bool.or_eq_true_iff.mp alphanumeric with digit | letter
      · exact absurd noNumber (number?_of_isDigit digit behind)
      · exact absurd noWord (word?_of_isLetter letter behind)
    · rw [punctuation?, Option.map_eq_none_iff, List.find?_eq_none] at noMark
      exact absurd (by simp [spelled]) (noMark entry member)
  · by_cases wide : 128 ≤ first.toNat
    · exact .foreign behind wide
    · simp only [isLayout, isBlank, Bool.or_eq_false_iff, beq_eq_false_iff_ne] at inked
      obtain ⟨⟨⟨⟨noSpace, noTab⟩, noReturn⟩, noFormFeed⟩, noFeed⟩ := inked
      have noCode : first.toNat ≠ 32 := fun code => noSpace (Char.toNat_inj.mp code)
      refine .control behind ?_ ⟨noTab, noFeed, noFormFeed, noReturn⟩
      simp only [isVisible, Bool.and_eq_true, decide_eq_true_eq] at visible
      simp only [isControl, Bool.or_eq_true, decide_eq_true_eq, beq_iff_eq]
      omega

theorem recognise_of_startsNoToken {text : Text} (rest : cursor.rest = text)
    (starts : StartsNoToken text) : recognise markup cursor = none := by
  cases starts with
  | @foreign first behind wide =>
      have invisible : isVisible first = false := by
        simp only [isVisible, Bool.and_eq_false_iff, decide_eq_false_iff_not]
        omega
      have other (character : Char) (ascii : character.toNat < 128) : first ≠ character := by
        rintro rfl
        omega
      refine recognise_of_invisible rest invisible ?_
      simp [isLayout, isBlank, other ' ' (by decide), other '\t' (by decide),
        other '\r' (by decide), other '\x0c' (by decide), other '\n' (by decide)]
  | @control first behind control noLayout =>
      obtain ⟨noTab, noFeed, noFormFeed, noReturn⟩ := noLayout
      simp only [isControl, Bool.or_eq_true, decide_eq_true_eq, beq_iff_eq] at control
      have invisible : isVisible first = false := by
        simp only [isVisible, Bool.and_eq_false_iff, decide_eq_false_iff_not]
        omega
      have noSpace : first ≠ ' ' := by
        rintro rfl
        revert control
        decide
      refine recognise_of_invisible rest invisible ?_
      simp [isLayout, isBlank, noSpace, noTab, noReturn, noFormFeed, noFeed]
  | backslashes count stops => exact recognise_of_backslashes count rest stops

theorem recognise_eq_none_iff_startsNoToken (remaining : cursor.rest ≠ []) :
    recognise markup cursor = none ↔ StartsNoToken cursor.rest := by
  obtain ⟨first, behind, rest⟩ := List.exists_cons_of_ne_nil remaining
  constructor
  · intro silent
    rw [rest]
    exact startsNoToken_of_recognise rest silent
  · exact recognise_of_startsNoToken rfl

end Recognisers

/-- A recogniser that fails has found what cannot be read. -/
def Knowing (recognised : Recognised) : Prop :=
  ∀ error, recognised = some (.error error) → error.cause ≠ .unknownToken

theorem Knowing.of_none : Knowing none := by
  intro error failure
  cases failure

theorem Knowing.of_ok (scanned : Scanned) : Knowing (some (.ok scanned)) := by
  intro error failure
  cases failure

theorem Knowing.orElse {first second : Recognised} (left : Knowing first)
    (right : Knowing second) : Knowing (first <|> second) := by
  cases first with
  | none => simpa using right
  | some result => simpa using left

theorem Knowing.of_map {Found : Type} (found : Option Found) (scanned : Found → Scanned) :
    Knowing (found.map fun found => .ok (scanned found)) := by
  intro error failure
  obtain ⟨_, _, same⟩ := Option.map_eq_some_iff.mp failure
  cases same

theorem Knowing.of_blockComment (opening start : Cursor) (skipped : Nat)
    (passing : Comment × Cursor → Scanned) :
    Knowing (some ((blockComment opening start skipped).map passing)) := by
  intro error failure
  unfold blockComment at failure
  split at failure
  · cases failure
  · cases failure
    nofun

theorem layoutAt_knowing (cursor : Cursor) : Knowing (layoutAt cursor) := by
  intro error failure
  unfold layoutAt at failure
  split at failure
  · cases failure
  · split at failure <;> cases failure

theorem markerAt_knowing (cursor : Cursor) : Knowing (markerAt cursor) := by
  unfold markerAt
  split
  · exact .of_none
  · simp only
    split
    · exact .of_blockComment _ _ _ _
    · exact .of_ok _

theorem commentAt_knowing (cursor : Cursor) : Knowing (commentAt cursor) := by
  simp only [commentAt]
  split
  · exact .of_blockComment _ _ _ _
  · exact .of_ok _
  · exact .of_ok _
  · exact .of_none

theorem quotedAt_knowing (cursor : Cursor) : Knowing (quotedAt cursor) := by
  intro error failure
  unfold quotedAt at failure
  split at failure
  · cases failure
  · split at failure
    · cases failure
      nofun
    · cases failure
  · cases failure

theorem docStringAt_knowing (cursor : Cursor) : Knowing (docStringAt cursor) := by
  intro error failure
  unfold docStringAt at failure
  split at failure
  · split at failure
    · cases failure
      nofun
    · simp only at failure
      split at failure
      · cases failure
      · split at failure
        · cases failure
          nofun
        · cases failure
  · cases failure

theorem elementAt_knowing (markup : Bool) (cursor : Cursor) :
    Knowing (elementAt markup cursor) := by
  unfold elementAt
  split
  · exact .of_map _ _
  · exact .of_none

theorem recognise_knowing (markup : Bool) (cursor : Cursor) :
    Knowing (recognise markup cursor) :=
  (layoutAt_knowing cursor).orElse <| (markerAt_knowing cursor).orElse <|
    (commentAt_knowing cursor).orElse <| (quotedAt_knowing cursor).orElse <|
    (docStringAt_knowing cursor).orElse <| Knowing.orElse (.of_map _ _) <|
    Knowing.orElse (.of_map _ _) <| Knowing.orElse (.of_map _ _) <|
    (elementAt_knowing markup cursor).orElse (.of_map _ _)

/-- A scan finds no token exactly where none starts, and it blames the character
there. -/
theorem scan_unknownToken_iff {markup : Bool} {cursor : Cursor} {error : LexicalError}
    (remaining : cursor.rest ≠ []) :
    scan markup cursor = .error error ∧ error.cause = .unknownToken ↔
      StartsNoToken cursor.rest ∧ error = unknownTokenAt cursor := by
  rw [← @recognise_eq_none_iff_startsNoToken markup cursor remaining]
  unfold scan
  cases recognised : recognise markup cursor with
  | none =>
      rw [Option.getD_none, Except.error.injEq]
      constructor
      · rintro ⟨rfl, _⟩
        exact ⟨rfl, rfl⟩
      · rintro ⟨_, rfl⟩
        exact ⟨rfl, rfl⟩
  | some result =>
      rw [Option.getD_some]
      constructor
      · rintro ⟨rfl, unknown⟩
        exact absurd unknown (recognise_knowing markup cursor error recognised)
      · rintro ⟨silent, _⟩
        cases silent

theorem Lexer.failed_unknownToken_iff {lexer : Lexer} {error : LexicalError}
    (ready : lexer.ready = []) (literal : lexer.literal = none)
    (remaining : lexer.cursor.rest ≠ []) (unknown : error.cause = .unknownToken) :
    (∃ after, lexer.step = .pulled (.failed error after)) ↔
      scan lexer.interpolations.isEmpty lexer.cursor = .error error := by
  constructor
  · rintro ⟨after, failed⟩
    have turn := lexer.step_turn
    generalize result : lexer.step = answer at turn
    rw [failed] at result
    cases turn with
    | closed _ opened =>
        rw [literal] at opened
        cases opened
    | unclosed _ opened =>
        rw [literal] at opened
        cases opened
    | finished _ _ finished => exact absurd finished remaining
    | failed _ _ _ failure =>
        cases result
        exact failure
    | lexeme _ _ _ _ _ delivery =>
        subst result
        cases delivery with
        | unclosedComment interpolations elements receipt unclosed =>
            rw [markupComment_error unclosed] at unknown
            cases unknown
    | _ => cases result
  · intro failure
    exact ⟨lexer, by rw [step_of_scan ready literal remaining, failure]⟩

/-- Where a lexer scans in the course of a run, it fails about an unknown token
exactly if no token starts there, whether or not markup is allowed, and the error
points at the one character that stands there.  Elsewhere a scan passes over
layout, gives a token, opens a literal or an element, or fails about something
else. -/
theorem unknownToken_iff_startsNoToken {text : Text} {tokens : List Token} {lexer : Lexer}
    (run : Lexer.Run text tokens lexer) (ready : lexer.ready = [])
    (literal : lexer.literal = none) (remaining : lexer.cursor.rest ≠ []) :
    ((∃ error after, lexer.step = .pulled (.failed error after) ∧
      error.cause = .unknownToken) ↔ StartsNoToken lexer.cursor.rest) ∧
    ∀ markup,
      ((∃ error, scan markup lexer.cursor = .error error ∧ error.cause = .unknownToken) ↔
        StartsNoToken lexer.cursor.rest) ∧
      (∀ error, scan markup lexer.cursor = .error error → error.cause = .unknownToken →
        ∃ front first behind, text = front ++ first :: behind ∧
          lexer.cursor.rest = first :: behind ∧
          error.span = { start := Text.byteLength front, text := [first] }) ∧
      (¬ StartsNoToken lexer.cursor.rest →
        (∃ scanned, scan markup lexer.cursor = .ok scanned ∧
          ScanSuccess markup lexer.cursor scanned) ∨
        ∃ error, scan markup lexer.cursor = .error error ∧ error.cause ≠ .unknownToken) := by
  have unknown (markup : Bool) :
      (∃ error, scan markup lexer.cursor = .error error ∧ error.cause = .unknownToken) ↔
        StartsNoToken lexer.cursor.rest := by
    simp only [scan_unknownToken_iff remaining, exists_and_left, exists_eq, and_true]
  refine ⟨?_, fun markup => ⟨unknown markup, ?_, ?_⟩⟩
  · rw [← unknown lexer.interpolations.isEmpty]
    constructor
    · rintro ⟨error, after, failed, cause⟩
      have fails := Lexer.failed_unknownToken_iff ready literal remaining cause
      exact ⟨error, fails.mp ⟨after, failed⟩, cause⟩
    · rintro ⟨error, failure, cause⟩
      have fails := Lexer.failed_unknownToken_iff ready literal remaining cause
      obtain ⟨after, failed⟩ := fails.mpr failure
      exact ⟨error, after, failed, cause⟩
  · intro error failure cause
    obtain ⟨_, rfl⟩ := (scan_unknownToken_iff remaining).mp ⟨failure, cause⟩
    obtain ⟨front, whole, offset, _⟩ := run.placed.cursor.exists_front
    obtain ⟨first, behind, rest⟩ := List.exists_cons_of_ne_nil remaining
    refine ⟨front, first, behind, rest ▸ whole, rest, ?_⟩
    rw [unknownTokenAt, Cursor.spanOf, Cursor.spanTo_advance, rest, offset]
    rfl
  · intro starts
    cases result : scan markup lexer.cursor with
    | ok scanned => exact .inl ⟨scanned, rfl, scan_success result⟩
    | error error =>
        refine .inr ⟨error, rfl, fun cause => ?_⟩
        exact starts ((unknown markup).mp ⟨error, result, cause⟩)

/-- Backslashes in an interpolation, in front of a sign: neither there nor anywhere
else does a token start with them. -/
theorem backslashes_in_interpolation_unknown :
    let text := "\"\x7b\\\\-".toList
    ∃ lexer, Lexer.Run text [] lexer ∧ lexer.ready = [] ∧ lexer.literal = none ∧
      lexer.interpolations ≠ [] ∧ lexer.cursor.rest = "\\\\-".toList ∧
      StartsNoToken lexer.cursor.rest ∧
      (∃ error after, lexer.step = .pulled (.failed error after) ∧
        error.cause = .unknownToken) ∧
      ∀ markup, ∃ error front, scan markup lexer.cursor = .error error ∧
        text = front ++ lexer.cursor.rest ∧
        error.span = { start := Text.byteLength front, text := ['\\'] } := by
  intro text
  have quoted : Lexer.Run text [] _ := .moved .start rfl
  have interrupted : Lexer.Run text [] _ := .moved quoted rfl
  have starts : StartsNoToken ("\\\\-".toList) :=
    @StartsNoToken.backslashes 1 ['-'] (by simp; decide)
  obtain ⟨fails, scans⟩ := unknownToken_iff_startsNoToken interrupted rfl rfl nofun
  refine ⟨_, interrupted, rfl, rfl, nofun, rfl, starts, fails.mpr starts, fun markup => ?_⟩
  obtain ⟨unknown, points, _⟩ := scans markup
  obtain ⟨error, failure, cause⟩ := unknown.mpr starts
  obtain ⟨front, first, behind, whole, rest, span⟩ := points error failure cause
  refine ⟨error, front, failure, rest ▸ whole, ?_⟩
  cases rest
  exact span

end HackLexer
