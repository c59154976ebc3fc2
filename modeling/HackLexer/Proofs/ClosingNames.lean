import HackLexer.Proofs.Grammar.Closures
import HackLexer.Proofs.MarkupNesting

/-!
# Names in closing tags

The name in a closing tag is not matched like the name that opens an element: it is
read in pieces, which are ordinary tokens, up to a `>`.  Words and numbers contain no
`>` and do not end with a hyphen, and hyphens are taken in pairs.  So all pieces stop
in front of the `>` unless the name ends with an odd number of hyphens; then the last
one of them and the `>` are read as an arrow, and the closing tag goes on.

The main statement is `tokenize_element`.
-/

namespace HackLexer

open scoped Computability

namespace Grammar

/-- The texts without `>` that do not end with a hyphen. -/
def settled : Language Char :=
  {text | '>' ∉ text ∧ text.getLast? ≠ some '-'}

theorem append_mem_settled_of_ne_nil {front back : Text} (noGt : '>' ∉ front)
    (backMember : back ∈ settled) (nonempty : back ≠ []) : front ++ back ∈ settled := by
  refine ⟨?_, ?_⟩
  · simp [noGt, backMember.1]
  · rw [List.getLast?_append_of_ne_nil _ nonempty]
    exact backMember.2

theorem closed_settled : Closed settled where
  nothing := by
    rintro _ rfl
    exact ⟨List.not_mem_nil, nofun⟩
  joined := by
    rintro _ ⟨front, frontMember, back, backMember, rfl⟩
    change front ++ back ∈ settled
    cases back with
    | nil =>
        rw [List.append_nil]
        exact frontMember
    | cons first more =>
        exact append_mem_settled_of_ne_nil frontMember.1 backMember (List.cons_ne_nil first more)

theorem oneOf_le_settled {test : Char → Bool} (noGt : test '>' = false)
    (noHyphen : test '-' = false) : oneOf test ≤ settled := by
  rintro _ ⟨character, passes, rfl⟩
  refine ⟨?_, ?_⟩
  · intro member
    cases List.mem_singleton.mp member
    rw [noGt] at passes
    cases passes
  · intro last
    have same : character = '-' := Option.some.inj last
    rw [same, noHyphen] at passes
    cases passes

theorem spelling_le_settled {text : String} (noGt : '>' ∉ text.toList)
    (settles : text.toList.getLast? ≠ some '-') : spelling text ≤ settled := by
  rintro _ rfl
  exact ⟨noGt, settles⟩

theorem digit_le_settled : digit ≤ settled :=
  oneOf_le_settled rfl rfl

theorem int_le_settled : int ≤ settled :=
  closed_settled.int_le (oneOf_le_settled rfl rfl)

/-- The sign of an exponent may be a hyphen, but digits follow it. -/
theorem exponent_le_settled : exponent ≤ settled := by
  rintro _ ⟨_, ⟨_, ⟨mark, isMark, rfl⟩, sign, signMember, rfl⟩, digits, digitsMember, rfl⟩
  apply append_mem_settled_of_ne_nil
  · have noMark : '>' ∉ [mark] := (oneOf_le_settled rfl rfl ⟨mark, isMark, rfl⟩).1
    have noSign : '>' ∉ sign := by
      rcases signMember with (rfl | rfl) | rfl <;> decide
    intro member
    exact (List.mem_append.mp member).elim noMark noSign
  · exact closed_settled.oneOrMore_le digit_le_settled digitsMember
  · exact (mem_oneOrMore_oneOf.mp digitsMember).1

theorem float_le_settled : float ≤ settled :=
  closed_settled.float_le digit_le_settled (spelling_le_settled (by decide) (by decide))
    exponent_le_settled

theorem atom_le_settled : atom ≤ settled := by
  refine add_le ?_ ?_
  · exact closed_settled.mul_le (oneOf_le_settled rfl rfl)
      (closed_settled.star_le (oneOf_le_settled rfl rfl))
  · rintro _ ⟨_, ⟨first, lower, inside, hyphenated, rfl⟩, last, settles, rfl⟩
    have noFirst : '>' ∉ first := (oneOf_le_settled rfl rfl lower).1
    have noInside : '>' ∉ inside := fun member =>
      absurd (mem_star_oneOf.mp hyphenated '>' member) (by decide)
    apply append_mem_settled_of_ne_nil
    · intro member
      exact (List.mem_append.mp member).elim noFirst noInside
    · exact oneOf_le_settled rfl rfl settles
    · obtain ⟨character, _, rfl⟩ := settles
      exact List.cons_ne_nil character []

theorem word_le_settled : word ≤ settled :=
  closed_settled.word_le (spelling_le_settled (by decide) (by decide)) atom_le_settled

end Grammar

theorem ne_gt_of_settled {text : Text} {kind : TokenKind} (member : text ∈ kind.language)
    (settles : text ∈ Grammar.settled) : kind ≠ .gt := by
  rintro rfl
  have spelled : (text, TokenKind.gt) ∈ punctuations := member
  have same : text = ['>'] := by simpa [punctuations] using spelled
  exact settles.1 (by simp [same])

theorem number?_of_isDigit {first : Char} (digit : first.isDigit = true) (rest : Text) :
    number? (first :: rest) ≠ none := by
  have positive : 0 < Number.integer (first :: rest) := by
    by_cases zero : first = '0'
    · rw [zero]
      exact Number.integer_zero_pos rest
    · rw [Number.integer_decimal zero, Number.digits, Text.countWhile_cons, if_pos digit]
      exact Nat.succ_pos _
  unfold number?
  rw [if_pos positive]
  split <;> exact Option.some_ne_none _

theorem word?_of_isLetter {first : Char} (letter : isLetter first = true) (rest : Text) :
    word? (first :: rest) ≠ none := by
  intro missing
  have other : ¬ (first == '\\') = true := by
    rw [beq_iff_eq]
    rintro rfl
    cases letter
  have noLetter := word?_eq_none_iff.mp missing first
    (by rw [List.dropWhile_cons, if_neg other]; rfl)
  rw [letter] at noLetter
  cases noLetter

namespace Text

def hyphensBehind (text : Text) : Nat :=
  countWhile (· == '-') text.reverse

theorem hyphensBehind_append (front back : Text) :
    hyphensBehind (front ++ back) =
      if hyphensBehind back = back.length then back.length + hyphensBehind front
      else hyphensBehind back := by
  unfold hyphensBehind
  rw [List.reverse_append, countWhile_append, List.length_reverse]

theorem hyphensBehind_of_settled {text : Text} (settles : text ∈ Grammar.settled) :
    hyphensBehind text = 0 := by
  have ends := settles.2
  rw [List.getLast?_eq_head?_reverse] at ends
  unfold hyphensBehind
  cases reversed : text.reverse with
  | nil => rfl
  | cons last more =>
      have other : (last == '-') = false := by
        rw [beq_eq_false_iff_ne]
        rintro rfl
        exact ends (by rw [reversed]; rfl)
      rw [countWhile_cons, other]
      rfl

theorem hyphensBehind_append_of_settled {front : Text} (settles : front ∈ Grammar.settled)
    (back : Text) : hyphensBehind (front ++ back) = hyphensBehind back := by
  rw [hyphensBehind_append, hyphensBehind_of_settled settles]
  split
  · rename_i whole
    exact whole.symm
  · rfl

theorem hyphensBehind_cons_cons (first : Char) {second : Char} (rest : Text)
    (other : second ≠ '-') :
    hyphensBehind (first :: second :: rest) = hyphensBehind (second :: rest) := by
  have pair : first :: second :: rest = [first] ++ second :: rest := rfl
  have stops : hyphensBehind (second :: rest) ≠ (second :: rest).length := by
    intro whole
    unfold hyphensBehind countWhile at whole
    rw [← @List.length_reverse _ (second :: rest)] at whole
    have all := (List.takeWhile_prefix _).eq_of_length whole
    have member : second ∈ (second :: rest).reverse := by simp
    rw [← all] at member
    exact other (beq_iff_eq.mp (List.all_eq_true.mp List.all_takeWhile second member))
  rw [pair, hyphensBehind_append, if_neg stops]

theorem hyphensBehind_pair (rest : Text) :
    hyphensBehind ('-' :: '-' :: rest) % 2 = hyphensBehind rest % 2 := by
  have pair : '-' :: '-' :: rest = ['-', '-'] ++ rest := rfl
  have two : hyphensBehind ['-', '-'] = 2 := rfl
  rw [pair, hyphensBehind_append, two]
  split
  · rename_i whole
    omega
  · rfl

end Text

def isNameCharacter (character : Char) : Bool :=
  MarkupName.isPart character || character == '%'

theorem Grammar.markupName_le_star : markupName ≤ (oneOf isNameCharacter)∗ := by
  have spelled {text : String} (inside : text.toList.all isNameCharacter = true) :
      spelling text ≤ (oneOf isNameCharacter)∗ := by
    rintro _ rfl
    exact mem_star_oneOf.mpr (List.all_eq_true.mp inside)
  have alphanumerics : oneOf isAlphanumeric ≤ oneOf isNameCharacter := by
    apply oneOf_mono
    intro character alphanumeric
    simp [isNameCharacter, MarkupName.isPart, alphanumeric]
  exact (Closed.star _).markupName_le (spelled rfl) (alphanumerics.trans le_kstar) (spelled rfl)
    (spelled rfl)

theorem markupName?_characters {text : Text} {count : Nat}
    (found : markupName? ('<' :: text) = some (count + 1)) :
    ∀ character, character ∈ text.take count → isNameCharacter character = true := by
  obtain ⟨_, rfl, name, member, same⟩ := markupName?_mem found
  have taken : name = text.take count := (List.cons.inj same).2
  rw [← taken]
  exact Grammar.mem_star_oneOf.mp (Grammar.markupName_le_star member)

/-- A name in front of a `>` does not depend on what follows it. -/
theorem markupName?_append_gt {name : Text} (behind : Text)
    (named : markupName? ('<' :: name ++ ['>']) = some (name.length + 1)) :
    markupName? ('<' :: name ++ '>' :: behind) = some (name.length + 1) := by
  have alone : markupName? ('<' :: name) = some (name.length + 1) :=
    markupName?_local.matched named (Nat.le_refl _)
  cases found : markupName? ('<' :: name ++ '>' :: behind) with
  | none =>
      have missing := markupName?_local.unmatched found
      rw [alone] at missing
      cases missing
  | some count =>
      rcases Nat.lt_or_ge ('<' :: name).length count with beyond | within
      · cases count with
        | zero => cases beyond
        | succ count =>
            have taken : '>' ∈ (name ++ '>' :: behind).take count :=
              Text.mem_take_of_beyond (Nat.lt_of_succ_lt_succ beyond)
            exact absurd (markupName?_characters found '>' taken) (by decide)
      · have cut := markupName?_local.matched found within
        rw [alone] at cut
        rw [cut]

theorem ne_of_isAlphanumeric {character other : Char}
    (alphanumeric : isAlphanumeric character = true) (different : isAlphanumeric other = false) : character ≠ other := by
  rintro rfl
  rw [different] at alphanumeric
  cases alphanumeric

section Pieces

variable {cursor : Cursor}

open ModeStack.Machine in
/-- At a letter or digit stands a token that is no `>`, contains none and does not end
with a hyphen. -/
theorem scan_alphanumeric {first : Char} {rest : Text} (here : cursor.rest = first :: rest)
    (alphanumeric : isAlphanumeric first = true) :
    ∃ kind count, 0 < count ∧ kind ≠ .gt ∧ cursor.rest.take count ∈ Grammar.settled ∧
      scan true cursor = .ok (.ofLexeme (cursor.lexeme kind count)) := by
  have other (character : Char) (different : isAlphanumeric character = false) :
      first ≠ character := ne_of_isAlphanumeric alphanumeric different
  have inked : isLayout first = false := by
    simp [isLayout, isBlank, other ' ' rfl, other '\t' rfl,
      other '\r' rfl, other '\x0c' rfl,
      other '\n' rfl]
  have noOpener : ¬ "<<<".toList.isPrefixOf cursor.rest := by
    simp [here, Ne.symm (other '<' rfl)]
  have spelled : recognise true cursor = spelledAt true cursor :=
    recognise_spelled true here inked ⟨other '"' rfl, other '\'' rfl, other '#' rfl⟩
      (fun slash => absurd slash (other '/' rfl)) noOpener
  cases number : number? cursor.rest with
  | some found =>
      obtain ⟨kind, count⟩ := found
      have settles := number?_mem_of_le Grammar.int_le_settled Grammar.float_le_settled number
      refine ⟨kind, count, number?_positive number,
        ne_gt_of_settled (number?_mem number).1 settles, settles, ?_⟩
      unfold scan
      rw [spelled, spelledAt, number]
      rfl
  | none =>
      have letter : isLetter first = true := by
        rw [here] at number
        rcases Bool.or_eq_true_iff.mp alphanumeric with digit | letter
        · exact absurd number (number?_of_isDigit digit rest)
        · exact letter
      have spells := word?_of_isLetter letter rest
      rw [← here] at spells
      obtain ⟨⟨kind, count⟩, word⟩ := Option.ne_none_iff_exists'.mp spells
      have settles := word?_mem_of_le Grammar.word_le_settled word
      refine ⟨kind, count, word?_positive word, ne_gt_of_settled (word?_mem word).1 settles,
        settles, ?_⟩
      unfold scan
      rw [spelled, spelledAt, number, word]
      rfl

theorem scan_arrow {rest : Text} (here : cursor.rest = '-' :: '>' :: rest) :
    scan true cursor = .ok (.ofLexeme (cursor.lexeme .arrow 2)) :=
  scan_sign (by decide) here rfl

theorem scan_minus {next : Char} {rest : Text} (here : cursor.rest = '-' :: next :: rest)
    (other : next ≠ '-' ∧ next ≠ '>' ∧ next ≠ '=') :
    scan true cursor = .ok (.ofLexeme (cursor.lexeme .minus 1)) := by
  apply scan_sign (by decide) here
  simp [punctuation?, punctuations, Ne.symm other.1, Ne.symm other.2.1, Ne.symm other.2.2]

theorem scan_colonColon {rest : Text} (here : cursor.rest = ':' :: ':' :: rest) :
    scan true cursor = .ok (.ofLexeme (cursor.lexeme .colonColon 2)) :=
  scan_sign (by decide) here rfl

theorem scan_percent {next : Char} {rest : Text} (here : cursor.rest = '%' :: next :: rest)
    (other : next ≠ '=') : scan true cursor = .ok (.ofLexeme (cursor.lexeme .percent 1)) := by
  apply scan_sign (by decide) here
  simp [punctuation?, punctuations, Ne.symm other]

/-- In front of a `>` that ends a name stands a token that stops in front of it and
leaves an even or odd number of hyphens as it was, unless only one hyphen is left. -/
theorem scan_piece {shown more : Text}
    (inName : ∀ character, character ∈ shown → isNameCharacter character = true)
    (here : cursor.rest = shown ++ '>' :: more) (nonempty : shown ≠ []) (goesOn : shown ≠ ['-']) :
    ∃ kind count, 0 < count ∧ count ≤ shown.length ∧ kind ≠ .gt ∧
      scan true cursor = .ok (.ofLexeme (cursor.lexeme kind count)) ∧
      Text.hyphensBehind (shown.drop count) % 2 = Text.hyphensBehind shown % 2 := by
  have behindSettled (count : Nat) (settles : shown.take count ∈ Grammar.settled) :
      Text.hyphensBehind (shown.drop count) % 2 = Text.hyphensBehind shown % 2 := by
    have same := Text.hyphensBehind_append_of_settled settles (shown.drop count)
    rw [List.take_append_drop] at same
    rw [same]
  have others (character : Char) (different : isNameCharacter character = false) :
      character ∉ shown := by
    intro member
    rw [inName character member] at different
    cases different
  obtain ⟨first, rest, rfl⟩ := List.exists_cons_of_ne_nil nonempty
  have firstInName := inName first List.mem_cons_self
  simp only [isNameCharacter, MarkupName.isPart, Bool.or_eq_true, beq_iff_eq] at firstInName
  rcases firstInName with ((alphanumeric | rfl) | rfl) | rfl
  · obtain ⟨kind, count, positive, noGt, settles, success⟩ := scan_alphanumeric here alphanumeric
    rw [here] at settles
    have fits : count ≤ (first :: rest).length := by
      apply Nat.le_of_not_lt
      intro beyond
      exact settles.1 (Text.mem_take_of_beyond beyond)
    rw [List.take_append_of_le_length fits] at settles
    exact ⟨kind, count, positive, fits, noGt, success, behindSettled count settles⟩
  · cases rest with
    | nil => exact absurd rfl goesOn
    | cons second rest =>
        by_cases hyphen : second = '-'
        · subst hyphen
          refine ⟨.decrement, 2, by decide, by simp, by decide, scan_decrement here, ?_⟩
          exact (Text.hyphensBehind_pair rest).symm
        · have differs (character : Char) (different : isNameCharacter character = false) :
              second ≠ character := by
            rintro rfl
            exact others second different (by simp)
          refine ⟨.minus, 1, by decide, by simp, by decide,
            scan_minus here ⟨hyphen, differs '>' rfl, differs '=' rfl⟩, ?_⟩
          rw [Text.hyphensBehind_cons_cons '-' rest hyphen]
          rfl
  · have settled : [':'] ∈ Grammar.settled := ⟨by decide, by decide⟩
    cases rest with
    | nil => exact ⟨.colon, 1, by decide, by simp, by decide, scan_colon '>' here (by decide), rfl⟩
    | cons second rest =>
        by_cases colon : second = ':'
        · subst colon
          refine ⟨.colonColon, 2, by decide, by simp, by decide, scan_colonColon here, ?_⟩
          exact behindSettled 2 (Grammar.closed_settled.joined ⟨[':'], settled, [':'], settled, rfl⟩)
        · exact ⟨.colon, 1, by decide, by simp, by decide, scan_colon second here colon,
            behindSettled 1 settled⟩
  · have settled : ['%'] ∈ Grammar.settled := ⟨by decide, by decide⟩
    cases rest with
    | nil => exact ⟨.percent, 1, by decide, by simp, by decide, scan_percent here (by decide), rfl⟩
    | cons second rest =>
        have noEquals : second ≠ '=' := by
          rintro rfl
          exact others '=' rfl (by simp)
        exact ⟨.percent, 1, by decide, by simp, by decide, scan_percent here noEquals,
          behindSettled 1 settled⟩

end Pieces

theorem scan_gt_lt {cursor : Cursor} {rest : Text} (here : cursor.rest = '>' :: '<' :: rest) :
    scan true cursor = .ok (.ofLexeme (cursor.lexeme .gt 1)) :=
  scan_sign (by decide) here rfl

/-- The name in a closing tag is held back in pieces that spell it; if it ends with an
odd number of hyphens, the last of them is not reached by a piece. -/
theorem moves_pieces (name : Lexeme) (content : List Lexeme) (lt slash : Lexeme)
    (outer : List Element) {shown more : Text} {cursor : Cursor} (held : List Lexeme)
    (inName : ∀ character, character ∈ shown → isNameCharacter character = true)
    (here : cursor.rest = shown ++ '>' :: more) :
    ∃ pieces : List Lexeme,
      (∀ piece, piece ∈ pieces → piece.kind.isJoined = false ∧ piece.literal = none) ∧
      shown = pieces.flatMap Lexeme.raw ++ List.replicate (Text.hyphensBehind shown % 2) '-' ∧
      (Lexer.among cursor (.closingWith name content lt slash held :: outer)).Moves
        (Lexer.among (cursor.advance (pieces.flatMap Lexeme.raw).length)
          (.closingWith name content lt slash (pieces.reverse ++ held) :: outer)) := by
  induction size : shown.length using Nat.strongRecOn generalizing shown cursor held with
  | ind size ih =>
      subst size
      by_cases empty : shown = []
      · subst empty
        exact ⟨[], nofun, rfl, by simpa using Lexer.Moves.refl _⟩
      · by_cases single : shown = ['-']
        · subst single
          exact ⟨[], nofun, rfl, by simpa using Lexer.Moves.refl _⟩
        · obtain ⟨kind, count, positive, fits, noGt, success, parity⟩ :=
            scan_piece inName here empty single
          have remaining : cursor.rest ≠ [] := by simp [here]
          have step := moves_held name content lt slash held outer remaining success noGt
          have there : (cursor.advance count).rest = shown.drop count ++ '>' :: more := by
            rw [Cursor.rest_advance, here, List.drop_append_of_le_length fits]
          have shorter : (shown.drop count).length < shown.length := by
            rw [List.length_drop]
            omega
          obtain ⟨pieces, plain, spelled, further⟩ := ih _ shorter
            (cursor.lexeme kind count :: held)
            (fun character member => inName character (List.mem_of_mem_drop member)) there rfl
          have raw : (cursor.lexeme kind count).raw = shown.take count := by
            rw [Cursor.raw_lexeme, here, List.take_append_of_le_length fits]
          refine ⟨cursor.lexeme kind count :: pieces, ?_, ?_, ?_⟩
          · intro piece member
            rcases List.mem_cons.mp member with rfl | later
            · exact ⟨(scan_justified success).2, rfl⟩
            · exact plain piece later
          · rw [parity] at spelled
            rw [List.flatMap_cons, raw, List.append_assoc, ← spelled, List.take_append_drop]
          · rw [List.flatMap_cons, raw, List.length_append, List.length_take_of_le fits,
              ← Cursor.advance_advance, List.reverse_cons, List.append_assoc]
            exact step.trans further

theorem Lexer.drain_dissolved {cursor : Cursor} (element : Element)
    (finished : cursor.rest = []) :
    (among cursor [element]).drain =
      .ok (element.lexemes.map Lexeme.token, among cursor []) := by
  have step : (among cursor [element]).step = .pulled (among cursor [element]).finish := by
    obtain ⟨offset, line, _⟩ := cursor
    cases finished
    rfl
  obtain ⟨lexeme, more, lexemes⟩ := List.exists_cons_of_ne_nil (show element.lexemes ≠ [] from
    List.cons_ne_nil element.name _)
  have answer : (among cursor [element]).next =
      .token lexeme.token { among cursor [] with ready := more.map Lexeme.token } := by
    apply next_of_pulled
    have dissolved : Element.dissolve [element] = lexeme :: more := by
      rw [← lexemes]
      exact List.append_nil element.lexemes
    rw [step]
    unfold finish
    simp only [among, ofText, dissolved]
  have rest := drain_ready (more.map Lexeme.token) rfl (drain_finished finished)
  rw [List.append_nil] at rest
  rw [drain_eq, answer, lexemes]
  simp only [rest]
  rfl

theorem tokenize_of_drain {text : Text} {tokens : List Token} {cursor : Cursor}
    (drained : (Lexer.ofText text).drain = .ok (tokens, Lexer.among cursor [])) :
    tokenize text = .ok { tokens, comments := [] } := by
  unfold tokenize
  rw [drained]
  rfl

section Elements

variable {name : Text}

theorem characters_of_named (named : markupName? ('<' :: name ++ ['>']) = some (name.length + 1)) :
    ∀ character, character ∈ name → isNameCharacter character = true := by
  intro character member
  exact markupName?_characters named character (by simpa using member)

theorem exists_cons_of_named (named : markupName? ('<' :: name ++ ['>']) = some (name.length + 1)) :
    ∃ first more, name = first :: more ∧ isNameCharacter first = true := by
  cases name with
  | nil => exact absurd (two_le_of_markupName? named) (by decide)
  | cons first more => exact ⟨first, more, rfl, characters_of_named named first List.mem_cons_self⟩

/-- An opening tag without attributes and a `</` behind it lead into the closing tag. -/
theorem moves_empty_element {cursor : Cursor} {more : Text}
    (named : markupName? ('<' :: name ++ ['>']) = some (name.length + 1))
    (here : cursor.rest = ('<' :: name) ++ '>' :: '<' :: '/' :: (name ++ more)) :
    ∃ opener gt lt slash : Lexeme,
      [opener, gt, lt, slash].map Lexeme.summary =
        [(.xhpName, '<' :: name), (.gt, ['>']), (.lt, ['<']), (.slash, ['/'])] ∧
      (Lexer.among cursor []).Moves
        (Lexer.among (cursor.advance ('<' :: name ++ "></".toList).length)
          [.closingWith opener [gt] lt slash []]) := by
  obtain ⟨first, rest, rfl, inName⟩ := exists_cons_of_named named
  have other (character : Char) (different : isNameCharacter character = false) :
      first ≠ character := by
    rintro rfl
    rw [different] at inName
    cases inName
  have found : markupName? cursor.rest = some (('<' :: first :: rest).length) := by
    rw [here]
    exact markupName?_append_gt _ named
  let opener := cursor.lexeme .xhpName ('<' :: first :: rest).length
  have opened := Lexer.moves_element [] (by simp [here])
    (scan_element here (other '<' rfl) found)
  have atGt := Cursor.rest_advance_append here
  let gt := opener.stop.lexeme .gt 1
  have receipt : (Element.opened opener).receive gt =
      .collecting { name := opener, content := [gt], phase := .children } := rfl
  have entered := Lexer.moves_collecting (.opened opener) [] (Cursor.rest_ne_nil atGt)
    (scan_gt_lt atGt) receipt
  have atLt : (opener.stop.advance 1).rest = '<' :: '/' :: first :: (rest ++ more) := by
    rw [Cursor.rest_advance]
    exact congrArg (List.drop 1) atGt
  have closing := moves_closer opener [gt] [] atLt ⟨other '/' rfl, other '*' rfl, other '=' rfl⟩
  have atSlash : ((opener.stop.advance 1).advance 1).rest = '/' :: first :: (rest ++ more) := by
    rw [Cursor.rest_advance, atLt]
    rfl
  refine ⟨opener, gt, (opener.stop.advance 1).lexeme .lt 1,
    ((opener.stop.advance 1).advance 1).lexeme .slash 1, ?_, ?_⟩
  · have spelled : opener.summary = (.xhpName, '<' :: first :: rest) := by
      rw [Cursor.summary_lexeme, here, List.take_left]
    have gtSummary : gt.summary = (.gt, ['>']) := by
      rw [Cursor.summary_lexeme]
      exact congrArg (fun behind => (TokenKind.gt, List.take 1 behind)) atGt
    simp only [List.map_cons, List.map_nil, spelled, gtSummary, Cursor.summary_lexeme, atLt,
      atSlash, List.take_succ_cons, List.take_zero]
  · have stop : cursor.advance ('<' :: (first :: rest) ++ "></".toList).length =
        (opener.stop.advance 1).advance 2 := by
      rw [Cursor.advance_append]
      exact (Cursor.advance_advance opener.stop 1 2).symm
    rw [stop]
    exact (opened.trans entered).trans closing

/-- A `>` at the end of the text completes the closing tag. -/
theorem drain_closed {cursor : Cursor} (here : cursor.rest = ['>'])
    (opener : Lexeme) (content : List Lexeme) (lt slash : Lexeme) (held : List Lexeme) :
    ∃ closing : Lexeme, closing.summary = (.xhpClosing, held.reverse.flatMap Lexeme.raw) ∧
      (Lexer.among cursor [.closingWith opener content lt slash held]).drain =
        .ok ((opener :: content.reverse ++ [closing]).map Lexeme.token,
          Lexer.among (cursor.advance 1) []) := by
  let gt := cursor.lexeme .gt 1
  let closing := Element.closing lt gt held.reverse
  have receipt : (Element.closingWith opener content lt slash held).receive gt =
      .complete (opener :: content.reverse ++ [closing]) := by
    have closes : (Element.closingWith opener content lt slash held).receive gt =
        .complete (Element.lexemes ⟨opener, closing :: content, .children⟩) := rfl
    rw [closes]
    simp [Element.lexemes]
  have completed := Lexer.moves_complete _ [] (Cursor.rest_ne_nil here)
    (scan_gt here (.inl rfl)) receipt
  have finished : gt.stop.rest = [] := by
    change (cursor.advance 1).rest = []
    rw [Cursor.rest_advance, here]
    rfl
  have drained := Lexer.drain_ready ((opener :: content.reverse ++ [closing]).map Lexeme.token)
    rfl (Lexer.drain_finished finished)
  rw [List.append_nil] at drained
  exact ⟨closing, rfl, completed.drain_eq.trans drained⟩

/-- A hyphen and a `>` at the end of the text are an arrow, and the closing tag
dissolves. -/
theorem drain_arrow {cursor : Cursor} (here : cursor.rest = ['-', '>'])
    (opener : Lexeme) (content : List Lexeme) (lt slash : Lexeme) (held : List Lexeme) :
    ∃ arrow : Lexeme, arrow.summary = (.arrow, "->".toList) ∧
      (Lexer.among cursor [.closingWith opener content lt slash held]).drain =
        .ok ((opener :: content.reverse ++ lt :: slash :: (held.reverse ++ [arrow])).map
          Lexeme.token, Lexer.among (cursor.advance 2) []) := by
  have moved := moves_held opener content lt slash held [] (Cursor.rest_ne_nil here)
    (scan_arrow here) nofun
  have finished : (cursor.advance 2).rest = [] := by
    rw [Cursor.rest_advance, here]
    rfl
  have spelled : (cursor.lexeme .arrow 2).summary = (.arrow, "->".toList) := by
    rw [Cursor.summary_lexeme, here]
    rfl
  refine ⟨cursor.lexeme .arrow 2, spelled, ?_⟩
  rw [moved.drain_eq, Lexer.drain_dissolved _ finished]
  simp only [Element.closingWith, Element.lexemes, List.reverse_cons]

section

variable {cursor : Cursor} (opener : Lexeme) (content : List Lexeme) (lt slash : Lexeme)

/-- A name without a lone hyphen at its end is read up to the `>`, so its closing tag is
closed. -/
theorem drain_closing_name (inName : ∀ character, character ∈ name → isNameCharacter character)
    (paired : Text.hyphensBehind name % 2 = 0) (here : cursor.rest = name ++ ['>']) :
    ∃ closing last, closing.summary = (.xhpClosing, name) ∧
      (Lexer.among cursor [.closingWith opener content lt slash []]).drain =
        .ok ((opener :: content.reverse ++ [closing]).map Lexeme.token, Lexer.among last []) := by
  obtain ⟨pieces, _, spelled, held⟩ := moves_pieces opener content lt slash [] [] inName here
  rw [paired, List.replicate_zero, List.append_nil] at spelled
  rw [List.append_nil] at held
  rw [spelled] at here
  obtain ⟨closing, summary, drained⟩ := drain_closed (Cursor.rest_advance_append here)
    opener content lt slash pieces.reverse
  rw [List.reverse_reverse, ← spelled] at summary
  exact ⟨closing, _, summary, held.drain_eq.trans drained⟩

/-- A lone hyphen at the end of a name takes the `>`, so the closing tag is given back
in pieces. -/
theorem drain_open_name (inName : ∀ character, character ∈ name → isNameCharacter character)
    (single : Text.hyphensBehind name % 2 = 1) (here : cursor.rest = name ++ ['>']) :
    ∃ pieces arrow last,
      (∀ piece, piece ∈ pieces → piece.kind.isJoined = false ∧ piece.literal = none) ∧
      pieces.flatMap Lexeme.raw ++ ['-'] = name ∧ arrow.summary = (.arrow, "->".toList) ∧
      (Lexer.among cursor [.closingWith opener content lt slash []]).drain =
        .ok ((opener :: content.reverse ++ lt :: slash :: (pieces ++ [arrow])).map Lexeme.token,
          Lexer.among last []) := by
  obtain ⟨pieces, plain, spelled, held⟩ := moves_pieces opener content lt slash [] [] inName here
  rw [single] at spelled
  rw [List.append_nil] at held
  rw [spelled, List.append_assoc] at here
  obtain ⟨arrow, summary, drained⟩ := drain_arrow (Cursor.rest_advance_append here)
    opener content lt slash pieces.reverse
  rw [List.reverse_reverse] at drained
  exact ⟨pieces, arrow, _, plain, spelled.symm, summary, held.drain_eq.trans drained⟩

end

end Elements

/-- Lexing an element without attributes and children gives its name, its `>` and its
closing tag, unless the name ends with an odd number of hyphens.  Then the last hyphen
and the `>` behind it are an arrow, so the closing tag is left open by the end of the
text and given back in pieces. -/
theorem tokenize_element {name : Text}
    (named : markupName? ('<' :: name ++ ['>']) = some (name.length + 1)) :
    ∃ tokens,
      tokenize ('<' :: name ++ "></".toList ++ name ++ ['>']) = .ok { tokens, comments := [] } ∧
      (Text.hyphensBehind name % 2 = 0 →
        tokens.map (fun token => (token.kind, token.text)) =
          [(.xhpName, '<' :: name), (.gt, ['>']), (.xhpClosing, name)]) ∧
      (Text.hyphensBehind name % 2 = 1 →
        (∀ token, token ∈ tokens → token.kind ≠ .xhpClosing) ∧
        ∃ pieces : List (TokenKind × Text), pieces.flatMap Prod.snd ++ ['-'] = name ∧
          tokens.map (fun token => (token.kind, token.text)) =
            [(.xhpName, '<' :: name), (.gt, ['>']), (.lt, ['<']), (.slash, ['/'])] ++ pieces ++
              [(.arrow, "->".toList)]) := by
  let text := '<' :: name ++ "></".toList ++ name ++ ['>']
  have here : (Cursor.atStart text).rest =
      '<' :: name ++ '>' :: '<' :: '/' :: (name ++ ['>']) := by
    simp [Cursor.atStart, text]
  obtain ⟨opener, gt, lt, slash, summaries, opened⟩ := moves_empty_element named here
  obtain ⟨openerSummary, gtSummary, ltSummary, slashSummary⟩ :
      opener.summary = (.xhpName, '<' :: name) ∧ gt.summary = (.gt, ['>']) ∧
        lt.summary = (.lt, ['<']) ∧ slash.summary = (.slash, ['/']) := by
    simpa using summaries
  have inside : ((Cursor.atStart text).advance ('<' :: name ++ "></".toList).length).rest =
      name ++ ['>'] := by
    apply Cursor.rest_advance_append
    simp [Cursor.atStart, text]
  have inName := characters_of_named named
  rcases Nat.mod_two_eq_zero_or_one (Text.hyphensBehind name) with paired | single
  · obtain ⟨closing, last, summary, drained⟩ :=
      drain_closing_name opener [gt] lt slash inName paired inside
    refine ⟨_, tokenize_of_drain (opened.drain_eq.trans drained), fun _ => ?_, ?_⟩
    · rw [List.map_map]
      change [opener, gt, closing].map Lexeme.summary = _
      simp [openerSummary, gtSummary, summary]
    · intro single
      rw [paired] at single
      cases single
  · obtain ⟨pieces, arrow, last, plain, spelled, summary, drained⟩ :=
      drain_open_name opener [gt] lt slash inName single inside
    refine ⟨_, tokenize_of_drain (opened.drain_eq.trans drained), ?_, fun _ => ?_⟩
    · intro paired
      rw [single] at paired
      cases paired
    · have shown : (opener :: gt :: lt :: slash :: (pieces ++ [arrow])).map Lexeme.summary =
          [(.xhpName, '<' :: name), (.gt, ['>']), (.lt, ['<']), (.slash, ['/'])] ++
            pieces.map Lexeme.summary ++ [(.arrow, "->".toList)] := by
        simp [openerSummary, gtSummary, ltSummary, slashSummary, summary]
      refine ⟨?_, pieces.map Lexeme.summary, ?_, ?_⟩
      · intro token member closes
        obtain ⟨lexeme, inTag, rfl⟩ := List.mem_map.mp member
        have found : lexeme.summary ∈ (opener :: gt :: lt :: slash :: (pieces ++ [arrow])).map
            Lexeme.summary := List.mem_map_of_mem inTag
        have kind : lexeme.summary.1 = .xhpClosing := closes
        rw [shown, List.mem_append, List.mem_append] at found
        rcases found with (tag | piece) | last
        · simp [Prod.ext_iff, kind] at tag
        · obtain ⟨piece, held, same⟩ := List.mem_map.mp piece
          have unjoined := (plain piece held).1
          rw [show piece.kind = .xhpClosing from (congrArg Prod.fst same).trans kind] at unjoined
          cases unjoined
        · simp [Prod.ext_iff, kind] at last
      · rw [List.flatMap_map, ← spelled]
        congr 1
        apply List.flatMap_congr
        intro piece member
        simp [Lexeme.summary, Lexeme.token, Token.text, Lexeme.raw, (plain piece member).2]
      · rw [List.map_map]
        exact shown

/-- A lone hyphen at the end of a name leaves the closing tag open: not every name
that opens an element is read back in its closing tag. -/
theorem not_every_closing_tag_closes :
    ¬ ∀ name : Text, markupName? ('<' :: name ++ ['>']) = some (name.length + 1) →
      ∃ result, tokenize ('<' :: name ++ "></".toList ++ name ++ ['>']) = .ok result ∧
        result.tokens.map (fun token => (token.kind, token.text)) =
          [(.xhpName, '<' :: name), (.gt, ['>']), (.xhpClosing, name)] := by
  intro every
  obtain ⟨result, lexes, closes⟩ := every "a-".toList (by decide)
  have run : (tokenize "<a-></a->".toList).toOption.map
      (fun result => result.tokens.map Token.kind) =
        some [.xhpName, .gt, .lt, .slash, .word, .arrow] := by
    decide +kernel
  have outcome : tokenize "<a-></a->".toList = .ok result := lexes
  rw [outcome] at run
  have six : result.tokens.length = 6 := by
    simpa using congrArg List.length (Option.some.inj run)
  have three : result.tokens.length = 3 := by
    simpa using congrArg List.length closes
  omega

/-- A name with two hyphens at its end and one with a single hyphen. -/
theorem hyphens_at_end_of_name :
    markupName? "<%a:b-->".toList = some 7 ∧
    (∃ tokens, tokenize "<%a:b--></%a:b-->".toList = .ok { tokens, comments := [] } ∧
      tokens.map (fun token => (token.kind, token.text)) =
        [(.xhpName, "<%a:b--".toList), (.gt, ['>']), (.xhpClosing, "%a:b--".toList)]) ∧
    markupName? "<a->".toList = some 3 ∧
    ∃ tokens, tokenize "<a-></a->".toList = .ok { tokens, comments := [] } ∧
      ∀ token, token ∈ tokens → token.kind ≠ .xhpClosing := by
  have two : markupName? ('<' :: "%a:b--".toList ++ ['>']) = some 7 := by decide
  have one : markupName? ('<' :: "a-".toList ++ ['>']) = some 3 := by decide
  obtain ⟨closed, closedRun, closes, _⟩ := tokenize_element two
  obtain ⟨left, leftRun, _, leaves⟩ := tokenize_element one
  exact ⟨two, ⟨closed, closedRun, closes (by decide)⟩, one, left, leftRun,
    (leaves (by decide)).1⟩

end HackLexer
