import HackLexer.Proofs.Exhaustion
import HackLexer.Proofs.Grammar.Matchers
import HackLexer.Proofs.LiteralRefinement
import HackLexer.Proofs.MarkupTrees
import HackLexer.Proofs.ModeStack.Scans

/-!
# Markup trees lex to their flattening

An open element collects what is read inside of it.  Reading the text of a tree
adds the flattening of the tree to the element around it, or makes it ready if
there is none; the induction is on the tree and its children, and holds for
whatever is open around them and whatever follows.

The main statement is `tokenize_render`.
-/

namespace HackLexer

open ModeStack.Machine in
/-- A text that opens with neither layout nor a comment nor a string is told by
the spelling of what it opens with. -/
theorem recognise_spelled (markup : Bool) {cursor : Cursor} {first : Char} {behind : Text}
    (rest : cursor.rest = first :: behind) (inked : isLayout first = false)
    (unquoted : first ≠ '"' ∧ first ≠ '\'' ∧ first ≠ '#')
    (noComment : first = '/' → ∀ next, behind.head? = some next → next ≠ '/' ∧ next ≠ '*')
    (noOpener : ¬ "<<<".toList.isPrefixOf cursor.rest) :
    recognise markup cursor = spelledAt markup cursor := by
  simp only [isLayout, Bool.or_eq_false_iff] at inked
  have noBlock : ¬ "/*".toList.isPrefixOf cursor.rest := by
    intro starts
    obtain ⟨more, opened⟩ := ModeStack.isPrefixOf_pair.mp starts
    rw [rest] at opened
    cases opened
    exact (noComment rfl '*' rfl).2 rfl
  have noLine : ¬ "//".toList.isPrefixOf cursor.rest := by
    intro starts
    obtain ⟨more, opened⟩ := ModeStack.isPrefixOf_pair.mp starts
    rw [rest] at opened
    cases opened
    exact (noComment rfl '/' rfl).1 rfl
  have noMarker : markerAt cursor = none := by
    unfold markerAt marker?
    split
    · rfl
    · rename_i found
      split at found
      · rename_i opened
        exact absurd (ModeStack.isPrefixOf_pair.mpr ⟨_, opened⟩) noLine
      · rename_i opened
        exact absurd (ModeStack.isPrefixOf_pair.mpr ⟨_, opened⟩) noBlock
      · cases found
  have noLineComment : ¬ ("//".toList.isPrefixOf cursor.rest || first == '#') := by
    rw [Bool.or_eq_true, not_or]
    exact ⟨noLine, by simpa using unquoted.2.2⟩
  unfold recognise
  rw [layoutAt_none rest (by simp [inked.1]) (by simpa using inked.2), noMarker,
    commentAt_none rest noBlock noLineComment, quotedAt_none rest unquoted.1
      unquoted.2.1, docStringAt_none noOpener]
  rfl

open ModeStack.Machine in
theorem scan_lower {markup : Bool} {cursor : Cursor} {first : Char} {more rest : Text}
    (here : cursor.rest = first :: more ++ rest) (lower : first.isLower)
    (parts : ∀ character, character ∈ more → isAlphanumeric character)
    (ends : rest.EndsRun Word.isPart) :
    scan markup cursor =
      .ok (.ofLexeme (cursor.lexeme (wordKind (first :: more)) (first :: more).length)) := by
  have other (character : Char) (different : character.isLower = false) :
      first ≠ character := ne_of_isLower lower different
  have inked : isLayout first = false := by
    simp [isLayout, isBlank, other ' ' rfl, other '\t' rfl,
      other '\r' rfl, other '\x0c' rfl,
      other '\n' rfl]
  have noOpener : ¬ "<<<".toList.isPrefixOf cursor.rest := by
    simp [here, Ne.symm (other '<' rfl)]
  have spelled : recognise markup cursor = spelledAt markup cursor :=
    recognise_spelled markup here inked ⟨other '"' rfl, other '\'' rfl, other '#' rfl⟩
      (fun slash => absurd slash (other '/' rfl)) noOpener
  have number : number? cursor.rest = none := by
    rw [here]
    exact number?_of_isLower lower
  have word := word?_lower lower parts ends
  rw [← here] at word
  unfold scan
  rw [spelled, spelledAt, number, word]
  rfl

theorem word?_of_no_letter {first : Char} (rest : Text) (noLetter : isLetter first = false)
    (noBackslash : (first == '\\') = false) : word? (first :: rest) = none := by
  rw [word?_eq_none_iff, List.dropWhile_cons, if_neg (Bool.eq_false_iff.mp noBackslash)]
  intro character head
  cases head
  exact noLetter

open ModeStack.Machine in
/-- What neither a number nor a word nor a name is found in is told by the table of
fixed spellings. -/
theorem scan_fixed {markup : Bool} {cursor : Cursor} {mark : Char} {rest : Text}
    {kind : TokenKind} {count : Nat} (here : cursor.rest = mark :: rest)
    (spelled : recognise markup cursor = spelledAt markup cursor)
    (noNumber : number? (mark :: rest) = none) (noWord : word? (mark :: rest) = none)
    (noDollar : dollar? (mark :: rest) = none)
    (noName : markupName? (mark :: rest) = none)
    (found : punctuation? (mark :: rest) = some (kind, count)) :
    scan markup cursor = .ok (.ofLexeme (cursor.lexeme kind count)) := by
  have element : elementAt markup cursor = none := by
    rw [elementAt_eq, here, noName, ite_self]
    rfl
  unfold scan
  rw [spelled, spelledAt, element, here, noNumber, noWord, noDollar, found]
  rfl

open ModeStack.Machine in
theorem scan_mark {markup : Bool} {cursor : Cursor} {mark : Char} {rest : Text}
    {kind : TokenKind} (here : cursor.rest = mark :: rest)
    (spelled : recognise markup cursor = spelledAt markup cursor)
    (noNumber : number? (mark :: rest) = none) (noWord : Word.isPart mark = false)
    (noDollar : dollar? (mark :: rest) = none)
    (noName : markupName? (mark :: rest) = none)
    (found : punctuation? (mark :: rest) = some (kind, 1)) :
    scan markup cursor = .ok (.ofLexeme (cursor.lexeme kind 1)) := by
  have word : word? (mark :: rest) = none := by
    unfold word?
    rw [Word.length_of_endsRun (.cons noWord)]
  exact scan_fixed here spelled noNumber word noDollar noName found

/-- Signs that start nothing but a fixed spelling. -/
def signs : List Char :=
  ['=', '>', '-', ':', '!', '%']

theorem scan_sign {markup : Bool} {cursor : Cursor} {sign : Char} {rest : Text}
    {kind : TokenKind} {count : Nat} (listed : sign ∈ signs) (here : cursor.rest = sign :: rest)
    (found : punctuation? (sign :: rest) = some (kind, count)) :
    scan markup cursor = .ok (.ofLexeme (cursor.lexeme kind count)) := by
  simp only [signs, List.mem_cons, List.not_mem_nil, or_false] at listed
  rcases listed with rfl | rfl | rfl | rfl | rfl | rfl
  all_goals
    have spelled := recognise_spelled markup here rfl (by decide) nofun (by simp [here])
    exact scan_fixed here spelled rfl (word?_of_no_letter _ rfl rfl) rfl rfl found

theorem scan_eq {markup : Bool} {cursor : Cursor} {rest : Text}
    (here : cursor.rest = '=' :: '"' :: rest) :
    scan markup cursor = .ok (.ofLexeme (cursor.lexeme .eq 1)) :=
  scan_sign (by decide) here rfl

theorem scan_gt {markup : Bool} {cursor : Cursor} {rest : Text}
    (here : cursor.rest = '>' :: rest) (ends : rest = [] ∨ ∃ more, rest = ' ' :: more) :
    scan markup cursor = .ok (.ofLexeme (cursor.lexeme .gt 1)) := by
  rcases ends with rfl | ⟨more, rfl⟩
  · exact scan_sign (by decide) here rfl
  · exact scan_sign (by decide) here rfl

theorem scan_lt {markup : Bool} {cursor : Cursor} {rest : Text}
    (here : cursor.rest = '<' :: '/' :: rest) :
    scan markup cursor = .ok (.ofLexeme (cursor.lexeme .lt 1)) := by
  have spelled := recognise_spelled markup here rfl (by decide) nofun
    (by simp [here])
  exact scan_mark here spelled rfl rfl rfl rfl rfl

theorem scan_slash {markup : Bool} {cursor : Cursor} (next : Char) {rest : Text}
    (here : cursor.rest = '/' :: next :: rest)
    (other : next ≠ '/' ∧ next ≠ '*' ∧ next ≠ '=') :
    scan markup cursor = .ok (.ofLexeme (cursor.lexeme .slash 1)) := by
  have spelled := recognise_spelled markup here rfl (by decide)
    (fun _ character head => by
      cases head
      exact ⟨other.1, other.2.1⟩) (by simp [here])
  have found : punctuation? ('/' :: next :: rest) = some (.slash, 1) := by
    simp [punctuation?, punctuations, Ne.symm other.2.2]
  exact scan_mark here spelled rfl rfl rfl rfl found

theorem scan_colon {markup : Bool} {cursor : Cursor} (next : Char) {rest : Text}
    (here : cursor.rest = ':' :: next :: rest) (other : next ≠ ':') :
    scan markup cursor = .ok (.ofLexeme (cursor.lexeme .colon 1)) := by
  apply scan_sign (by decide) here
  simp [punctuation?, punctuations, Ne.symm other]

open ModeStack.Machine in
theorem scan_space {markup : Bool} {cursor : Cursor} {rest : Text}
    (here : cursor.rest = ' ' :: rest) (ends : rest.EndsRun isBlank) :
    scan markup cursor =
      .ok { found := .layout, after := cursor.advance 1, comment := none } := by
  have one : Text.countWhile isBlank cursor.rest = 1 := by
    have run : (' ' :: rest).takeWhile isBlank = [' '] :=
      @Text.takeWhile_of_endsRun isBlank [' '] rest (by simp [isBlank]) ends
    rw [Text.countWhile, here, run]
    rfl
  unfold scan recognise
  rw [layoutAt_blanks here rfl, one]
  rfl

open ModeStack.Machine in
theorem scan_element {cursor : Cursor} {next : Char} {rest : Text} {count : Nat}
    (here : cursor.rest = '<' :: next :: rest) (other : next ≠ '<')
    (found : markupName? cursor.rest = some count) :
    scan true cursor =
      .ok { found := .element (cursor.lexeme .xhpName count)
            after := cursor.advance count
            comment := none } := by
  have noOpener : ¬ "<<<".toList.isPrefixOf cursor.rest := by
    simp [here, Ne.symm other]
  have spelled := recognise_spelled true here rfl (by decide) nofun noOpener
  have word : word? cursor.rest = none := by
    rw [here]
    unfold word?
    rw [Word.length_of_endsRun (.cons rfl)]
  have number : number? cursor.rest = none := by
    rw [here]
    rfl
  have dollar : dollar? cursor.rest = none := by
    rw [here]
    rfl
  unfold scan
  rw [spelled, spelledAt, number, word, dollar, elementAt_eq, found]
  rfl

theorem scan_name {cursor : Cursor} (name : ElementName) {rest : Text}
    (here : cursor.rest = '<' :: name.text ++ rest)
    (ends : rest.EndsRun MarkupName.isPart) :
    scan true cursor =
      .ok { found := .element (cursor.lexeme .xhpName ('<' :: name.text).length)
            after := cursor.advance ('<' :: name.text).length
            comment := none } := by
  have first : cursor.rest = '<' :: name.part.first :: (name.text.tail ++ rest) := here
  have found := markupName?_name name ends
  rw [← here] at found
  exact scan_element first (ne_of_isLower name.part.lower rfl) found

theorem DoubleQuoted.body_plain {value rest : Text}
    (plain : ∀ character, character ∈ value →
      character ≠ '"' ∧ character ≠ '\\' ∧ character ≠ '\x7b') :
    body (value ++ '"' :: rest) =
      { value, length := value.length + 1, ending := .closed } := by
  induction value with
  | nil => rfl
  | cons first more ih =>
      obtain ⟨quote, backslash, brace⟩ := plain first List.mem_cons_self
      have behind := ih fun character member =>
        plain character (List.mem_cons_of_mem _ member)
      rw [List.cons_append, body, behind]
      · simp [Body.prepend, Nat.add_comm]
      · exact quote
      · exact brace
      · intro code rest escape
        exact absurd escape backslash
      · intro escape
        exact absurd escape backslash

def Lexeme.summary (lexeme : Lexeme) : TokenKind × Text :=
  (lexeme.kind, lexeme.token.text)

theorem Cursor.summary_lexeme (cursor : Cursor) (kind : TokenKind) (count : Nat) :
    (cursor.lexeme kind count).summary = (kind, cursor.rest.take count) := by
  simp [Lexeme.summary, Cursor.lexeme, Lexeme.token, Token.text, Lexeme.span]

theorem Cursor.rest_advance_append {cursor : Cursor} {shown more : Text}
    (here : cursor.rest = shown ++ more) : (cursor.advance shown.length).rest = more := by
  rw [rest_advance, here, List.drop_left]

theorem Cursor.rest_ne_nil {cursor : Cursor} {first : Char} {behind : Text}
    (here : cursor.rest = first :: behind) : cursor.rest ≠ [] := by
  rw [here]
  exact List.cons_ne_nil first behind

theorem Cursor.advance_append (cursor : Cursor) (first second : Text) :
    cursor.advance (first ++ second).length =
      (cursor.advance first.length).advance second.length := by
  rw [advance_advance, List.length_append]

namespace Lexer

/-- Steps without an answer lead from one lexer to another. -/
def Moves (lexer last : Lexer) : Prop :=
  ∃ count, Passes count lexer last

namespace Moves

theorem refl (lexer : Lexer) : lexer.Moves lexer :=
  ⟨0, .none⟩

theorem one {lexer after : Lexer} (step : lexer.step = .moved after) : lexer.Moves after :=
  ⟨1, .more step .none⟩

theorem trans {lexer middle last : Lexer} (first : lexer.Moves middle)
    (second : middle.Moves last) : lexer.Moves last := by
  obtain ⟨near, passes⟩ := first
  induction passes with
  | none => exact second
  | more step _ ih =>
      obtain ⟨far, further⟩ := ih second
      exact ⟨far + 1, .more step further⟩

theorem next_eq {lexer last : Lexer} (moves : lexer.Moves last) : lexer.next = last.next := by
  obtain ⟨count, passes⟩ := moves
  induction passes with
  | none => rfl
  | more step _ ih => exact (next_of_moved step).trans ih

end Moves

/-- The lexer among the given open elements, with no comments behind it. -/
def among (cursor : Cursor) (elements : List Element) : Lexer :=
  { Lexer.ofText [] with cursor, elements }

variable {cursor : Cursor}

theorem step_among (elements : List Element) {scanned : Scanned} (remaining : cursor.rest ≠ [])
    (success : scan true cursor = .ok scanned) :
    (among cursor elements).step = (among cursor elements).accept scanned := by
  have scans : scan (among cursor elements).interpolations.isEmpty
      (among cursor elements).cursor = .ok scanned := success
  rw [@step_of_scan (among cursor elements) rfl rfl remaining, scans]

theorem moves_layout (elements : List Element) {after : Cursor} (remaining : cursor.rest ≠ [])
    (success : scan true cursor = .ok { found := .layout, after, comment := none }) :
    (among cursor elements).Moves (among after elements) :=
  .one (step_among elements remaining success)

theorem moves_element (elements : List Element) {name : Lexeme} {after : Cursor}
    (remaining : cursor.rest ≠ [])
    (success : scan true cursor = .ok { found := .element name, after, comment := none }) :
    (among cursor elements).Moves (among after (.opened name :: elements)) :=
  .one (step_among elements remaining success)

theorem moves_collecting (element : Element) (outer : List Element) {lexeme : Lexeme}
    {after : Element} (remaining : cursor.rest ≠ [])
    (success : scan true cursor = .ok (.ofLexeme lexeme))
    (receipt : element.receive lexeme = .collecting after) :
    (among cursor (element :: outer)).Moves (among lexeme.stop (after :: outer)) := by
  apply Moves.one
  rw [step_among (element :: outer) remaining success]
  change (among lexeme.stop (element :: outer)).deliver lexeme = _
  simp only [deliver, among, ofText, receipt]

theorem moves_complete (element : Element) (outer : List Element) {lexeme : Lexeme}
    {lexemes : List Lexeme} (remaining : cursor.rest ≠ [])
    (success : scan true cursor = .ok (.ofLexeme lexeme))
    (receipt : element.receive lexeme = .complete lexemes) :
    (among cursor (element :: outer)).Moves
      ((among lexeme.stop outer).handBack lexemes) := by
  apply Moves.one
  rw [step_among (element :: outer) remaining success]
  change (among lexeme.stop (element :: outer)).deliver lexeme = _
  simp only [deliver, among, ofText, receipt]

end Lexer

/-- The kinds of lexemes that are just added to an element of a phase. -/
def ElementPhase.Keeps (kind : TokenKind) : ElementPhase → Prop
  | .openingTag => kind ≠ .gt
  | .children => kind ≠ .slash ∧ kind ≠ .decrement
  | .closingTag _ _ _ => False

theorem Element.receive_kept {element : Element} {lexeme : Lexeme}
    (kept : element.phase.Keeps lexeme.kind) :
    element.receive lexeme = .collecting (element.push lexeme) := by
  unfold receive
  cases phase : element.phase with
  | openingTag =>
      rw [phase] at kept
      rw [if_neg kept]
  | children =>
      rw [phase] at kept
      dsimp only
      split
      · rename_i slash _
        exact absurd slash kept.1
      · rename_i decrement _
        exact absurd decrement kept.2
      · rfl
  | closingTag lt slash name =>
      rw [phase] at kept
      exact kept.elim

/-- From a text in front of another one, an element that is open in a phase
collects lexemes of the given kinds and texts, whatever it holds and whatever is
open around it. -/
def Collects (phase : ElementPhase) (shown : Text)
    (summaries : List (TokenKind × Text)) (more : Text) : Prop :=
  ∀ cursor name content outer, cursor.rest = shown ++ more →
    ∃ lexemes : List Lexeme, lexemes.map Lexeme.summary = summaries ∧
      (Lexer.among cursor ({ name, content, phase } :: outer)).Moves
        (Lexer.among (cursor.advance shown.length)
          ({ name, content := lexemes.reverse ++ content, phase } :: outer))

namespace Collects

variable {phase : ElementPhase} {shown more : Text}

theorem nothing : Collects phase [] [] more := by
  intro cursor name content outer _
  refine ⟨[], rfl, ?_⟩
  rw [List.length_nil, Cursor.advance_zero]
  exact .refl _

theorem append {first second : Text} {firsts seconds : List (TokenKind × Text)}
    (front : Collects phase first firsts (second ++ more))
    (behind : Collects phase second seconds more) :
    Collects phase (first ++ second) (firsts ++ seconds) more := by
  intro cursor name content outer here
  rw [List.append_assoc] at here
  obtain ⟨early, earlySummaries, there⟩ := front cursor name content outer here
  obtain ⟨late, lateSummaries, further⟩ :=
    behind (cursor.advance first.length) name (early.reverse ++ content) outer
      (Cursor.rest_advance_append here)
  refine ⟨early ++ late, by rw [List.map_append, earlySummaries, lateSummaries], ?_⟩
  rw [Cursor.advance_append, List.reverse_append, List.append_assoc]
  exact there.trans further

theorem space (ends : more.EndsRun isBlank) : Collects phase [' '] [] more := by
  intro cursor name content outer here
  exact ⟨[], rfl, Lexer.moves_layout _ (by simp [here]) (scan_space here ends)⟩

theorem lexeme {kind : TokenKind} (kept : phase.Keeps kind) (nonempty : shown ≠ [])
    (scans : ∀ cursor : Cursor, cursor.rest = shown ++ more →
      scan true cursor = .ok (.ofLexeme (cursor.lexeme kind shown.length))) :
    Collects phase shown [(kind, shown)] more := by
  intro cursor name content outer here
  refine ⟨[cursor.lexeme kind shown.length], ?_, ?_⟩
  · rw [List.map_singleton, Cursor.summary_lexeme, here, List.take_left]
  · exact Lexer.moves_collecting _ outer (by simp [here, nonempty]) (scans cursor here)
      (Element.receive_kept kept)

theorem word (word : LowerWord) (kept : phase.Keeps (wordKind word.text))
    (ends : more.EndsRun Word.isPart) :
    Collects phase word.text [(wordKind word.text, word.text)] more :=
  .lexeme kept (List.cons_ne_nil _ _) fun _ here =>
    scan_lower here word.lower word.isAlphanumeric_of_mem ends

theorem quoted {value : Text} (kept : phase.Keeps .doubleQuotedString)
    (plain : ∀ character, character ∈ value →
      character ≠ '"' ∧ character ≠ '\\' ∧ character ≠ '\x7b') :
    Collects phase ('"' :: value ++ ['"']) [(.doubleQuotedString, value)] more := by
  intro cursor name content outer here
  have opens : cursor.rest = '"' :: (value ++ '"' :: more) := by simp [here]
  have entered : scan true cursor =
      .ok { found := .literal (opening cursor .doubleQuoted)
            after := cursor.advance 1
            comment := none } := by
    unfold scan recognise layoutAt markerAt commentAt quotedAt
    rw [opens]
    rfl
  have behind : (cursor.advance 1).rest = value ++ '"' :: more := by
    rw [Cursor.rest_advance, opens]
    rfl
  have read : (opening cursor .doubleQuoted).body (cursor.advance 1).rest =
      { value, length := value.length + 1, ending := .closed } := by
    rw [behind]
    exact DoubleQuoted.body_plain plain
  let element : Element := { name, content, phase }
  let string : Lexeme :=
    (opening cursor .doubleQuoted).lexeme value
      ((cursor.advance 1).advance (value.length + 1))
  have receipt : element.receive string = .collecting (element.push string) :=
    Element.receive_kept kept
  refine ⟨[string], rfl, ?_⟩
  have stop : cursor.advance ('"' :: value ++ ['"']).length = string.stop := by
    change _ = (cursor.advance 1).advance (value.length + 1)
    rw [Cursor.advance_advance]
    simp [Nat.add_comm]
  have inside := Lexer.Moves.one
    (Lexer.step_among (element :: outer) (by simp [opens]) entered)
  apply inside.trans
  apply Lexer.Moves.one
  rw [Lexer.step_of_literal rfl rfl read, stop]
  change (Lexer.among string.stop (element :: outer)).deliver string = _
  simp only [Lexer.deliver, Lexer.among, Lexer.ofText, receipt]
  rfl

end Collects

theorem wordKind_cases (spelling : Text) :
    wordKind spelling = .word ∨ ∃ keyword, wordKind spelling = .keyword keyword := by
  unfold wordKind
  cases Keyword.ofSpelling? spelling with
  | none => exact .inl rfl
  | some keyword => exact .inr ⟨keyword, rfl⟩

theorem wordKind_ne {spelling : Text} {kind : TokenKind} (noWord : kind ≠ .word)
    (noKeyword : ∀ keyword, kind ≠ .keyword keyword) : wordKind spelling ≠ kind := by
  rcases wordKind_cases spelling with word | ⟨keyword, reserved⟩
  · rw [word]
    exact noWord.symm
  · rw [reserved]
    exact (noKeyword keyword).symm

theorem LowerWord.endsRun_isBlank (word : LowerWord) (more : Text) :
    (word.text ++ more).EndsRun isBlank := by
  have other (character : Char) (different : character.isLower = false) :
      word.first ≠ character := ne_of_isLower word.lower different
  apply Text.EndsRun.cons
  simp [isBlank, other ' ' rfl, other '\t' rfl,
    other '\r' rfl, other '\x0c' rfl]

theorem Attribute.collects (given : Attribute) (more : Text) :
    Collects .openingTag given.render given.flatten more := by
  have equals : Collects .openingTag ['='] [(.eq, ['='])]
      ('"' :: given.value ++ ['"'] ++ more) :=
    .lexeme (by simp [ElementPhase.Keeps]) (by simp) fun _ here => scan_eq here
  have value : Collects .openingTag ('"' :: given.value ++ ['"'])
      [(.doubleQuotedString, given.value)] more :=
    .quoted (by simp [ElementPhase.Keeps]) given.plain
  have assigned := equals.append value
  have word : Collects .openingTag given.word.text
      [(wordKind given.word.text, given.word.text)]
      (['='] ++ ('"' :: given.value ++ ['"']) ++ more) :=
    .word given.word (wordKind_ne nofun nofun) (.cons rfl)
  have pair := word.append assigned
  have space : Collects .openingTag [' '] [] _ :=
    .space (given.word.endsRun_isBlank (['='] ++ ('"' :: given.value ++ ['"']) ++ more))
  rw [← List.append_assoc] at space
  simpa [Attribute.render, Attribute.flatten] using space.append pair

theorem collects_attributes (attributes : List Attribute) (more : Text) :
    Collects .openingTag (attributes.flatMap Attribute.render)
      (attributes.flatMap Attribute.flatten) more := by
  induction attributes with
  | nil => exact .nothing
  | cons first rest ih =>
      rw [List.flatMap_cons, List.flatMap_cons]
      exact (first.collects _).append ih

theorem endsRun_attributes (attributes : List Attribute) {more : Text}
    (ends : more.EndsRun MarkupName.isPart) :
    Text.EndsRun MarkupName.isPart (attributes.flatMap Attribute.render ++ more) := by
  cases attributes with
  | nil => exact ends
  | cons first rest => exact .cons rfl

theorem not_slash_of_attributes {attributes : List Attribute} {lexemes : List Lexeme}
    (summaries : lexemes.map Lexeme.summary = attributes.flatMap Attribute.flatten) :
    lexemes.reverse.head?.map Lexeme.kind ≠ some .slash := by
  intro slash
  obtain ⟨last, head, kind⟩ := Option.map_eq_some_iff.mp slash
  have member : last ∈ lexemes := List.mem_reverse.mp (List.mem_of_head? head)
  have listed : last.summary ∈ attributes.flatMap Attribute.flatten :=
    summaries ▸ List.mem_map_of_mem member
  obtain ⟨given, _, flattened⟩ := List.mem_flatMap.mp listed
  simp only [Attribute.flatten, List.mem_cons, List.not_mem_nil, or_false, Lexeme.summary,
    Prod.mk.injEq, kind] at flattened
  rcases flattened with word | equals | value
  · have other : wordKind given.word.text ≠ .slash := wordKind_ne nofun nofun
    exact other word.1.symm
  · cases equals.1
  · cases value.1

/-- An opening tag up to its end opens an element that holds its attributes. -/
theorem OpeningTag.moves (tag : OpeningTag) {cursor : Cursor} {more : Text}
    (elements : List Element) (here : cursor.rest = tag.render ++ more)
    (ends : more.EndsRun MarkupName.isPart) :
    ∃ name lexemes, (name :: lexemes).map Lexeme.summary = tag.flatten ∧
      lexemes.reverse.head?.map Lexeme.kind ≠ some .slash ∧
      (Lexer.among cursor elements).Moves
        (Lexer.among (cursor.advance tag.render.length)
          ({ name, content := lexemes.reverse, phase := .openingTag } :: elements)) := by
  have named : cursor.rest = '<' :: tag.name.text ++
      (tag.attributes.flatMap Attribute.render ++ more) := by
    rw [here, OpeningTag.render, List.append_assoc]
  have opened := Lexer.moves_element elements (by simp [named])
    (scan_name tag.name named (endsRun_attributes tag.attributes ends))
  obtain ⟨lexemes, summaries, further⟩ := collects_attributes tag.attributes more
    (cursor.advance ('<' :: tag.name.text).length)
    (cursor.lexeme .xhpName ('<' :: tag.name.text).length) [] elements
    (Cursor.rest_advance_append named)
  refine ⟨cursor.lexeme .xhpName ('<' :: tag.name.text).length, lexemes, ?_,
    not_slash_of_attributes summaries, ?_⟩
  · rw [List.map_cons, summaries, Cursor.summary_lexeme, named, List.take_left]
    rfl
  · rw [OpeningTag.render, Cursor.advance_append]
    rw [List.append_nil] at further
    exact opened.trans further

/-- What a closing tag holds back while its name is read, latest first. -/
def Element.closingWith (name : Lexeme) (content : List Lexeme) (lt slash : Lexeme)
    (held : List Lexeme) : Element :=
  { name, content, phase := .closingTag lt slash held }

theorem moves_held {cursor : Cursor} {kind : TokenKind} {count : Nat}
    (name : Lexeme) (content : List Lexeme) (lt slash : Lexeme) (held : List Lexeme)
    (outer : List Element) (remaining : cursor.rest ≠ [])
    (success : scan true cursor = .ok (.ofLexeme (cursor.lexeme kind count)))
    (goesOn : kind ≠ .gt) :
    (Lexer.among cursor (.closingWith name content lt slash held :: outer)).Moves
      (Lexer.among (cursor.advance count)
        (.closingWith name content lt slash (cursor.lexeme kind count :: held) ::
          outer)) := by
  apply Lexer.moves_collecting _ outer remaining success
  rw [Element.receive]
  exact if_neg goesOn

theorem Cursor.raw_lexeme (cursor : Cursor) (kind : TokenKind) (count : Nat) :
    (cursor.lexeme kind count).raw = cursor.rest.take count := by
  simp [Lexeme.raw, Cursor.lexeme, Lexeme.span]

theorem NamePart.moves (part : NamePart) {cursor : Cursor} {more : Text}
    (name : Lexeme) (content : List Lexeme) (lt slash : Lexeme) (held : List Lexeme)
    (outer : List Element) (here : cursor.rest = part.text ++ more)
    (ends : more.EndsRun Word.isPart) :
    ∃ word, word.raw = part.text ∧
      (Lexer.among cursor (.closingWith name content lt slash held :: outer)).Moves
        (Lexer.among (cursor.advance part.text.length)
          (.closingWith name content lt slash (word :: held) :: outer)) := by
  refine ⟨cursor.lexeme (wordKind part.text) part.text.length, ?_, ?_⟩
  · rw [Cursor.raw_lexeme, here, List.take_left]
  · exact moves_held name content lt slash held outer (by simp [here, NamePart.text])
      (scan_lower here part.lower part.isAlphanumeric_of_mem ends)
      (wordKind_ne nofun nofun)

/-- The name in a closing tag is held back in pieces that spell it. -/
theorem ElementName.moves (given : ElementName) {cursor : Cursor} {more : Text}
    (name : Lexeme) (content : List Lexeme) (lt slash : Lexeme) (outer : List Element)
    (here : cursor.rest = given.text ++ '>' :: more) :
    ∃ held, held.reverse.flatMap Lexeme.raw = given.text ∧
      (Lexer.among cursor (.closingWith name content lt slash [] :: outer)).Moves
        (Lexer.among (cursor.advance given.text.length)
          (.closingWith name content lt slash held :: outer)) := by
  obtain ⟨part, second⟩ := given
  cases second with
  | none =>
      simp only [ElementName.text, List.append_nil] at here ⊢
      obtain ⟨word, raw, moves⟩ :=
        part.moves name content lt slash [] outer here (.cons rfl)
      exact ⟨[word], by simp [raw], moves⟩
  | some last =>
      simp only [ElementName.text, List.append_assoc, List.cons_append] at here ⊢
      obtain ⟨word, raw, toColon⟩ :=
        part.moves name content lt slash [] outer here (.cons rfl)
      have colon : (cursor.advance part.text.length).rest =
          ':' :: (last.text ++ '>' :: more) := Cursor.rest_advance_append here
      have scanned : scan true (cursor.advance part.text.length) =
          .ok (.ofLexeme ((cursor.advance part.text.length).lexeme .colon 1)) :=
        scan_colon last.first colon (ne_of_isLower last.lower rfl)
      have behindColon := moves_held name content lt slash [word] outer
        (Cursor.rest_ne_nil colon) scanned (by decide)
      have there : ((cursor.advance part.text.length).advance 1).rest =
          last.text ++ '>' :: more := by
        rw [Cursor.rest_advance, colon]
        rfl
      let mark := (cursor.advance part.text.length).lexeme .colon 1
      obtain ⟨lastWord, lastRaw, toEnd⟩ := last.moves name content lt slash
        [mark, word] outer there (.cons rfl)
      have markRaw : mark.raw = [':'] := by
        rw [Cursor.raw_lexeme, colon]
        rfl
      have stop : cursor.advance (part.text ++ ':' :: last.text).length =
          ((cursor.advance part.text.length).advance 1).advance last.text.length := by
        rw [Cursor.advance_append, List.length_cons, Nat.add_comm,
          ← Cursor.advance_advance]
      refine ⟨[lastWord, mark, word], by simp [raw, markRaw, lastRaw], ?_⟩
      rw [stop]
      exact (toColon.trans behindColon).trans toEnd

/-- A `</` among the children of an element begins its closing tag. -/
theorem moves_closer {cursor : Cursor} {next : Char} {behind : Text} (name : Lexeme)
    (content : List Lexeme) (outer : List Element)
    (here : cursor.rest = '<' :: '/' :: next :: behind)
    (other : next ≠ '/' ∧ next ≠ '*' ∧ next ≠ '=') :
    (Lexer.among cursor ({ name, content, phase := .children } :: outer)).Moves
      (Lexer.among (cursor.advance 2)
        (.closingWith name content (cursor.lexeme .lt 1) ((cursor.advance 1).lexeme .slash 1)
          [] :: outer)) := by
  have toSlash := Lexer.moves_collecting { name, content, phase := .children } outer
    (Cursor.rest_ne_nil here) (scan_lt here) (Element.receive_kept ⟨nofun, nofun⟩)
  have slashed : (cursor.advance 1).rest = '/' :: next :: behind := by
    rw [Cursor.rest_advance, here]
    rfl
  have toName := Lexer.moves_collecting
    { name, content := cursor.lexeme .lt 1 :: content, phase := .children } outer
    (Cursor.rest_ne_nil slashed) (scan_slash next slashed other) rfl
  have stop : cursor.advance 2 = (cursor.advance 1).advance 1 :=
    (Cursor.advance_advance cursor 1 1).symm
  rw [stop]
  exact toSlash.trans toName

theorem moves_closing (given : ElementName) {cursor : Cursor} {more : Text}
    (name : Lexeme) (content : List Lexeme) (outer : List Element)
    (here : cursor.rest = " </".toList ++ given.text ++ '>' :: more)
    (ends : more = [] ∨ ∃ rest, more = ' ' :: rest) :
    ∃ closing : Lexeme, closing.summary = (.xhpClosing, given.text) ∧
      (Lexer.among cursor ({ name, content, phase := .children } :: outer)).Moves
        ((Lexer.among (cursor.advance (" </".toList ++ given.text ++ ['>']).length)
          outer).handBack (name :: content.reverse ++ [closing])) := by
  have space : cursor.rest = ' ' :: '<' :: '/' :: (given.text ++ '>' :: more) := here
  have toOpener := Lexer.moves_layout ({ name, content, phase := .children } :: outer)
    (by simp [space]) (scan_space space (.cons rfl))
  have opener : (cursor.advance 1).rest = '<' :: '/' :: (given.text ++ '>' :: more) := by
    rw [Cursor.rest_advance, space]
    rfl
  have other (character : Char) (different : character.isLower = false) :
      given.part.first ≠ character := ne_of_isLower given.part.lower different
  have toName := moves_closer name content outer opener
    ⟨other '/' rfl, other '*' rfl, other '=' rfl⟩
  let lt := (cursor.advance 1).lexeme .lt 1
  let slash := ((cursor.advance 1).advance 1).lexeme .slash 1
  have there : ((cursor.advance 1).advance 2).rest = given.text ++ '>' :: more := by
    rw [Cursor.rest_advance, opener]
    rfl
  obtain ⟨held, spelled, toEnd⟩ := given.moves name content lt slash outer there
  have last : (((cursor.advance 1).advance 2).advance given.text.length).rest = '>' :: more :=
    Cursor.rest_advance_append there
  let gt := (((cursor.advance 1).advance 2).advance given.text.length).lexeme .gt 1
  have completed := Lexer.moves_complete (.closingWith name content lt slash held) outer
    (Cursor.rest_ne_nil last) (scan_gt last ends) rfl
  refine ⟨Element.closing lt gt held.reverse, ?_, ?_⟩
  · simp [Lexeme.summary, Element.closing, Lexeme.token, Token.text, spelled]
  · have stop : cursor.advance (" </".toList ++ given.text ++ ['>']).length = gt.stop := by
      change _ = (((cursor.advance 1).advance 2).advance _).advance 1
      simp only [Cursor.advance_advance]
      congr 1
      simp
      omega
    rw [stop]
    have whole := ((toOpener.trans toName).trans toEnd).trans completed
    simpa [Element.closingWith, Element.push, Element.lexemes] using whole

def Text.Spaced (text : Text) : Prop :=
  text = [] ∨ ∃ rest, text = ' ' :: rest

/-- From the text of an element, the lexer gets to where the element is complete
and its lexemes are handed to what is open around it. -/
def MarkupTree.Flattens (tree : MarkupTree) : Prop :=
  ∀ (cursor : Cursor) (elements : List Element) (more : Text),
    cursor.rest = tree.render ++ more → more.Spaced →
    ∃ lexemes : List Lexeme, lexemes.map Lexeme.summary = tree.flatten ∧
      (Lexer.among cursor elements).Moves
        ((Lexer.among (cursor.advance tree.render.length) elements).handBack lexemes)

theorem MarkupTree.flattens_selfClosing (tag : OpeningTag) :
    (MarkupTree.selfClosing tag).Flattens := by
  intro cursor elements more here spaced
  have tagged : cursor.rest = tag.render ++ (" />".toList ++ more) := by
    rw [here, MarkupTree.render, List.append_assoc]
  obtain ⟨name, lexemes, summaries, _, opened⟩ := tag.moves elements tagged (.cons rfl)
  have slash : Collects .openingTag ['/'] [(.slash, ['/'])] ('>' :: more) :=
    .lexeme (by simp [ElementPhase.Keeps]) (by simp) fun _ slashed =>
      scan_slash '>' slashed (by decide)
  have space : Collects .openingTag [' '] [] (['/'] ++ '>' :: more) := .space (.cons rfl)
  obtain ⟨held, slashSummaries, further⟩ := (space.append slash) _ name lexemes.reverse
    elements (Cursor.rest_advance_append tagged)
  obtain ⟨last, rfl, lastSummary⟩ : ∃ last, held = [last] ∧
      last.summary = (.slash, ['/']) := by
    simpa [List.map_eq_singleton_iff] using slashSummaries
  have closes : ((cursor.advance tag.render.length).advance 2).rest = '>' :: more := by
    rw [Cursor.rest_advance, Cursor.rest_advance_append tagged]
    rfl
  let gt := ((cursor.advance tag.render.length).advance 2).lexeme .gt 1
  let element : Element := { name, content := last :: lexemes.reverse, phase := .openingTag }
  have receipt : element.receive gt = .complete (element.push gt).lexemes := by
    have kind : last.kind = .slash := congrArg Prod.fst lastSummary
    simp [Element.receive, element, gt, Cursor.lexeme, kind]
  have completed := Lexer.moves_complete element elements
    (Cursor.rest_ne_nil closes) (scan_gt closes spaced) receipt
  have collected : (element.push gt).lexemes = name :: lexemes ++ [last, gt] := by
    simp [Element.lexemes, Element.push, element]
  refine ⟨(element.push gt).lexemes, ?_, ?_⟩
  · have gtSummary : gt.summary = (.gt, ['>']) := by
      simp only [gt, Cursor.summary_lexeme, closes, List.take_succ_cons, List.take_zero]
    rw [collected, List.map_append, summaries, List.map_cons, List.map_singleton,
      lastSummary, gtSummary]
    rfl
  · have stop : cursor.advance (tag.render ++ " />".toList).length = gt.stop := by
      rw [Cursor.advance_append]
      exact (Cursor.advance_advance (cursor.advance tag.render.length) 2 1).symm
    rw [MarkupTree.render, stop]
    exact (opened.trans further).trans completed

theorem MarkupForest.render_spaced (forest : MarkupForest) {more : Text}
    (spaced : ∃ rest, more = ' ' :: rest) :
    ∃ rest, forest.render ++ more = ' ' :: rest := by
  cases forest with
  | none => exact spaced
  | word word children => exact ⟨_, rfl⟩
  | element tree children => exact ⟨_, rfl⟩

theorem MarkupTree.render_endsRun_isBlank (tree : MarkupTree) (more : Text) :
    (tree.render ++ more).EndsRun isBlank := by
  cases tree with
  | selfClosing tag => exact .cons rfl
  | enclosing tag children => exact .cons rfl

theorem MarkupTree.flattens_enclosing (tag : OpeningTag) {children : MarkupForest}
    (collects : ∀ more, (∃ rest, more = ' ' :: rest) →
      Collects .children children.render children.flatten more) :
    (MarkupTree.enclosing tag children).Flattens := by
  intro cursor elements more here spaced
  let ending := " </".toList ++ tag.name.text ++ '>' :: more
  have tagged : cursor.rest = tag.render ++ '>' :: (children.render ++ ending) := by
    simp [here, MarkupTree.render, ending]
  have inside : ∃ rest, children.render ++ ending = ' ' :: rest :=
    children.render_spaced ⟨_, rfl⟩
  obtain ⟨name, lexemes, summaries, noSlash, opened⟩ :=
    tag.moves elements tagged (.cons rfl)
  have closes : (cursor.advance tag.render.length).rest =
      '>' :: (children.render ++ ending) := Cursor.rest_advance_append tagged
  let gt := (cursor.advance tag.render.length).lexeme .gt 1
  have receipt : ({ name, content := lexemes.reverse, phase := .openingTag } :
      Element).receive gt =
      .collecting { name, content := gt :: lexemes.reverse, phase := .children } := by
    rw [Element.receive]
    exact (if_pos rfl).trans (if_neg noSlash)
  have entered := Lexer.moves_collecting _ elements
    (Cursor.rest_ne_nil closes) (scan_gt closes (.inr inside)) receipt
  have there : gt.stop.rest = children.render ++ ending := by
    change ((cursor.advance tag.render.length).advance 1).rest = _
    rw [Cursor.rest_advance, closes]
    rfl
  obtain ⟨held, heldSummaries, filled⟩ :=
    collects ending ⟨_, rfl⟩ gt.stop name (gt :: lexemes.reverse) elements there
  obtain ⟨closing, closingSummary, closed⟩ := moves_closing tag.name name
    (held.reverse ++ gt :: lexemes.reverse) elements (Cursor.rest_advance_append there)
    spaced
  refine ⟨name :: (held.reverse ++ gt :: lexemes.reverse).reverse ++ [closing], ?_, ?_⟩
  · have gtSummary : gt.summary = (.gt, ['>']) := by
      simp only [gt, Cursor.summary_lexeme, closes, List.take_succ_cons, List.take_zero]
    have order : name :: (held.reverse ++ gt :: lexemes.reverse).reverse ++ [closing] =
        (name :: lexemes) ++ gt :: held ++ [closing] := by simp
    rw [order, List.map_append, List.map_append, summaries, List.map_cons, heldSummaries,
      gtSummary, List.map_singleton, closingSummary, MarkupTree.flatten]
  · have stop : cursor.advance (MarkupTree.enclosing tag children).render.length =
        (gt.stop.advance children.render.length).advance
          (" </".toList ++ tag.name.text ++ ['>']).length := by
      change _ = (((cursor.advance tag.render.length).advance 1).advance _).advance _
      simp only [Cursor.advance_advance]
      congr 1
      simp [MarkupTree.render]
      omega
    rw [stop]
    exact ((opened.trans entered).trans filled).trans closed

theorem MarkupTree.Flattens.collects {tree : MarkupTree} (flattens : tree.Flattens)
    {more : Text} (spaced : more.Spaced) :
    Collects .children tree.render tree.flatten more := by
  intro cursor name content outer here
  exact flattens cursor ({ name, content, phase := .children } :: outer) more here spaced

mutual

theorem MarkupTree.flattens (tree : MarkupTree) : tree.Flattens := by
  cases tree with
  | selfClosing tag => exact MarkupTree.flattens_selfClosing tag
  | enclosing tag children =>
      apply MarkupTree.flattens_enclosing tag
      intro more spaced
      exact children.collects more spaced

theorem MarkupForest.collects (forest : MarkupForest) (more : Text)
    (spaced : ∃ rest, more = ' ' :: rest) :
    Collects .children forest.render forest.flatten more := by
  cases forest with
  | none => exact .nothing
  | word word children =>
      have behind := children.collects more spaced
      obtain ⟨rest, next⟩ := children.render_spaced spaced
      have here : Collects .children word.text [(wordKind word.text, word.text)]
          (children.render ++ more) :=
        .word word ⟨wordKind_ne nofun nofun, wordKind_ne nofun nofun⟩ (next ▸ .cons rfl)
      have space : Collects .children [' '] [] (word.text ++ children.render ++ more) := by
        rw [List.append_assoc]
        exact .space (word.endsRun_isBlank _)
      exact space.append (here.append behind)
  | element tree children =>
      have behind := children.collects more spaced
      have here : Collects .children tree.render tree.flatten (children.render ++ more) :=
        tree.flattens.collects (.inr (children.render_spaced spaced))
      have space : Collects .children [' '] [] (tree.render ++ children.render ++ more) := by
        rw [List.append_assoc]
        exact .space (tree.render_endsRun_isBlank _)
      exact space.append (here.append behind)

end

namespace Lexer

theorem drain_ready (tokens : List Token) {lexer : Lexer} {more : List Token} {last : Lexer}
    (ready : lexer.ready = []) (drained : lexer.drain = .ok (more, last)) :
    { lexer with ready := tokens }.drain = .ok (tokens ++ more, last) := by
  induction tokens with
  | nil =>
      have same : { lexer with ready := [] } = lexer := by rw [← ready]
      rw [same]
      exact drained
  | cons token tokens ih =>
      have answer : { lexer with ready := token :: tokens }.next =
          .token token { lexer with ready := tokens } := next_of_pulled rfl
      rw [drain_eq, answer]
      simp only [ih]
      rfl

theorem Moves.drain_eq {lexer last : Lexer} (moves : lexer.Moves last) :
    lexer.drain = last.drain := by
  rw [Lexer.drain_eq, Lexer.drain_eq last, moves.next_eq]

theorem drain_finished {cursor : Cursor} (finished : cursor.rest = []) :
    (among cursor []).drain = .ok ([], among cursor []) := by
  have answer : (among cursor []).next = .endOfText (among cursor []) := by
    apply next_of_pulled
    obtain ⟨offset, line, _⟩ := cursor
    cases finished
    rfl
  rw [Lexer.drain_eq, answer]

end Lexer

/-- The tokens of the text of a markup tree are its flattening: nothing is lost,
added or moved at any depth, and there are no comments. -/
theorem tokenize_render (tree : MarkupTree) :
    ∃ tokens, tokenize tree.render = .ok { tokens, comments := [] } ∧
      tokens.map (fun token => (token.kind, token.text)) = tree.flatten := by
  obtain ⟨lexemes, summaries, moves⟩ := tree.flattens (.atStart tree.render) [] []
    (List.append_nil _).symm (.inl rfl)
  have start : Lexer.ofText tree.render = Lexer.among (.atStart tree.render) [] := rfl
  have finished : ((Cursor.atStart tree.render).advance tree.render.length).rest = [] := by
    rw [Cursor.rest_advance]
    exact List.drop_length
  have drained := Lexer.drain_ready (lexemes.map Lexeme.token) rfl
    (Lexer.drain_finished finished)
  rw [List.append_nil] at drained
  have handed := moves.drain_eq.trans drained
  refine ⟨lexemes.map Lexeme.token, ?_, ?_⟩
  · unfold tokenize
    rw [start, handed]
    rfl
  · rw [List.map_map]
    exact summaries

/-- An element with an attribute, around a word and a self-closing element that
has a name of two parts. -/
example :
    let part (first : Char) (lower : first.isLower) : NamePart := ⟨first, [], lower, nofun⟩
    let word (first : Char) (lower : first.isLower) : LowerWord := ⟨first, [], lower, nofun⟩
    let inner : MarkupTree :=
      .selfClosing ⟨⟨part 'a' rfl, some (part 'b' rfl)⟩, []⟩
    let tree : MarkupTree :=
      .enclosing ⟨⟨part 'p' rfl, none⟩, [⟨word 'x' rfl, "1 2".toList, by simp⟩]⟩
        (.word (word 'y' rfl) (.element inner .none))
    tree.render = "<p x=\"1 2\"> y <a:b /> </p>".toList ∧
      tree.flatten.map Prod.fst =
        [.xhpName, .word, .eq, .doubleQuotedString, .gt, .word, .xhpName, .slash, .gt,
          .xhpClosing] := by
  decide

end HackLexer
