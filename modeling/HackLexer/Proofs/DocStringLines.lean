import HackLexer.Proofs.FirstTokens
import HackLexer.Proofs.Grammar.Matchers
import HackLexer.Proofs.Lines
import HackLexer.Proofs.MarkupTrees
import HackLexer.Proofs.SearchLookahead

/-!
# Doc strings line by line

The lexer reads the body of a doc string character by character and remembers
whether a line starts.  Here the body is taken as the lines in front of the
first one that closes the doc string.  A nowdoc keeps these lines as they are,
and so does a heredoc if no brace and no backslash stands in them.

The main statements are `nowdoc_ends_at_closing_line` and
`heredoc_reads_like_nowdoc`.
-/

namespace HackLexer

/-- A line that closes a doc string: it starts with the label and ends there or
goes on with neither letter nor digit nor underscore. -/
def ClosesLine (label line : Text) : Prop :=
  ∃ more, line = label ++ more ∧ more.Stops

theorem closesLine_iff (label line : Text) :
    (label.isPrefixOf line && !(line.drop label.length).head?.any isAlphanumeric) = true ↔
      ClosesLine label line := by
  unfold ClosesLine Text.Stops
  simp only [Bool.and_eq_true, Bool.not_eq_true', List.isPrefixOf_iff_prefix]
  constructor
  · rintro ⟨⟨more, rfl⟩, stops⟩
    rw [List.drop_left] at stops
    exact ⟨more, rfl, stops⟩
  · rintro ⟨more, rfl, stops⟩
    rw [List.drop_left]
    exact ⟨List.prefix_append _ _, stops⟩

instance (label line : Text) : Decidable (ClosesLine label line) :=
  decidable_of_iff _ (closesLine_iff label line)

theorem Label.closes_iff (label : Label) (line : Text) :
    label.closes line ↔ ClosesLine label.text line :=
  closesLine_iff label.text line

theorem Label.closes_eq_false {label : Label} {line : Text}
    (goes : ¬ ClosesLine label.text line) : label.closes line = false :=
  Bool.eq_false_iff.mpr (mt (label.closes_iff line).mp goes)

/-- The lines of a text in front of the first one that closes a doc string, or
all of them if there is none. -/
def linesInFront (label text : Text) : List Text :=
  (text.splitOn '\n').takeWhile fun line => ¬ ClosesLine label line

namespace DocString

variable {label : Label}

/-- Whether a line closes a doc string is told by the line alone. -/
theorem closes_line (proper : label.Proper) (line rest : Text) :
    label.closes (line ++ '\n' :: rest) ↔ ClosesLine label.text line := by
  rw [Label.closes_append_of_stops proper (Text.breaks_feed rest).stops, label.closes_iff]

theorem closes_line_eq_false (proper : label.Proper) {line : Text}
    (goes : ¬ ClosesLine label.text line) (rest : Text) :
    label.closes (line ++ '\n' :: rest) = false :=
  Bool.eq_false_iff.mpr (mt (closes_line proper line rest).mp goes)

theorem nowdocBody_line (proper : label.Proper) {line : Text} (noFeed : '\n' ∉ line)
    (goes : ¬ ClosesLine label.text line) (rest : Text) :
    nowdocBody label true (line ++ '\n' :: rest) =
      (nowdocBody label true rest).map (line ++ '\n' :: ·) := by
  rw [nowdocBody_of_not_closes (closes_line_eq_false proper goes rest), nowdocBody_inLine noFeed]

theorem nowdocBody_lastLine {line : Text} (noFeed : '\n' ∉ line)
    (goes : ¬ ClosesLine label.text line) : nowdocBody label true line = none := by
  rw [nowdocBody_of_not_closes (Label.closes_eq_false goes), nowdocBody_inLastLine noFeed]

/-- Lines that do not close a nowdoc are its body in front of one that does. -/
theorem nowdocBody_lines (proper : label.Proper) {lines : List Text}
    (inside : ∀ line ∈ lines, '\n' ∉ line ∧ ¬ ClosesLine label.text line) {closing : Text}
    (closes : label.closes closing) :
    nowdocBody label true (Text.ended lines ++ closing) = some (Text.ended lines) := by
  induction lines with
  | nil => exact nowdocBody_closing (by rw [Bool.true_and]; exact closes)
  | cons line lines ih =>
      obtain ⟨noFeed, goes⟩ := inside line List.mem_cons_self
      have behind := ih fun later member => inside later (List.mem_cons_of_mem _ member)
      have whole : Text.ended (line :: lines) ++ closing =
          line ++ '\n' :: (Text.ended lines ++ closing) := by
        simp [Text.ended]
      rw [whole, nowdocBody_line proper noFeed goes, behind]
      simp [Text.ended]

/-- Where no line closes a nowdoc, it has no end. -/
theorem nowdocBody_unclosed (proper : label.Proper) {text : Text}
    (goes : ∀ line ∈ text.splitOn '\n', ¬ ClosesLine label.text line) :
    nowdocBody label true text = none := by
  induction text using Text.lineInduction with
  | last text noFeed lines =>
      rw [lines] at goes
      exact nowdocBody_lastLine noFeed (goes text List.mem_cons_self)
  | line first rest noFeed lines ih =>
      rw [lines] at goes
      rw [nowdocBody_line proper noFeed (goes first List.mem_cons_self),
        ih fun line member => goes line (List.mem_cons_of_mem _ member)]
      rfl

theorem heredocBody_line (proper : label.Proper) {line : Text} (noFeed : '\n' ∉ line)
    (plain : '\x7b' ∉ line ∧ '\\' ∉ line) (goes : ¬ ClosesLine label.text line)
    (rest : Text) :
    heredocBody label true (line ++ '\n' :: rest) =
      (heredocBody label true rest).prepend (line ++ ['\n']) (line ++ ['\n']).length := by
  have feed : heredocBody label false ('\n' :: rest) =
      (heredocBody label true rest).prepend ['\n'] 1 :=
    heredocBody_cons rfl nofun nofun
  rw [heredocBody_of_not_closes (closes_line_eq_false proper goes rest),
    heredocBody_plain plain.1 plain.2 noFeed, feed]
  simp [Body.prepend, Nat.add_assoc]

theorem heredocBody_lastLine {line : Text} (noFeed : '\n' ∉ line)
    (plain : '\x7b' ∉ line ∧ '\\' ∉ line) (goes : ¬ ClosesLine label.text line) :
    heredocBody label true line =
      { value := line, length := line.length, ending := .endOfText } := by
  have read := @heredocBody_plain label line plain.1 plain.2 noFeed []
  rw [List.append_nil, heredocBody_nil rfl] at read
  rw [heredocBody_of_not_closes (Label.closes_eq_false goes), read]
  simp [Body.prepend]

/-- A heredoc is read like a nowdoc if neither brace nor backslash stands in front
of the line that closes it. -/
theorem heredocBody_eq (proper : label.Proper) {text : Text}
    (plain : ∀ line ∈ linesInFront label.text text, '\x7b' ∉ line ∧ '\\' ∉ line) :
    heredocBody label true text =
      match nowdocBody label true text with
      | some value =>
          { value, length := (value ++ label.text).length, ending := .closed }
      | none => { value := text, length := text.length, ending := .endOfText } := by
  induction text using Text.lineInduction with
  | last text noFeed lines =>
      by_cases closing : ClosesLine label.text text
      · -- Both readers stop in front of this line, so nothing about what it holds is needed.
        have closes : (true && label.closes text) = true := (label.closes_iff text).mpr closing
        rw [heredocBody_closing closes, nowdocBody_closing closes]
        rfl
      · rw [linesInFront, lines, List.takeWhile_cons_of_pos (by simpa using closing)] at plain
        rw [heredocBody_lastLine noFeed (plain text List.mem_cons_self) closing,
          nowdocBody_lastLine noFeed closing]
  | line first rest noFeed lines ih =>
      by_cases closing : ClosesLine label.text first
      · have closes : (true && label.closes (first ++ '\n' :: rest)) = true :=
          (closes_line proper first rest).mpr closing
        rw [heredocBody_closing closes, nowdocBody_closing closes]
        rfl
      · rw [linesInFront, lines, List.takeWhile_cons_of_pos (by simpa using closing)] at plain
        have behind := ih fun line member => plain line (List.mem_cons_of_mem _ member)
        rw [heredocBody_line proper noFeed (plain first List.mem_cons_self) closing,
          nowdocBody_line proper noFeed closing, behind]
        cases nowdocBody label true rest with
        | none =>
            simp [Body.prepend]
            omega
        | some value =>
            simp [Body.prepend]
            omega

end DocString

theorem Grammar.mem_label {first : Char} {more : Text} (upper : first.isUpper)
    (nonempty : more ≠ []) (parts : more.all Label.isPart) : first :: more ∈ label :=
  Language.append_mem_mul (mem_oneOf upper)
    (mem_oneOrMore_oneOf.mpr ⟨nonempty, List.all_eq_true.mp parts⟩)

section Openings

variable {label : Label} {lineBreak : Text}

theorem Label.exists_of_mem {text : Text} (labelled : text ∈ Grammar.label) :
    ∃ label : Label, label.text = text := by
  obtain ⟨_, ⟨first, _, rfl⟩, more, _, rfl⟩ := labelled
  exact ⟨⟨first, more⟩, rfl⟩

theorem Label.ofText?_append_of_ends (labelled : label.text ∈ Grammar.label) {rest : Text}
    (ends : rest.EndsRun isPart) : ofText? (label.text ++ rest) = some label := by
  obtain ⟨_, ⟨first, upper, rfl⟩, more, parts, whole⟩ := labelled
  obtain ⟨rfl, rfl⟩ := List.cons.inj whole
  obtain ⟨nonempty, parts⟩ := Grammar.mem_oneOrMore_oneOf.mp parts
  rw [text, List.cons_append, ofText?, Text.takeWhile_of_endsRun parts ends]
  simp [upper, nonempty]

theorem Label.proper_of_mem (labelled : label.text ∈ Grammar.label) : label.Proper := by
  apply proper_of_ofText?
  exact @ofText?_append_of_ends label labelled [] nofun

namespace DocString

theorem lineBreak?_append_of_mem (breaks : lineBreak ∈ Grammar.lineBreak) (rest : Text) :
    lineBreak? (lineBreak ++ rest) = some lineBreak.length := by
  rcases breaks with feed | both
  · cases feed
    rfl
  · cases both
    rfl

theorem length_opening (header : Header) :
    (header.form.opening header.label.text).length = header.length := by
  obtain ⟨form, label, lineBreak⟩ := header
  cases form with
  | heredoc => exact List.length_append
  | nowdoc =>
      have quotes : "<<<'".toList.length + "'".toList.length = 5 := rfl
      simp only [opening_nowdoc, List.length_append, Header.length, Label.length]
      omega

theorem headed?_append_of_mem {ending : Text → Option Nat}
    (labelled : label.text ∈ Grammar.label) {rest : Text} (ends : rest.EndsRun Label.isPart) :
    headed? ending (label.text ++ rest) = (ending rest).map fun count => (label, count) := by
  rw [headed?, Label.ofText?_append_of_ends labelled ends]
  dsimp only
  rw [Label.length, List.drop_left]

theorem header?_opening (form : DocString) (labelled : label.text ∈ Grammar.label)
    (breaks : lineBreak ∈ Grammar.lineBreak) (rest : Text) :
    ∃ behind, form.opening label.text ++ lineBreak ++ rest = '<' :: '<' :: '<' :: behind ∧
      header? behind = some { form, label, lineBreak := lineBreak.length } := by
  have ended := lineBreak?_append_of_mem breaks rest
  cases form with
  | heredoc =>
      refine ⟨label.text ++ (lineBreak ++ rest), ?_, ?_⟩
      · simp only [opening_heredoc, List.append_assoc]
        rfl
      · have unquoted : (label.text ++ (lineBreak ++ rest)).head? ≠ some '\'' := by
          intro quote
          have part := Label.proper_of_mem labelled label.first List.mem_cons_self
          have same : label.first = '\'' := Option.some.inj quote
          rw [same] at part
          cases part
        have ends : (lineBreak ++ rest).EndsRun Label.isPart := by
          rcases breaks with feed | both
          · cases feed
            exact .cons rfl
          · cases both
            exact .cons rfl
        rw [header?_unquoted unquoted, headed?_append_of_mem labelled ends, ended]
        rfl
  | nowdoc =>
      refine ⟨'\'' :: (label.text ++ ('\'' :: (lineBreak ++ rest))), ?_, ?_⟩
      · simp only [opening_nowdoc, List.append_assoc]
        rfl
      · rw [header?_quoted, headed?_append_of_mem labelled (.cons rfl), quotedBreak?, ended]
        rfl

end DocString

open DocString

theorem scan_docString (markup : Bool) {cursor : Cursor} {behind : Text}
    (here : cursor.rest = '<' :: '<' :: '<' :: behind) :
    scan markup cursor = ModeStack.docString cursor (header? behind) := by
  have unopened : layoutAt cursor = none ∧ markerAt cursor = none ∧ commentAt cursor = none ∧
      quotedAt cursor = none := by
    unfold layoutAt markerAt commentAt quotedAt
    rw [here]
    exact ⟨rfl, rfl, rfl, rfl⟩
  unfold scan recognise
  rw [unopened.1, unopened.2.1, unopened.2.2.1, unopened.2.2.2, ModeStack.docStringAt_eq here]
  rfl

theorem scan_opening (form : DocString) (labelled : label.text ∈ Grammar.label)
    (breaks : lineBreak ∈ Grammar.lineBreak) (rest : Text) :
    scan true (.atStart (form.opening label.text ++ lineBreak ++ rest)) =
      ModeStack.docString (.atStart (form.opening label.text ++ lineBreak ++ rest))
        (some { form, label, lineBreak := lineBreak.length }) := by
  obtain ⟨behind, opens, found⟩ := header?_opening form labelled breaks rest
  rw [scan_docString true opens, found]

theorem advance_opening (form : DocString) (label : Label) (lineBreak rest : Text) :
    (Cursor.atStart (form.opening label.text ++ lineBreak ++ rest)).advance
        (({ form, label, lineBreak := lineBreak.length } : Header).length + lineBreak.length) =
      .behind (form.opening label.text ++ lineBreak) rest := by
  rw [← length_opening, ← List.length_append, Cursor.advance_atStart]

theorem opensWith_nowdoc (labelled : label.text ∈ Grammar.label)
    (breaks : lineBreak ∈ Grammar.lineBreak) {value suffix : Text}
    (read : nowdocBody label true (value ++ label.text ++ suffix) = some value) :
    OpensWith (DocString.nowdoc.opening label.text ++ lineBreak ++ (value ++ label.text) ++ suffix)
      .nowdoc (DocString.nowdoc.opening label.text ++ lineBreak ++ (value ++ label.text))
      value suffix := by
  have scanned := scan_opening .nowdoc labelled breaks (value ++ label.text ++ suffix)
  simp only [ModeStack.docString, advance_opening, Cursor.rest_behind, read] at scanned
  rw [Label.length, ← List.length_append, Cursor.advance_behind, ← List.append_assoc] at scanned
  exact .of_lexeme (by simp [opening_nowdoc]) scanned

theorem leavesOpen_nowdoc (labelled : label.text ∈ Grammar.label)
    (breaks : lineBreak ∈ Grammar.lineBreak) {text : Text}
    (read : nowdocBody label true text = none) :
    LeavesOpen (DocString.nowdoc.opening label.text ++ lineBreak ++ text)
      (.unterminatedDocString .nowdoc) (DocString.nowdoc.opening label.text) := by
  have scanned := scan_opening .nowdoc labelled breaks text
  simp only [ModeStack.docString, advance_opening, Cursor.rest_behind, read] at scanned
  rw [← length_opening, List.append_assoc] at scanned
  rw [List.append_assoc]
  exact .of_scan (by simp [opening_nowdoc]) scanned

theorem scan_heredoc (labelled : label.text ∈ Grammar.label)
    (breaks : lineBreak ∈ Grammar.lineBreak) (rest : Text) :
    let start := Cursor.atStart (DocString.heredoc.opening label.text ++ lineBreak ++ rest)
    scan true start =
      .ok
        { found := .literal (opening start (.heredoc label true))
          after := start.advance (DocString.heredoc.opening label.text ++ lineBreak).length
          comment := none } := by
  dsimp only
  rw [scan_opening .heredoc labelled breaks, List.length_append,
    length_opening ⟨.heredoc, label, lineBreak.length⟩]
  rfl

theorem opensWith_heredoc (labelled : label.text ∈ Grammar.label)
    (breaks : lineBreak ∈ Grammar.lineBreak) {value suffix : Text}
    (read : heredocBody label true (value ++ label.text ++ suffix) =
      { value, length := (value ++ label.text).length, ending := .closed }) :
    OpensWith (DocString.heredoc.opening label.text ++ lineBreak ++ (value ++ label.text) ++ suffix)
      .heredoc (DocString.heredoc.opening label.text ++ lineBreak ++ (value ++ label.text))
      value suffix := by
  have scanned := scan_heredoc labelled breaks (value ++ label.text ++ suffix)
  rw [← List.append_assoc] at scanned
  exact .of_literal (by simp [opening_heredoc]) scanned read rfl

theorem leavesOpen_heredoc (labelled : label.text ∈ Grammar.label)
    (breaks : lineBreak ∈ Grammar.lineBreak) {text : Text}
    (unended : (heredocBody label true text).ending = .endOfText) :
    LeavesOpen (DocString.heredoc.opening label.text ++ lineBreak ++ text)
      (.unterminatedDocString .heredoc) (DocString.heredoc.opening label.text) := by
  obtain ⟨after, failed⟩ := Lexer.next_of_unended rfl (by simp [opening_heredoc])
    (scan_heredoc labelled breaks text) unended
  have length : 3 + label.length = (DocString.heredoc.opening label.text).length :=
    (length_opening ⟨.heredoc, label, 0⟩).symm
  simp only [StringLiteral.unclosed, opening, LexicalError.unclosed, length] at failed
  rw [(Cursor.isPlaceOf_behind _ _).line_toEnd] at failed
  refine ⟨after, failed.trans ?_⟩
  rw [List.append_assoc, spanOf_atStart]

end Openings

/-- A nowdoc keeps the lines in front of the first one that closes it as they are, line
feeds included, and ends behind the label on that line.  If no line behind the header
closes it, it never ends. -/
theorem nowdoc_ends_at_closing_line {label lineBreak : Text} (labelled : label ∈ Grammar.label)
    (breaks : lineBreak ∈ Grammar.lineBreak) :
    (∀ (lines : List Text) (suffix : Text),
      (∀ line ∈ lines, '\n' ∉ line ∧ ¬ ClosesLine label line) → suffix.Stops →
      OpensWith
        (DocString.nowdoc.opening label ++ lineBreak ++ (Text.ended lines ++ label) ++ suffix)
        .nowdoc (DocString.nowdoc.opening label ++ lineBreak ++ (Text.ended lines ++ label))
        (Text.ended lines) suffix) ∧
    (∀ text : Text, (∀ line ∈ text.splitOn '\n', ¬ ClosesLine label line) →
      LeavesOpen (DocString.nowdoc.opening label ++ lineBreak ++ text)
        (.unterminatedDocString .nowdoc) (DocString.nowdoc.opening label)) := by
  obtain ⟨label, rfl⟩ := Label.exists_of_mem labelled
  have proper := Label.proper_of_mem labelled
  constructor
  · intro lines suffix inside stops
    have closes : label.closes (label.text ++ suffix) :=
      (label.closes_iff _).mpr ⟨suffix, rfl, stops⟩
    have read := DocString.nowdocBody_lines proper inside closes
    rw [← List.append_assoc] at read
    exact opensWith_nowdoc labelled breaks read
  · intro text goes
    exact leavesOpen_nowdoc labelled breaks (DocString.nowdocBody_unclosed proper goes)

/-- Body lines that begin like the label, an empty one among them, and a body without a
line that closes it. -/
theorem nowdoc_passes_longer_words :
    OpensWith "<<<'EOT'\nEOTX\n\n\\\x7bé EOT\nEOT;\n".toList .nowdoc
      "<<<'EOT'\nEOTX\n\n\\\x7bé EOT\nEOT".toList "EOTX\n\n\\\x7bé EOT\n".toList ";\n".toList ∧
    LeavesOpen "<<<'EOT'\nEOT1\n EOT".toList (.unterminatedDocString .nowdoc)
      "<<<'EOT'".toList := by
  have labelled : "EOT".toList ∈ Grammar.label := Grammar.mem_label rfl nofun rfl
  have breaks : "\n".toList ∈ Grammar.lineBreak := .inl rfl
  have ends := nowdoc_ends_at_closing_line labelled breaks
  exact ⟨ends.1 ["EOTX".toList, [], "\\\x7bé EOT".toList] ";\n".toList (by decide) rfl,
    ends.2 "EOT1\n EOT".toList (by decide)⟩

theorem measures_opening (label : Text) :
    Text.byteLength (DocString.nowdoc.opening label) =
        Text.byteLength (DocString.heredoc.opening label) + 2 ∧
      Text.lineFeeds (DocString.nowdoc.opening label) =
        Text.lineFeeds (DocString.heredoc.opening label) := by
  have openers : Text.byteLength "<<<'".toList = Text.byteLength "<<<".toList + 1 ∧
      Text.lineFeeds "<<<'".toList = Text.lineFeeds "<<<".toList := ⟨rfl, rfl⟩
  have quote : Text.byteLength "'".toList = 1 ∧ Text.lineFeeds "'".toList = 0 := ⟨rfl, rfl⟩
  simp only [DocString.opening_heredoc, DocString.opening_nowdoc, Text.byteLength_append,
    Text.lineFeeds_append]
  omega

/-- The answers about a heredoc and about the nowdoc that differs from it in the quotes
around the label: both give the same value, end at the same place behind the header and
go on in the same line, or both doc strings never end and the errors have the same
line. -/
def Pulled.Alike : Pulled → Pulled → Prop
  | .token heredoc after, .token nowdoc otherAfter =>
      heredoc.kind = .heredoc ∧ nowdoc.kind = .nowdoc ∧
        heredoc.literal.isSome ∧ nowdoc.literal = heredoc.literal ∧
        nowdoc.span.stop = heredoc.span.stop + 2 ∧
        otherAfter.cursor.line = after.cursor.line ∧ otherAfter.cursor.rest = after.cursor.rest
  | .failed error _, .failed other _ =>
      error.cause = .unterminatedDocString .heredoc ∧
        other.cause = .unterminatedDocString .nowdoc ∧ other.line = error.line
  | _, _ => False

/-- A heredoc is read like a nowdoc unless a brace or a backslash stands in front of the
first line that closes it. -/
theorem heredoc_reads_like_nowdoc {label lineBreak rest : Text} (labelled : label ∈ Grammar.label)
    (breaks : lineBreak ∈ Grammar.lineBreak)
    (plain : ∀ line ∈ linesInFront label rest, '\x7b' ∉ line ∧ '\\' ∉ line) :
    (Lexer.ofText (DocString.heredoc.opening label ++ lineBreak ++ rest)).next.Alike
      (Lexer.ofText (DocString.nowdoc.opening label ++ lineBreak ++ rest)).next := by
  obtain ⟨label, rfl⟩ := Label.exists_of_mem labelled
  have proper := Label.proper_of_mem labelled
  have same := DocString.heredocBody_eq proper plain
  obtain ⟨bytes, feeds⟩ := measures_opening label.text
  cases read : DocString.nowdocBody label true rest with
  | some value =>
      rw [read] at same
      obtain ⟨behind, rfl, closes⟩ := DocString.nowdocBody_some read
      obtain ⟨suffix, rfl, _⟩ := (label.closes_iff _).mp closes
      have whole (form : DocString) :
          form.opening label.text ++ lineBreak ++ (value ++ (label.text ++ suffix)) =
            form.opening label.text ++ lineBreak ++ (value ++ label.text) ++ suffix := by
        simp
      rw [← List.append_assoc] at read same
      rw [whole, whole, (opensWith_heredoc labelled breaks same).answer,
        (opensWith_nowdoc labelled breaks read).answer]
      refine ⟨rfl, rfl, rfl, rfl, ?_, ?_, rfl⟩
      · simp only [Span.stop, Text.byteLength_append, bytes]
        omega
      · simp only [Cursor.behind, Text.lineFeeds_append, feeds]
  | none =>
      rw [read] at same
      obtain ⟨after, failed⟩ := leavesOpen_heredoc labelled breaks (congrArg Body.ending same)
      obtain ⟨otherAfter, otherFailed⟩ := leavesOpen_nowdoc labelled breaks read
      rw [failed, otherFailed]
      refine ⟨rfl, rfl, ?_⟩
      simp only [Text.lineFeeds_append, feeds]

/-- A label that opens a longer word of the body, a character of two bytes in front of the
closing line, a carriage return behind the label and a brace on the closing line. -/
theorem heredoc_read_like_nowdoc_past_longer_word :
    let rest := "EOT_\n\n EOT é\nEOT\r\x7b\n".toList
    "EOT".toList ∈ Grammar.label ∧ "\r\n".toList ∈ Grammar.lineBreak ∧
    (∀ line ∈ linesInFront "EOT".toList rest, '\x7b' ∉ line ∧ '\\' ∉ line) ∧
    (Lexer.ofText ("<<<EOT\r\n".toList ++ rest)).next.Alike
      (Lexer.ofText ("<<<'EOT'\r\n".toList ++ rest)).next := by
  intro rest
  have labelled : "EOT".toList ∈ Grammar.label := Grammar.mem_label rfl nofun rfl
  have breaks : "\r\n".toList ∈ Grammar.lineBreak := .inr rfl
  have plain : ∀ line ∈ linesInFront "EOT".toList rest, '\x7b' ∉ line ∧ '\\' ∉ line := by
    decide
  exact ⟨labelled, breaks, plain, heredoc_reads_like_nowdoc labelled breaks plain⟩

end HackLexer
