import HackLexer.Lexeme.Marker
import HackLexer.Lexeme.MarkupName
import HackLexer.Lexeme.Number
import HackLexer.Lexeme.Punctuation
import HackLexer.Lexeme.Word
import HackLexer.StringLiteral
import HackLexer.StringLiteral.SingleQuoted

/-!
# Scanning outside of strings

What stands at a cursor is found by trying recognisers in a fixed order; the
first one that applies decides.  A recogniser that applies may still fail, for
instance on a comment that is never closed.

The main statement, `scan_advances`, says that a successful scan moves the
cursor over at least one character.
-/

namespace HackLexer

/-- What stands at a cursor. -/
inductive Found where
  /-- Blanks, a line feed or a comment. -/
  | layout
  /-- A complete lexeme. -/
  | lexeme (lexeme : Lexeme)
  /-- A literal whose body is still to be read. -/
  | literal (literal : StringLiteral)
  /-- The name that opens a markup element. -/
  | element (name : Lexeme)

/-- The result of a successful scan. -/
structure Scanned where
  found : Found
  /-- Where lexing goes on. -/
  after : Cursor
  /-- The comment that was passed over. -/
  comment : Option Comment

/-- The result of a recogniser: nothing if it does not apply. -/
abbrev Recognised := Option (Except LexicalError Scanned)

namespace Scanned

/-- A lexeme behind which lexing goes on. -/
def ofLexeme (lexeme : Lexeme) : Scanned :=
  { found := .lexeme lexeme, after := lexeme.stop, comment := none }

end Scanned

/-- The line comment from a cursor to the end of its line, and the place behind
it. -/
def lineComment (start : Cursor) : Comment × Cursor :=
  let after := start.advance (Text.countWhile (· != '\n') start.rest + 1)
  ({ kind := .line, span := start.spanTo after }, after)

/-- The block comment from a cursor to the first `*/` behind the given number of
characters, and the place behind it.  The `/*` stands at `opening`. -/
def blockComment (opening start : Cursor) (skipped : Nat) :
    Except LexicalError (Comment × Cursor) :=
  match Text.find? "*/".toList (start.rest.drop skipped) with
  | some count =>
      let after := start.advance (skipped + count + 2)
      .ok ({ kind := .block, span := start.spanTo after }, after)
  | none => .error (.unclosed .unterminatedComment (opening.spanOf 2) opening)

/-- Recognises a line feed or a run of blanks. -/
def layoutAt (cursor : Cursor) : Recognised :=
  match cursor.rest with
  | '\n' :: _ => some (.ok { found := .layout, after := cursor.advance 1, comment := none })
  | rest =>
      match Text.countWhile isBlank rest with
      | 0 => none
      | count + 1 =>
          some (.ok { found := .layout, after := cursor.advance (count + 1), comment := none })

/-- Recognises a suppression marker.  The rest of its comment is a comment that
starts right behind the marker. -/
def markerAt (cursor : Cursor) : Recognised :=
  match marker? cursor.rest with
  | none => none
  | some (kind, count) =>
      let marker := cursor.lexeme kind count
      let passing (comment : Comment × Cursor) : Scanned :=
        { found := .lexeme marker, after := comment.2, comment := some comment.1 }
      match kind with
      | .fixmeExpr => some ((blockComment cursor marker.stop 0).map passing)
      | _ => some (.ok (passing (lineComment marker.stop)))

def commentAt (cursor : Cursor) : Recognised :=
  let passing (comment : Comment × Cursor) : Scanned :=
    { found := .layout, after := comment.2, comment := some comment.1 }
  match cursor.rest with
  | '/' :: '*' :: _ => some ((blockComment cursor cursor 2).map passing)
  | '/' :: '/' :: _ => some (.ok (passing (lineComment cursor)))
  | '#' :: _ => some (.ok (passing (lineComment cursor)))
  | _ => none

/-- Recognises a quoted string.  Of a double-quoted one only the quote is
read. -/
def quotedAt (cursor : Cursor) : Recognised :=
  match cursor.rest with
  | '"' :: _ =>
      some (.ok
        { found := .literal { start := cursor, form := .doubleQuoted, value := [] }
          after := cursor.advance 1
          comment := none })
  | '\'' :: behind =>
      match SingleQuoted.body behind with
      | none =>
          some (.error (.unclosed (.unterminatedString .single) (cursor.spanOf 1) cursor))
      | some (value, count) =>
          some (.ok (.ofLexeme
            { kind := .quotedString
              start := cursor
              stop := cursor.advance (1 + count)
              literal := some value }))
  | _ => none

/-- Recognises a doc string.  Of a heredoc only the header is read. -/
def docStringAt (cursor : Cursor) : Recognised :=
  match cursor.rest with
  | '<' :: '<' :: '<' :: behind =>
      match DocString.header? behind with
      | none =>
          some (.error
            { cause := .invalidDocString, span := cursor.spanOf 3, line := cursor.line })
      | some header =>
          let body := cursor.advance (header.length + header.lineBreak)
          match header.form with
          | .heredoc =>
              some (.ok
                { found := .literal
                    { start := cursor, form := .heredoc header.label true, value := [] }
                  after := body
                  comment := none })
          | .nowdoc =>
              match DocString.nowdocBody header.label true body.rest with
              | none =>
                  some (.error (.unclosed (.unterminatedDocString .nowdoc)
                    (cursor.spanOf header.length) cursor))
              | some value =>
                  some (.ok (.ofLexeme
                    { kind := .nowdoc
                      start := cursor
                      stop := body.advance (value.length + header.label.length)
                      literal := some value }))
  | _ => none

/-- Recognises a token that a matcher has found at the front of the rest. -/
def tokenAt (cursor : Cursor) (matched : Option (TokenKind × Nat)) : Recognised :=
  matched.map fun token => .ok (.ofLexeme (cursor.lexeme token.1 token.2))

/-- Recognises the name that opens a markup element, where markup is allowed. -/
def elementAt (markup : Bool) (cursor : Cursor) : Recognised :=
  if markup then
    (markupName? cursor.rest).map fun count =>
      let name := cursor.lexeme .xhpName count
      .ok { found := .element name, after := name.stop, comment := none }
  else
    none

/-- The error about a character that starts no token. -/
def unknownTokenAt (cursor : Cursor) : LexicalError :=
  { cause := .unknownToken, span := cursor.spanOf 1, line := cursor.line }

/-- The first recogniser that applies at a cursor. -/
def recognise (markup : Bool) (cursor : Cursor) : Recognised :=
  layoutAt cursor <|> markerAt cursor <|> commentAt cursor <|> quotedAt cursor <|>
    docStringAt cursor <|> tokenAt cursor (number? cursor.rest) <|>
    tokenAt cursor (word? cursor.rest) <|> tokenAt cursor (dollar? cursor.rest) <|>
    elementAt markup cursor <|> tokenAt cursor (punctuation? cursor.rest)

/-- Scans at a cursor that is not at the end of its text. -/
def scan (markup : Bool) (cursor : Cursor) : Except LexicalError Scanned :=
  (recognise markup cursor).getD (.error (unknownTokenAt cursor))

/-- A recogniser that succeeds moves the cursor over at least one character. -/
def Advances (cursor : Cursor) (recognised : Recognised) : Prop :=
  ∀ scanned, recognised = some (.ok scanned) →
    ∃ count, 0 < count ∧ scanned.after = cursor.advance count

theorem Advances.orElse {cursor : Cursor} {first second : Recognised}
    (left : Advances cursor first) (right : Advances cursor second) :
    Advances cursor (first <|> second) := by
  cases first with
  | none => simpa using right
  | some result => simpa using left

theorem layoutAt_advances (cursor : Cursor) : Advances cursor (layoutAt cursor) := by
  intro scanned success
  unfold layoutAt at success
  split at success
  · simp only [Option.some.injEq, Except.ok.injEq] at success
    exact ⟨1, by simp [← success]⟩
  · split at success
    · simp at success
    · rename_i count _
      simp only [Option.some.injEq, Except.ok.injEq] at success
      exact ⟨count + 1, by simp [← success]⟩

theorem lineComment_after (start : Cursor) :
    (lineComment start).2 =
      start.advance (Text.countWhile (· != '\n') start.rest + 1) := rfl

theorem blockComment_after {opening start : Cursor} {skipped : Nat}
    {result : Comment × Cursor} (success : blockComment opening start skipped = .ok result) :
    ∃ count, result.2 = start.advance (skipped + count + 2) := by
  unfold blockComment at success
  split at success
  · rename_i count _
    simp only [Except.ok.injEq] at success
    exact ⟨count, by simp [← success]⟩
  · simp at success

theorem markerAt_advances (cursor : Cursor) : Advances cursor (markerAt cursor) := by
  intro scanned success
  unfold markerAt at success
  split at success
  · simp at success
  · rename_i kind count found
    have positive := marker?_positive found
    simp only at success
    split at success
    · cases result : blockComment cursor (cursor.lexeme .fixmeExpr count).stop 0 with
      | error failure => simp [result, Except.map] at success
      | ok comment =>
          obtain ⟨more, stop⟩ := blockComment_after result
          simp only [result, Except.map, Option.some.injEq, Except.ok.injEq] at success
          refine ⟨count + (0 + more + 2), by omega, ?_⟩
          rw [← success]
          simp only [stop, Cursor.lexeme, Cursor.advance_advance]
    · simp only [Option.some.injEq, Except.ok.injEq] at success
      refine ⟨count + (Text.countWhile (· != '\n') (cursor.advance count).rest + 1),
        by omega, ?_⟩
      rw [← success]
      simp only [lineComment_after, Cursor.lexeme, Cursor.advance_advance]

theorem commentAt_advances (cursor : Cursor) : Advances cursor (commentAt cursor) := by
  intro scanned success
  simp only [commentAt] at success
  split at success
  · cases result : blockComment cursor cursor 2 with
    | error failure => simp [result, Except.map] at success
    | ok comment =>
        obtain ⟨count, stop⟩ := blockComment_after result
        simp only [result, Except.map, Option.some.injEq, Except.ok.injEq] at success
        exact ⟨2 + count + 2, by omega, by rw [← success, ← stop]⟩
  · simp only [Option.some.injEq, Except.ok.injEq] at success
    exact ⟨_, Nat.succ_pos _, by rw [← success, lineComment_after]⟩
  · simp only [Option.some.injEq, Except.ok.injEq] at success
    exact ⟨_, Nat.succ_pos _, by rw [← success, lineComment_after]⟩
  · simp at success

theorem quotedAt_advances (cursor : Cursor) : Advances cursor (quotedAt cursor) := by
  intro scanned success
  unfold quotedAt at success
  split at success
  · simp only [Option.some.injEq, Except.ok.injEq] at success
    exact ⟨1, by simp [← success]⟩
  · split at success
    · simp at success
    · rename_i value count _
      simp only [Option.some.injEq, Except.ok.injEq] at success
      exact ⟨1 + count, by omega, by simp [← success, Scanned.ofLexeme]⟩
  · simp at success

theorem docStringAt_advances (cursor : Cursor) : Advances cursor (docStringAt cursor) := by
  intro scanned success
  unfold docStringAt at success
  split at success
  · split at success
    · simp at success
    · rename_i header _
      have positive := header.length_pos
      simp only at success
      split at success
      · simp only [Option.some.injEq, Except.ok.injEq] at success
        exact ⟨header.length + header.lineBreak, by omega, by simp [← success]⟩
      · split at success
        · simp at success
        · rename_i value _
          simp only [Option.some.injEq, Except.ok.injEq] at success
          refine ⟨header.length + header.lineBreak + (value.length + header.label.length),
            by omega, ?_⟩
          simp [← success, Scanned.ofLexeme, Cursor.advance_advance]
  · simp at success

theorem tokenAt_advances (cursor : Cursor) {matched : Option (TokenKind × Nat)}
    (positive : ∀ {kind count}, matched = some (kind, count) → 0 < count) :
    Advances cursor (tokenAt cursor matched) := by
  intro scanned success
  obtain ⟨⟨kind, count⟩, found, result⟩ := Option.map_eq_some_iff.mp success
  simp only [Except.ok.injEq] at result
  exact ⟨count, positive found, by simp [← result, Scanned.ofLexeme, Cursor.lexeme]⟩

theorem elementAt_advances (markup : Bool) (cursor : Cursor) :
    Advances cursor (elementAt markup cursor) := by
  intro scanned success
  unfold elementAt at success
  split at success
  · obtain ⟨count, found, result⟩ := Option.map_eq_some_iff.mp success
    simp only [Except.ok.injEq] at result
    exact ⟨count, markupName?_positive found, by simp [← result, Cursor.lexeme]⟩
  · simp at success

/-- A successful scan moves the cursor over at least one character. -/
theorem scan_advances {markup : Bool} {cursor : Cursor} {scanned : Scanned}
    (success : scan markup cursor = .ok scanned) :
    ∃ count, 0 < count ∧ scanned.after = cursor.advance count := by
  have advances : Advances cursor (recognise markup cursor) :=
    (layoutAt_advances cursor).orElse <| (markerAt_advances cursor).orElse <|
      (commentAt_advances cursor).orElse <| (quotedAt_advances cursor).orElse <|
      (docStringAt_advances cursor).orElse <|
      (tokenAt_advances cursor number?_positive).orElse <|
      (tokenAt_advances cursor word?_positive).orElse <|
      (tokenAt_advances cursor dollar?_positive).orElse <|
      (elementAt_advances markup cursor).orElse
      (tokenAt_advances cursor punctuation?_positive)
  unfold scan at success
  cases recognised : recognise markup cursor with
  | none => simp [recognised] at success
  | some result =>
      simp only [recognised, Option.getD_some] at success
      exact advances scanned (by rw [recognised, success])

end HackLexer
