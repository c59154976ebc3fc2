import HackLexer.Lexer.Scan
import HackLexer.Proofs.Places

/-!
# Outcomes of a scan

A scan that succeeds passes over layout or a comment, gives a lexeme that
starts at the cursor, or opens a literal or an element there.  A scan that
fails blames a construct that starts at the cursor.

`scan_success` and `scan_failure` list the outcomes; what a scan does to the
state of the lexer is read off from them.
-/

namespace HackLexer

/-- The characters that separate tokens without being part of a comment. -/
def isLayout (character : Char) : Bool :=
  isBlank character || character == '\n'

/-- The text from which a literal of a form is opened. -/
def LiteralForm.OpensAt (text : Text) : LiteralForm → Prop
  | .doubleQuoted => ∃ behind, text = '"' :: behind
  | .heredoc label _ =>
      ∃ behind lineBreak, text = '<' :: '<' :: '<' :: behind ∧
        DocString.header? behind = some { form := .heredoc, label, lineBreak }

/-- What a successful scan at a cursor can give; an element opens only where
markup is allowed. -/
inductive ScanSuccess (markup : Bool) (cursor : Cursor) : Scanned → Prop where
  | layout (count : Nat) (positive : 0 < count)
      (blank : (cursor.rest.take count).all isLayout) :
      ScanSuccess markup cursor
        { found := .layout, after := cursor.advance count, comment := none }
  | comment (kind : CommentKind) (count : Nat) (positive : 0 < count) :
      ScanSuccess markup cursor
        { found := .layout
          after := cursor.advance count
          comment := some { kind, span := cursor.spanTo (cursor.advance count) } }
  | lexeme (kind : TokenKind) (count : Nat) (positive : 0 < count)
      (literal : Option Text) :
      ScanSuccess markup cursor
        (.ofLexeme { kind, start := cursor, stop := cursor.advance count, literal })
  /-- A marker, which is followed by the rest of its comment. -/
  | marker (kind : TokenKind) (count : Nat) (positive : 0 < count)
      (marked : kind = .unsafeExpr ∨ kind = .fixmeExpr)
      (form : CommentKind) (more : Nat) (further : 0 < more) :
      ScanSuccess markup cursor
        { found := .lexeme (cursor.lexeme kind count)
          after := (cursor.advance count).advance more
          comment := some
            { kind := form
              span := (cursor.advance count).spanTo
                ((cursor.advance count).advance more) } }
  | literal (form : LiteralForm) (count : Nat) (positive : 0 < count)
      (opens : form.OpensAt cursor.rest) :
      ScanSuccess markup cursor
        { found := .literal { start := cursor, form, value := [] }
          after := cursor.advance count
          comment := none }
  | element (count : Nat) (positive : 0 < count) (allowed : markup = true) :
      ScanSuccess markup cursor
        { found := .element (cursor.lexeme .xhpName count)
          after := cursor.advance count
          comment := none }

/-- How a scan at a cursor can fail. -/
inductive ScanFailure (cursor : Cursor) : LexicalError → Prop where
  | comment {behind : Text} (rest : cursor.rest = '/' :: '*' :: behind) :
      ScanFailure cursor (.unclosed .unterminatedComment (cursor.spanOf 2) cursor)
  | quoted {behind : Text} (rest : cursor.rest = '\'' :: behind) :
      ScanFailure cursor
        (.unclosed (.unterminatedString .single) (cursor.spanOf 1) cursor)
  | nowdoc {behind : Text} {header : DocString.Header}
      (rest : cursor.rest = '<' :: '<' :: '<' :: behind)
      (opened : DocString.header? behind = some header)
      (form : header.form = .nowdoc) :
      ScanFailure cursor
        (.unclosed (.unterminatedDocString .nowdoc)
          (cursor.spanOf header.length) cursor)
  | label {behind : Text} (rest : cursor.rest = '<' :: '<' :: '<' :: behind)
      (refused : DocString.header? behind = none) :
      ScanFailure cursor
        { cause := .invalidDocString, span := cursor.spanOf 3, line := cursor.line }
  | unknown : ScanFailure cursor (unknownTokenAt cursor)

theorem Text.take_countWhile (test : Char → Bool) (text : Text) :
    text.take (countWhile test text) = text.takeWhile test :=
  (List.prefix_iff_eq_take.mp (List.takeWhile_prefix test)).symm

/-- A recogniser that applies gives one of the listed outcomes. -/
def Listed (markup : Bool) (cursor : Cursor) (recognised : Recognised) : Prop :=
  ∀ result, recognised = some result →
    match result with
    | .ok scanned => ScanSuccess markup cursor scanned
    | .error error => ScanFailure cursor error

theorem Listed.orElse {markup : Bool} {cursor : Cursor} {first second : Recognised}
    (left : Listed markup cursor first) (right : Listed markup cursor second) :
    Listed markup cursor (first <|> second) := by
  cases first with
  | none => simpa using right
  | some result => simpa using left

theorem layoutAt_listed (markup : Bool) (cursor : Cursor) :
    Listed markup cursor (layoutAt cursor) := by
  intro result applied
  unfold layoutAt at applied
  split at applied
  · rename_i rest
    cases applied
    exact .layout 1 Nat.one_pos (by simp [rest, isLayout])
  · split at applied
    · cases applied
    · rename_i count blanks
      cases applied
      refine .layout (count + 1) (Nat.succ_pos count) ?_
      have taken : cursor.rest.take (count + 1) = cursor.rest.takeWhile isBlank := by
        rw [← Text.take_countWhile, blanks]
      have blank := List.all_takeWhile (l := cursor.rest) (p := isBlank)
      rw [taken, List.all_eq_true]
      intro character member
      simp [isLayout, List.all_eq_true.mp blank character member]

theorem marker?_kind {text : Text} {kind : TokenKind} {count : Nat}
    (found : marker? text = some (kind, count)) :
    kind = .unsafeExpr ∨ kind = .fixmeExpr := by
  unfold marker? at found
  split at found
  · obtain ⟨length, _, same⟩ := Option.map_eq_some_iff.mp found
    cases same
    exact .inl rfl
  · obtain ⟨length, _, same⟩ := Option.map_eq_some_iff.mp found
    cases same
    exact .inr rfl
  · cases found

theorem markerAt_listed (markup : Bool) (cursor : Cursor) :
    Listed markup cursor (markerAt cursor) := by
  intro result applied
  unfold markerAt at applied
  split at applied
  · cases applied
  · rename_i kind count found
    have positive := marker?_positive found
    have marked := marker?_kind found
    simp only at applied
    split at applied
    · obtain ⟨behind, rest⟩ : ∃ behind, cursor.rest = '/' :: '*' :: behind := by
        unfold marker? at found
        split at found
        · simp at found
        · exact ⟨_, by assumption⟩
        · cases found
      unfold blockComment at applied
      split at applied
      · rename_i more _
        cases applied
        exact .marker .fixmeExpr count positive marked .block (0 + more + 2) (by omega)
      · cases applied
        exact .comment rest
    · cases applied
      exact .marker kind count positive marked .line _ (Nat.succ_pos _)

theorem commentAt_listed (markup : Bool) (cursor : Cursor) :
    Listed markup cursor (commentAt cursor) := by
  intro result applied
  simp only [commentAt] at applied
  split at applied
  · rename_i behind rest
    unfold blockComment at applied
    split at applied
    · rename_i count _
      cases applied
      exact .comment .block (2 + count + 2) (by omega)
    · cases applied
      exact .comment rest
  · cases applied
    exact .comment .line _ (Nat.succ_pos _)
  · cases applied
    exact .comment .line _ (Nat.succ_pos _)
  · cases applied

theorem quotedAt_listed (markup : Bool) (cursor : Cursor) :
    Listed markup cursor (quotedAt cursor) := by
  intro result applied
  unfold quotedAt at applied
  split at applied
  · rename_i behind rest
    cases applied
    exact .literal .doubleQuoted 1 Nat.one_pos ⟨behind, rest⟩
  · rename_i behind rest
    split at applied
    · cases applied
      exact .quoted rest
    · rename_i value count _
      cases applied
      exact .lexeme .quotedString (1 + count) (by omega) (some value)
  · cases applied

theorem docStringAt_listed (markup : Bool) (cursor : Cursor) :
    Listed markup cursor (docStringAt cursor) := by
  intro result applied
  unfold docStringAt at applied
  split at applied
  · rename_i behind rest
    split at applied
    · rename_i refused
      cases applied
      exact .label rest refused
    · rename_i header opened
      have positive := header.length_pos
      simp only at applied
      split at applied
      · rename_i form
        cases applied
        refine .literal (.heredoc header.label true)
          (header.length + header.lineBreak) (by omega)
          ⟨behind, header.lineBreak, rest, ?_⟩
        rw [opened, ← form]
      · rename_i form
        split at applied
        · cases applied
          exact .nowdoc rest opened form
        · rename_i value _
          cases applied
          rw [Cursor.advance_advance]
          exact .lexeme .nowdoc _ (by omega) (some value)
  · cases applied

theorem tokenAt_listed (markup : Bool) (cursor : Cursor)
    {matched : Option (TokenKind × Nat)}
    (positive : ∀ {kind count}, matched = some (kind, count) → 0 < count) :
    Listed markup cursor (tokenAt cursor matched) := by
  intro result applied
  obtain ⟨⟨kind, count⟩, found, same⟩ := Option.map_eq_some_iff.mp applied
  subst same
  exact .lexeme kind count (positive found) none

theorem elementAt_listed (markup : Bool) (cursor : Cursor) :
    Listed markup cursor (elementAt markup cursor) := by
  intro result applied
  unfold elementAt at applied
  split at applied
  · obtain ⟨count, found, same⟩ := Option.map_eq_some_iff.mp applied
    subst same
    exact .element count (markupName?_positive found) (by assumption)
  · cases applied

theorem recognise_listed (markup : Bool) (cursor : Cursor) :
    Listed markup cursor (recognise markup cursor) :=
  (layoutAt_listed markup cursor).orElse <| (markerAt_listed markup cursor).orElse <|
    (commentAt_listed markup cursor).orElse <| (quotedAt_listed markup cursor).orElse <|
    (docStringAt_listed markup cursor).orElse <|
    (tokenAt_listed markup cursor number?_positive).orElse <|
    (tokenAt_listed markup cursor word?_positive).orElse <|
    (tokenAt_listed markup cursor dollar?_positive).orElse <|
    (elementAt_listed markup cursor).orElse
    (tokenAt_listed markup cursor punctuation?_positive)

theorem scan_success {markup : Bool} {cursor : Cursor} {scanned : Scanned}
    (success : scan markup cursor = .ok scanned) : ScanSuccess markup cursor scanned := by
  unfold scan at success
  cases recognised : recognise markup cursor with
  | none =>
      rw [recognised] at success
      cases success
  | some result =>
      rw [recognised] at success
      change result = .ok scanned at success
      subst success
      exact recognise_listed markup cursor _ recognised

theorem scan_failure {markup : Bool} {cursor : Cursor} {error : LexicalError}
    (failure : scan markup cursor = .error error) : ScanFailure cursor error := by
  unfold scan at failure
  cases recognised : recognise markup cursor with
  | none =>
      rw [recognised] at failure
      cases failure
      exact .unknown
  | some result =>
      rw [recognised] at failure
      change result = .error error at failure
      subst failure
      exact recognise_listed markup cursor _ recognised

theorem ScanSuccess.markup_of_element {markup : Bool} {cursor : Cursor} {scanned : Scanned}
    {name : Lexeme} (success : ScanSuccess markup cursor scanned)
    (found : scanned.found = .element name) : markup = true := by
  cases success <;> cases found
  assumption

theorem ScanSuccess.name_kind {markup : Bool} {cursor : Cursor} {scanned : Scanned}
    {name : Lexeme} (success : ScanSuccess markup cursor scanned)
    (found : scanned.found = .element name) : name.kind = .xhpName := by
  cases success <;> cases found
  rfl

theorem ScanSuccess.literal_eq {markup : Bool} {cursor : Cursor} {scanned : Scanned}
    {literal : StringLiteral} (success : ScanSuccess markup cursor scanned)
    (found : scanned.found = .literal literal) :
    literal = { start := cursor, form := literal.form, value := [] } ∧
      scanned.comment = none := by
  cases success <;> cases found
  exact ⟨rfl, rfl⟩

theorem ScanSuccess.literal_opens {markup : Bool} {cursor : Cursor} {scanned : Scanned}
    {literal : StringLiteral} (success : ScanSuccess markup cursor scanned)
    (found : scanned.found = .literal literal) :
    literal.form.OpensAt cursor.rest := by
  cases success <;> cases found
  assumption

end HackLexer
