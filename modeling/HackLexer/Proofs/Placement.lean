import HackLexer.Proofs.ScanOutcomes

/-!
# Placement of lexemes, literals and errors

What is read lies between places of the text: lexemes and comments end before
the cursor, open literals start before it, and an error blames a part of the
text.  This holds of all that a scan or the reading of a literal gives.
-/

namespace HackLexer

/-- A lexeme of a text that is not empty and ends before a cursor. -/
structure Lexeme.PlacedIn (text : Text) (limit : Cursor) (lexeme : Lexeme) :
    Prop where
  start : lexeme.start.IsPlaceOf text
  stop : lexeme.start.Reaches lexeme.stop
  nonempty : lexeme.start.offset < lexeme.stop.offset
  before : lexeme.stop.Reaches limit

/-- A token that stands for such a lexeme. -/
def Token.PlacedIn (text : Text) (limit : Cursor) (token : Token) : Prop :=
  ∃ lexeme : Lexeme, lexeme.PlacedIn text limit ∧ token = lexeme.token

/-- A comment between places of a text that ends before a cursor. -/
def Comment.PlacedIn (text : Text) (limit : Cursor) (comment : Comment) : Prop :=
  ∃ start stop : Cursor, start.IsPlaceOf text ∧ start.Reaches stop ∧
    stop.Reaches limit ∧ comment.span = start.spanTo stop

/-- A literal of a text that has been opened before a cursor. -/
structure StringLiteral.PlacedIn (text : Text) (limit : Cursor)
    (literal : StringLiteral) : Prop where
  start : literal.start.IsPlaceOf text
  before : literal.start.Reaches limit
  nonempty : literal.start.offset < limit.offset

/-- An error that blames a part of the text.  Its line is the line of that
part if nothing behind the part was looked at, and otherwise the last one. -/
def LexicalError.PlacedIn (text : Text) (error : LexicalError) : Prop :=
  ∃ start stop : Cursor, start.IsPlaceOf text ∧ start.Reaches stop ∧
    error.span = start.spanTo stop ∧
    error.line =
      match error.cause with
      | .unknownToken => start.line
      | .invalidDocString => start.line
      | _ => Text.lineFeeds text

theorem Lexeme.PlacedIn.mono {text : Text} {limit further : Cursor}
    {lexeme : Lexeme} (placed : lexeme.PlacedIn text limit)
    (later : limit.Reaches further) : lexeme.PlacedIn text further :=
  { placed with before := placed.before.trans later }

theorem Token.PlacedIn.mono {text : Text} {limit further : Cursor} {token : Token}
    (placed : token.PlacedIn text limit) (later : limit.Reaches further) :
    token.PlacedIn text further := by
  obtain ⟨lexeme, lexemePlaced, same⟩ := placed
  exact ⟨lexeme, lexemePlaced.mono later, same⟩

theorem Lexeme.PlacedIn.token {text : Text} {limit : Cursor} {lexeme : Lexeme}
    (placed : lexeme.PlacedIn text limit) : lexeme.token.PlacedIn text limit :=
  ⟨lexeme, placed, rfl⟩

theorem Comment.PlacedIn.mono {text : Text} {limit further : Cursor}
    {comment : Comment} (placed : comment.PlacedIn text limit)
    (later : limit.Reaches further) : comment.PlacedIn text further := by
  obtain ⟨start, stop, place, reaches, before, same⟩ := placed
  exact ⟨start, stop, place, reaches, before.trans later, same⟩

theorem StringLiteral.PlacedIn.mono {text : Text} {limit further : Cursor}
    {literal : StringLiteral} (placed : literal.PlacedIn text limit)
    (later : limit.Reaches further) : literal.PlacedIn text further :=
  { start := placed.start
    before := placed.before.trans later
    nonempty := Nat.lt_of_lt_of_le placed.nonempty later.offset_le }

theorem Token.PlacedIn.span?_eq {source : Source} {limit : Cursor} {token : Token}
    (placed : token.PlacedIn source.content limit) :
    source.span? token.span.start token.span.stop = some token.span := by
  obtain ⟨lexeme, place, rfl⟩ := placed
  have cut := place.start.span?_eq place.stop
  have stop : lexeme.token.span.stop = lexeme.stop.offset := place.stop.stop_spanTo
  rw [stop]
  exact cut

theorem Comment.PlacedIn.span?_eq {source : Source} {limit : Cursor}
    {comment : Comment} (placed : comment.PlacedIn source.content limit) :
    source.span? comment.span.start comment.span.stop = some comment.span := by
  obtain ⟨start, stop, place, reaches, _, same⟩ := placed
  have cut := place.span?_eq reaches
  rw [same, reaches.stop_spanTo]
  exact cut

theorem LexicalError.PlacedIn.span?_eq {source : Source} {error : LexicalError}
    (placed : error.PlacedIn source.content) :
    source.span? error.span.start error.span.stop = some error.span := by
  obtain ⟨start, stop, place, reaches, same, _⟩ := placed
  have cut := place.span?_eq reaches
  rw [same, reaches.stop_spanTo]
  exact cut

theorem Lexeme.PlacedIn.join {text : Text} {limit further : Cursor}
    {first joined : Lexeme} (placed : first.PlacedIn text limit)
    (start : joined.start = first.start) (later : limit.Reaches joined.stop)
    (before : joined.stop.Reaches further) : joined.PlacedIn text further where
  start := by
    rw [start]
    exact placed.start
  stop := by
    rw [start]
    exact (placed.stop.trans placed.before).trans later
  nonempty := by
    have inside := placed.nonempty
    have toLimit := placed.before.offset_le
    have toEnd := later.offset_le
    rw [start]
    omega
  before := before

namespace ScanSuccess

theorem reaches {markup : Bool} {cursor : Cursor} {scanned : Scanned}
    (success : ScanSuccess markup cursor scanned) :
    cursor.Reaches scanned.after := by
  cases success with
  | layout count => exact .advance cursor count
  | comment kind count => exact .advance cursor count
  | lexeme kind count => exact .advance cursor count
  | marker kind count positive marked form more =>
      exact (Cursor.Reaches.advance cursor count).thenAdvance more
  | literal form count => exact .advance cursor count
  | element count => exact .advance cursor count

theorem comment_placed {markup : Bool} {text : Text} {cursor : Cursor}
    {scanned : Scanned} {comment : Comment}
    (success : ScanSuccess markup cursor scanned) (place : cursor.IsPlaceOf text)
    (passed : scanned.comment = some comment) :
    comment.PlacedIn text scanned.after := by
  cases success with
  | layout => cases passed
  | comment kind count =>
      cases passed
      exact ⟨cursor, cursor.advance count, place, .advance cursor count,
        .refl _, rfl⟩
  | lexeme => cases passed
  | marker kind count positive marked form more =>
      cases passed
      exact ⟨cursor.advance count, (cursor.advance count).advance more,
        Cursor.Reaches.thenAdvance place count, .advance _ more, .refl _, rfl⟩
  | literal => cases passed
  | element => cases passed

theorem lexeme_placed {markup : Bool} {text : Text} {cursor : Cursor}
    {scanned : Scanned} {lexeme : Lexeme}
    (success : ScanSuccess markup cursor scanned) (place : cursor.IsPlaceOf text)
    (remaining : cursor.rest ≠ []) (found : scanned.found = .lexeme lexeme) :
    lexeme.PlacedIn text scanned.after := by
  cases success with
  | layout => cases found
  | comment => cases found
  | lexeme kind count positive =>
      cases found
      exact ⟨place, .advance cursor count,
        Cursor.offset_lt_advance remaining positive, .refl _⟩
  | marker kind count positive marked form more =>
      cases found
      exact ⟨place, .advance cursor count,
        Cursor.offset_lt_advance remaining positive, .advance _ more⟩
  | literal => cases found
  | element => cases found

theorem lexeme_start {markup : Bool} {cursor : Cursor} {scanned : Scanned}
    {lexeme : Lexeme} (success : ScanSuccess markup cursor scanned)
    (found : scanned.found = .lexeme lexeme) : lexeme.start = cursor := by
  cases success <;> cases found <;> rfl

theorem literal_start {markup : Bool} {cursor : Cursor} {scanned : Scanned}
    {literal : StringLiteral} (success : ScanSuccess markup cursor scanned)
    (found : scanned.found = .literal literal) : literal.start = cursor := by
  rw [(success.literal_eq found).1]

theorem name_placed {markup : Bool} {text : Text} {cursor : Cursor}
    {scanned : Scanned} {name : Lexeme}
    (success : ScanSuccess markup cursor scanned) (place : cursor.IsPlaceOf text)
    (remaining : cursor.rest ≠ []) (found : scanned.found = .element name) :
    name.PlacedIn text scanned.after := by
  cases success with
  | element count positive =>
      cases found
      exact ⟨place, .advance cursor count,
        Cursor.offset_lt_advance remaining positive, .refl _⟩
  | _ => cases found

theorem literal_placed {markup : Bool} {text : Text} {cursor : Cursor}
    {scanned : Scanned} {literal : StringLiteral}
    (success : ScanSuccess markup cursor scanned) (place : cursor.IsPlaceOf text)
    (remaining : cursor.rest ≠ []) (found : scanned.found = .literal literal) :
    literal.PlacedIn text scanned.after := by
  cases success with
  | literal form count positive =>
      cases found
      exact ⟨place, .advance cursor count,
        Cursor.offset_lt_advance remaining positive⟩
  | _ => cases found

end ScanSuccess

namespace LexicalError

theorem unclosed_placed {text : Text} {cause : Cause} {start stop cursor : Cursor}
    (place : start.IsPlaceOf text) (reaches : start.Reaches stop)
    (current : cursor.IsPlaceOf text)
    (known : cause ≠ .unknownToken) (labelled : cause ≠ .invalidDocString) :
    (unclosed cause (start.spanTo stop) cursor).PlacedIn text := by
  refine ⟨start, stop, place, reaches, rfl, ?_⟩
  have line := current.line_toEnd
  cases cause with
  | unknownToken => exact absurd rfl known
  | invalidDocString => exact absurd rfl labelled
  | unterminatedComment => exact line
  | unterminatedString => exact line
  | unterminatedDocString => exact line

end LexicalError

theorem ScanFailure.placed {text : Text} {cursor : Cursor} {error : LexicalError}
    (failure : ScanFailure cursor error) (place : cursor.IsPlaceOf text) :
    error.PlacedIn text := by
  cases failure with
  | comment =>
      exact LexicalError.unclosed_placed place (.advance cursor 2) place
        (by decide) (by decide)
  | quoted =>
      exact LexicalError.unclosed_placed place (.advance cursor 1) place
        (by decide) (by decide)
  | nowdoc =>
      exact LexicalError.unclosed_placed place (.advance cursor _) place
        (by decide) (by decide)
  | label => exact ⟨cursor, cursor.advance 3, place, .advance cursor 3, rfl, rfl⟩
  | unknown => exact ⟨cursor, cursor.advance 1, place, .advance cursor 1, rfl, rfl⟩

theorem StringLiteral.unclosed_placed {text : Text} {literal : StringLiteral}
    {cursor : Cursor} (place : literal.start.IsPlaceOf text)
    (current : cursor.IsPlaceOf text) : (literal.unclosed cursor).PlacedIn text := by
  unfold StringLiteral.unclosed
  split
  · exact LexicalError.unclosed_placed place (.advance _ _) current
      (by decide) (by decide)
  · exact LexicalError.unclosed_placed place (.advance _ _) current
      (by decide) (by decide)

namespace Interpolation

theorem literal_of_within {interpolation after : Interpolation} {lexeme : Lexeme}
    (receipt : interpolation.receive lexeme = .within after) :
    after.literal = interpolation.literal.append lexeme.raw := by
  simp only [receive] at receipt
  split at receipt <;> cases receipt <;> rfl

theorem literal_of_ended {interpolation : Interpolation} {lexeme : Lexeme}
    {literal : StringLiteral} (receipt : interpolation.receive lexeme = .ended literal) :
    literal = interpolation.literal.append lexeme.raw := by
  simp only [receive] at receipt
  split at receipt <;> cases receipt
  rfl

end Interpolation

theorem StringLiteral.read_closed_places {literal : StringLiteral}
    {cursor : Cursor} {lexeme : Lexeme}
    (reading : literal.read cursor = .closed lexeme) :
    lexeme.kind = literal.kind ∧ lexeme.start = literal.start ∧
      cursor.Reaches lexeme.stop := by
  simp only [read] at reading
  split at reading <;> cases reading
  exact ⟨rfl, rfl, .advance cursor _⟩

theorem StringLiteral.read_interpolation_places {literal suspended : StringLiteral}
    {cursor after : Cursor}
    (reading : literal.read cursor = .interpolation suspended after) :
    suspended.start = literal.start ∧ cursor.Reaches after := by
  simp only [read] at reading
  split at reading <;> cases reading
  exact ⟨rfl, .advance cursor _⟩

theorem StringLiteral.read_unclosed {literal : StringLiteral} {cursor : Cursor}
    {error : LexicalError} (reading : literal.read cursor = .unclosed error) :
    error = literal.unclosed cursor := by
  simp only [read] at reading
  split at reading <;> cases reading
  rfl

end HackLexer
