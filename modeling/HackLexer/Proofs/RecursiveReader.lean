import HackLexer.Proofs.LexerRuns

/-!
# A recursive reader of literals

The lexer keeps interrupted literals on a stack.  The reader of this module has
no stack: a literal reads its interpolations by a call, and an interpolation
reads the literals inside it by a call.  Both give back what they have read, so
nothing of what is open around a literal is at hand while it is read.
-/

namespace HackLexer

/-- What has been read from a cursor on: some text, the place behind it and all
comments passed over so far. -/
structure Piece (start : Cursor) where
  text : Text
  after : Cursor
  comments : Array Comment
  onward : after.rest.length ≤ start.rest.length

def Piece.prepend {start middle : Cursor} (piece : Piece middle) (text : Text)
    (onward : middle.rest.length ≤ start.rest.length) : Piece start where
  text := text ++ piece.text
  after := piece.after
  comments := piece.comments
  onward := Nat.le_trans piece.onward onward

/-- The number of open braces behind a token, or nothing if the token closes a
brace that is not open. -/
def depthBehind? (depth : Nat) : TokenKind → Option Nat
  | .leftBrace => some (depth + 1)
  | .rightBrace =>
      match depth with
      | 0 => none
      | depth + 1 => some depth
  | _ => some depth

/-- A literal of which nothing has been read. -/
def opening (start : Cursor) (form : LiteralForm) : StringLiteral :=
  { start, form, value := [] }

theorem rest_advance_body_lt (literal : StringLiteral) {cursor : Cursor}
    (stopped : (literal.body cursor.rest).ending ≠ .endOfText) :
    (cursor.advance (literal.body cursor.rest).length).rest.length <
      cursor.rest.length := by
  have progress := literal.body_progress cursor.rest stopped
  exact Cursor.length_rest_advance_lt progress.1 progress.2

mutual

/-- Reads the body of a literal that starts at a place and has the given form.
The text of the piece is the value of the body. -/
def readLiteral (start : Cursor) (form : LiteralForm) (cursor : Cursor)
    (comments : Array Comment) : Except LexicalError (Piece cursor) :=
  let literal := opening start form
  let body := literal.body cursor.rest
  match ending : body.ending with
  | .closed =>
      .ok
        { text := body.value
          after := cursor.advance body.length
          comments
          onward := Nat.le_of_lt (rest_advance_body_lt literal (by simp [body, ending])) }
  | .endOfText => .error (literal.unclosed cursor)
  | .interpolation =>
      match readRegion start literal.interrupted 0 (cursor.advance body.length) comments with
      | .error error => .error error
      | .ok region =>
          match readLiteral start literal.interrupted region.after region.comments with
          | .error error => .error error
          | .ok tail =>
              .ok (tail.prepend (body.value ++ '\x7b' :: region.text)
                (Nat.le_trans region.onward (Nat.le_of_lt
                  (rest_advance_body_lt literal (by simp [body, ending])))))
termination_by cursor.rest.length
decreasing_by
  · exact rest_advance_body_lt literal (by simp [body, ending])
  · apply Nat.lt_of_le_of_lt region.onward
    exact rest_advance_body_lt literal (by simp [body, ending])

/-- Reads an interpolation of such a literal up to the brace that closes it.
The text of the piece is made of the tokens. -/
def readRegion (start : Cursor) (form : LiteralForm) (depth : Nat) (cursor : Cursor)
    (comments : Array Comment) : Except LexicalError (Piece cursor) :=
  match remaining : cursor.rest with
  | [] => .error ((opening start form).unclosed cursor)
  | _ :: _ =>
      match success : scan false cursor with
      | .error error => .error error
      | .ok scanned =>
          have shorter : scanned.after.rest.length < cursor.rest.length :=
            Lexer.scan_shorter (by simp [remaining]) success
          let comments := scanned.commentsBehind comments
          match found : scanned.found with
          | .layout =>
              (readRegion start form depth scanned.after comments).map
                (·.prepend [] (Nat.le_of_lt shorter))
          | .lexeme lexeme =>
              match depthBehind? depth lexeme.kind with
              | none =>
                  .ok
                    { text := lexeme.raw
                      after := scanned.after
                      comments
                      onward := Nat.le_of_lt shorter }
              | some depth =>
                  (readRegion start form depth scanned.after comments).map
                    (·.prepend lexeme.raw (Nat.le_of_lt shorter))
          | .literal inner =>
              match readLiteral inner.start inner.form scanned.after comments with
              | .error error => .error error
              | .ok read =>
                  (readRegion start form depth read.after read.comments).map
                    (·.prepend (inner.start.spanTo read.after).text
                      (Nat.le_trans read.onward (Nat.le_of_lt shorter)))
          | .element _ =>
              absurd ((scan_success success).markup_of_element found) Bool.false_ne_true
termination_by cursor.rest.length
decreasing_by
  · exact shorter
  · exact shorter
  · exact shorter
  · exact Nat.lt_of_le_of_lt read.onward shorter

end

/-- The ways in which a call of the reader for a literal goes. -/
inductive LiteralCall (start : Cursor) (form : LiteralForm) (cursor : Cursor)
    (comments : Array Comment) (body : Body) :
    Except LexicalError (Piece cursor) → Prop where
  | closed (ending : body.ending = .closed)
      (onward : (cursor.advance body.length).rest.length ≤ cursor.rest.length) :
      LiteralCall start form cursor comments body
        (.ok { text := body.value, after := cursor.advance body.length, comments, onward })
  | endOfText (ending : body.ending = .endOfText) :
      LiteralCall start form cursor comments body
        (.error ((opening start form).unclosed cursor))
  | regionFailed {error : LexicalError} (ending : body.ending = .interpolation)
      (inside : readRegion start (opening start form).interrupted 0
        (cursor.advance body.length) comments = .error error) :
      LiteralCall start form cursor comments body (.error error)
  | tailFailed {error : LexicalError} {region : Piece (cursor.advance body.length)}
      (ending : body.ending = .interpolation)
      (inside : readRegion start (opening start form).interrupted 0
        (cursor.advance body.length) comments = .ok region)
      (behind : readLiteral start (opening start form).interrupted
        region.after region.comments = .error error) :
      LiteralCall start form cursor comments body (.error error)
  | resumed {region : Piece (cursor.advance body.length)} {tail : Piece region.after}
      (ending : body.ending = .interpolation)
      (inside : readRegion start (opening start form).interrupted 0
        (cursor.advance body.length) comments = .ok region)
      (behind : readLiteral start (opening start form).interrupted
        region.after region.comments = .ok tail)
      (onward : region.after.rest.length ≤ cursor.rest.length) :
      LiteralCall start form cursor comments body
        (.ok (tail.prepend (body.value ++ '\x7b' :: region.text) onward))

theorem readLiteral_call (start : Cursor) (form : LiteralForm) (cursor : Cursor)
    (comments : Array Comment) :
    LiteralCall start form cursor comments
      ((opening start form).body cursor.rest)
      (readLiteral start form cursor comments) := by
  rw [readLiteral]
  split
  · rename_i ending
    exact .closed ending _
  · rename_i ending
    exact .endOfText ending
  · rename_i ending
    split
    · rename_i error inside
      exact .regionFailed ending inside
    · rename_i region inside
      split
      · rename_i error behind
        exact .tailFailed ending inside behind
      · rename_i tail behind
        exact .resumed ending inside behind _

/-- The ways in which a call of the reader for an interpolation goes. -/
inductive RegionCall (start : Cursor) (form : LiteralForm) (depth : Nat)
    (cursor : Cursor) (comments : Array Comment) :
    Except LexicalError (Piece cursor) → Prop where
  | endOfText (finished : cursor.rest = []) :
      RegionCall start form depth cursor comments
        (.error ((opening start form).unclosed cursor))
  | scanFailed {error : LexicalError} (remaining : cursor.rest ≠ [])
      (failure : scan false cursor = .error error) :
      RegionCall start form depth cursor comments (.error error)
  | layout {scanned : Scanned} (remaining : cursor.rest ≠ [])
      (success : scan false cursor = .ok scanned) (found : scanned.found = .layout)
      (onward : scanned.after.rest.length ≤ cursor.rest.length) :
      RegionCall start form depth cursor comments
        ((readRegion start form depth scanned.after
          (scanned.commentsBehind comments)).map (·.prepend [] onward))
  | last {scanned : Scanned} {lexeme : Lexeme} (remaining : cursor.rest ≠ [])
      (success : scan false cursor = .ok scanned)
      (found : scanned.found = .lexeme lexeme)
      (closes : depthBehind? depth lexeme.kind = none)
      (onward : scanned.after.rest.length ≤ cursor.rest.length) :
      RegionCall start form depth cursor comments
        (.ok
          { text := lexeme.raw
            after := scanned.after
            comments := scanned.commentsBehind comments
            onward })
  | lexeme {scanned : Scanned} {lexeme : Lexeme} {further : Nat}
      (remaining : cursor.rest ≠ []) (success : scan false cursor = .ok scanned)
      (found : scanned.found = .lexeme lexeme)
      (goes : depthBehind? depth lexeme.kind = some further)
      (onward : scanned.after.rest.length ≤ cursor.rest.length) :
      RegionCall start form depth cursor comments
        ((readRegion start form further scanned.after
          (scanned.commentsBehind comments)).map (·.prepend lexeme.raw onward))
  | literalFailed {scanned : Scanned} {inner : StringLiteral} {error : LexicalError}
      (remaining : cursor.rest ≠ []) (success : scan false cursor = .ok scanned)
      (found : scanned.found = .literal inner)
      (inside : readLiteral inner.start inner.form scanned.after
        (scanned.commentsBehind comments) = .error error) :
      RegionCall start form depth cursor comments (.error error)
  | literal {scanned : Scanned} {inner : StringLiteral} {read : Piece scanned.after}
      (remaining : cursor.rest ≠ []) (success : scan false cursor = .ok scanned)
      (found : scanned.found = .literal inner)
      (inside : readLiteral inner.start inner.form scanned.after
        (scanned.commentsBehind comments) = .ok read)
      (onward : read.after.rest.length ≤ cursor.rest.length) :
      RegionCall start form depth cursor comments
        ((readRegion start form depth read.after read.comments).map
          (·.prepend (inner.start.spanTo read.after).text onward))

theorem readRegion_call (start : Cursor) (form : LiteralForm) (depth : Nat)
    (cursor : Cursor) (comments : Array Comment) :
    RegionCall start form depth cursor comments
      (readRegion start form depth cursor comments) := by
  rw [readRegion]
  split
  · rename_i finished
    exact .endOfText finished
  · rename_i first behind rest
    have remaining : cursor.rest ≠ [] := by simp [rest]
    split
    · rename_i error failure
      exact .scanFailed remaining failure
    · rename_i scanned success
      dsimp only
      split
      · rename_i found
        exact .layout remaining success found _
      · rename_i lexeme found
        split
        · rename_i closes
          exact .last remaining success found closes _
        · rename_i further goes
          exact .lexeme remaining success found goes _
      · rename_i inner found
        split
        · rename_i error inside
          exact .literalFailed remaining success found inside
        · rename_i read inside
          exact .literal remaining success found inside _
      · rename_i name found
        exact absurd ((scan_success success).markup_of_element found) Bool.false_ne_true

end HackLexer
