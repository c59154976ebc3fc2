import HackLexer.Proofs.ScansInContext
import HackLexer.Proofs.Strides

/-!
# Literals inside of a context

A literal that is read in a text is read in the same way inside of a context, or
reading it there goes over the end of the text.  If the tail of the context begins
with a line feed, this happens only to literals that the end of the text leaves
open.

`reading_agrees` says this of the recursive reader.
-/

namespace HackLexer

/-- Forms with labels as a header gives them. -/
def LiteralForm.Proper : LiteralForm → Prop
  | .doubleQuoted => True
  | .heredoc label _ => label.Proper

theorem LiteralForm.Proper.interrupted {form : LiteralForm} (proper : form.Proper)
    (start : Cursor) : (opening start form).interrupted.Proper := by
  cases form with
  | doubleQuoted => trivial
  | heredoc label atLineStart => exact proper

theorem ScanSuccess.lexeme_reaches {markup : Bool} {cursor : Cursor} {scanned : Scanned}
    {lexeme : Lexeme} (success : ScanSuccess markup cursor scanned)
    (found : scanned.found = .lexeme lexeme) : lexeme.start.Reaches lexeme.stop := by
  cases success with
  | lexeme kind count =>
      cases found
      exact .advance _ _
  | marker kind count =>
      cases found
      exact .advance _ _
  | _ => cases found

theorem scan_literal_proper {markup : Bool} {cursor : Cursor} {scanned : Scanned}
    {literal : StringLiteral} (success : scan markup cursor = .ok scanned)
    (found : scanned.found = .literal literal) : literal.form.Proper := by
  have opens := (scan_success success).literal_opens found
  cases form : literal.form with
  | doubleQuoted => trivial
  | heredoc label atLineStart =>
      rw [form] at opens
      obtain ⟨behind, lineBreak, _, header⟩ := opens
      exact (DocString.header?_within header).1

theorem body_opening_append {form : LiteralForm} (proper : form.Proper) (start place : Cursor)
    (text tail : Text) :
    ((opening start form).body text).Continues text tail.Stops
      ((opening place form).body (text ++ tail)) := by
  cases form with
  | heredoc label atLineStart => exact DocString.heredocBody_append proper atLineStart text tail
  | doubleQuoted =>
      rcases DoubleQuoted.body_append text tail with same | ⟨beyond, ended⟩
      · exact .inl same
      · exact .inr ⟨beyond, fun _ => ended trivial⟩

theorem body_opening_within (form : LiteralForm) (start : Cursor) (text : Text) :
    ((opening start form).body text).length ≤ text.length := by
  cases form with
  | doubleQuoted => exact DoubleQuoted.body_within text
  | heredoc label atLineStart => exact DocString.heredocBody_within label atLineStart text

/-- The counterparts of comments, behind comments that were passed earlier. -/
def commentsInside (context : Context) (earlier comments : Array Comment) : Array Comment :=
  earlier ++ comments.map (Comment.shift context.bytes)

theorem commentsBehind_inside (context : Context) (earlier comments : Array Comment)
    (scanned : Scanned) :
    (scanned.inside context).commentsBehind (commentsInside context earlier comments) =
      commentsInside context earlier (scanned.commentsBehind comments) := by
  unfold Scanned.commentsBehind commentsInside
  cases passed : scanned.comment with
  | none => simp only [Scanned.inside, passed, Option.map_none]
  | some comment =>
      simp only [Scanned.inside, passed, Option.map_some, Array.map_push, Array.append_push]

/-- What the reader gives for an interpolation behind the result of a scan. -/
def readBehind (start : Cursor) (form : LiteralForm) (depth : Nat) {cursor : Cursor}
    (comments : Array Comment) (scanned : Scanned)
    (onward : scanned.after.rest.length ≤ cursor.rest.length) :
    Except LexicalError (Piece cursor) :=
  match scanned.found with
  | .lexeme lexeme =>
      match depthBehind? depth lexeme.kind with
      | none => .ok { text := lexeme.raw, after := scanned.after, comments, onward }
      | some further =>
          (readRegion start form further scanned.after comments).map
            (·.prepend lexeme.raw onward)
  | .literal inner =>
      (readLiteral inner.start inner.form scanned.after comments).bind fun read =>
        (readRegion start form depth read.after read.comments).map
          (·.prepend (inner.start.spanTo read.after).text (Nat.le_trans read.onward onward))
  | _ => (readRegion start form depth scanned.after comments).map (·.prepend [] onward)

theorem readRegion_of_scan {start cursor : Cursor} {form : LiteralForm} {depth : Nat}
    {comments : Array Comment} {scanned : Scanned} (remaining : cursor.rest ≠ [])
    (success : scan false cursor = .ok scanned)
    (onward : scanned.after.rest.length ≤ cursor.rest.length) :
    readRegion start form depth cursor comments =
      readBehind start form depth (scanned.commentsBehind comments) scanned onward := by
  have call := readRegion_call start form depth cursor comments
  generalize readRegion start form depth cursor comments = outcome at call
  unfold readBehind
  cases call with
  | endOfText finished => exact absurd finished remaining
  | scanFailed _ failure => cases success.symm.trans failure
  | layout _ same found =>
      cases success.symm.trans same
      rw [found]
  | last _ same found closes =>
      cases success.symm.trans same
      simp only [found, closes]
  | lexeme _ same found goes =>
      cases success.symm.trans same
      simp only [found, goes]
  | literalFailed _ same found inside =>
      cases success.symm.trans same
      simp only [found, inside]
      rfl
  | literal _ same found inside =>
      cases success.symm.trans same
      simp only [found, inside]
      rfl

theorem readRegion_of_failure {start cursor : Cursor} {form : LiteralForm} {depth : Nat}
    {comments : Array Comment} {error : LexicalError} (remaining : cursor.rest ≠ [])
    (failure : scan false cursor = .error error) :
    readRegion start form depth cursor comments = .error error := by
  have call := readRegion_call start form depth cursor comments
  generalize readRegion start form depth cursor comments = outcome at call
  cases call with
  | endOfText finished => exact absurd finished remaining
  | scanFailed _ same =>
      cases failure.symm.trans same
      rfl
  | layout _ success => cases failure.symm.trans success
  | last _ success => cases failure.symm.trans success
  | lexeme _ success => cases failure.symm.trans success
  | literalFailed _ success => cases failure.symm.trans success
  | literal _ success => cases failure.symm.trans success

theorem readRegion_of_finished {start cursor : Cursor} {form : LiteralForm} {depth : Nat}
    {comments : Array Comment} (finished : cursor.rest = []) :
    readRegion start form depth cursor comments =
      .error ((opening start form).unclosed cursor) := by
  have call := readRegion_call start form depth cursor comments
  generalize readRegion start form depth cursor comments = outcome at call
  cases call with
  | endOfText _ => rfl
  | scanFailed remaining _ => exact absurd finished remaining
  | layout remaining _ => exact absurd finished remaining
  | last remaining _ => exact absurd finished remaining
  | lexeme remaining _ => exact absurd finished remaining
  | literalFailed remaining _ => exact absurd finished remaining
  | literal remaining _ => exact absurd finished remaining

/-- What the reader gives for a literal whose body has been read up to its first
interpolation, or to its end. -/
theorem readLiteral_eq {start cursor : Cursor} {form : LiteralForm} {comments : Array Comment}
    {body : Body} (reads : (opening start form).body cursor.rest = body)
    (onward : (cursor.advance body.length).rest.length ≤ cursor.rest.length) :
    readLiteral start form cursor comments =
      match body.ending with
      | .closed =>
          .ok { text := body.value, after := cursor.advance body.length, comments, onward }
      | .endOfText => .error ((opening start form).unclosed cursor)
      | .interpolation =>
          (readRegion start (opening start form).interrupted 0
              (cursor.advance body.length) comments).bind fun region =>
            (readLiteral start (opening start form).interrupted region.after
              region.comments).map
              (·.prepend (body.value ++ '\x7b' :: region.text)
                (Nat.le_trans region.onward onward)) := by
  subst reads
  have call := readLiteral_call start form cursor comments
  generalize readLiteral start form cursor comments = outcome at call
  cases call with
  | closed ending => simp only [ending]
  | endOfText ending => simp only [ending]
  | regionFailed ending inside =>
      simp only [ending, inside]
      rfl
  | tailFailed ending inside behind =>
      simp only [ending, inside, Except.bind, behind]
      rfl
  | resumed ending inside behind =>
      simp only [ending, inside, Except.bind, behind]
      rfl

theorem readRegion_reaches {start cursor : Cursor} {form : LiteralForm} {depth : Nat}
    {comments : Array Comment} {region : Piece cursor}
    (success : readRegion start form depth cursor comments = .ok region) :
    cursor.Reaches region.after := by
  let lexer : Lexer :=
    { Lexer.ofText [] with
      cursor
      interpolations := [{ literal := opening start form, depth }]
      comments }
  have outcome := (Lexer.reads_recursively lexer).2 _ _ rfl rfl rfl
  change lexer.RegionOutcome _ _ (readRegion start form depth cursor comments) at outcome
  rw [success] at outcome
  exact Lexer.MovesOn.reaches outcome

def ReadsAlike (context : Context) (earlier : Array Comment) {cursor place : Cursor} :
    Except LexicalError (Piece cursor) → Except LexicalError (Piece place) → Prop
  | .error error, .error within => within = error.shift context.bytes context.lines
  | .ok piece, .ok within =>
      within.text = piece.text ∧ within.after = piece.after.inside context ∧
        within.comments = commentsInside context earlier piece.comments
  | _, _ => False

def ReadOverruns (context : Context) {place : Cursor} :
    Except LexicalError (Piece place) → Prop
  | .error _ => True
  | .ok piece => context.Passed piece.after

/-- What is read inside of a context is what is read in the text alone, or goes
over the end of the text. -/
def ReadAgrees (context : Context) (earlier : Array Comment) {cursor place : Cursor}
    (alone : Except LexicalError (Piece cursor)) (within : Except LexicalError (Piece place)) :
    Prop :=
  ReadsAlike context earlier alone within ∨
    context.tail ≠ [] ∧ ReadOverruns context within ∧
      (context.tail.Breaks → ∃ error, alone = .error error)

section Agreement

variable {context : Context} {earlier : Array Comment} {cursor place : Cursor}

theorem ReadAgrees.prepend {front behind : Cursor}
    {alone : Except LexicalError (Piece cursor)} {within : Except LexicalError (Piece place)}
    (agrees : ReadAgrees context earlier alone within) (text : Text)
    (onward : cursor.rest.length ≤ front.rest.length)
    (onwardWithin : place.rest.length ≤ behind.rest.length) :
    ReadAgrees context earlier (alone.map (·.prepend text onward))
      (within.map (·.prepend text onwardWithin)) := by
  rcases agrees with alike | ⟨nonempty, overruns, broken⟩
  · left
    match alone, within with
    | .error error, .error failure => exact alike
    | .ok piece, .ok inside =>
        obtain ⟨same, after, comments⟩ := alike
        exact ⟨congrArg (text ++ ·) same, after, comments⟩
  · refine .inr ⟨nonempty, ?_, ?_⟩
    · cases within with
      | error failure => trivial
      | ok inside => exact overruns
    · intro breaks
      obtain ⟨error, failed⟩ := broken breaks
      exact ⟨error, by rw [failed]; rfl⟩

theorem ReadAgrees.bind {front behind : Cursor}
    {alone : Except LexicalError (Piece cursor)} {within : Except LexicalError (Piece place)}
    (agrees : ReadAgrees context earlier alone within)
    {next : Piece cursor → Except LexicalError (Piece front)}
    {nextWithin : Piece place → Except LexicalError (Piece behind)}
    (further : ∀ piece inside, alone = .ok piece →
      ReadsAlike context earlier (.ok piece) (.ok inside) →
      ReadAgrees context earlier (next piece) (nextWithin inside))
    (onward : ∀ inside last, nextWithin inside = .ok last → inside.after.Reaches last.after) :
    ReadAgrees context earlier (alone.bind next) (within.bind nextWithin) := by
  rcases agrees with alike | ⟨nonempty, overruns, broken⟩
  · match alone, within with
    | .error error, .error failure => exact .inl alike
    | .ok piece, .ok inside => exact further piece inside rfl alike
  · refine .inr ⟨nonempty, ?_, ?_⟩
    · cases within with
      | error failure => trivial
      | ok inside =>
          change ReadOverruns context (nextWithin inside)
          cases result : nextWithin inside with
          | error failure => trivial
          | ok last => exact Context.Passed.mono overruns (onward inside last result)
    · intro breaks
      obtain ⟨error, failed⟩ := broken breaks
      exact ⟨error, by rw [failed]; rfl⟩

theorem readAgrees_of_unclosed {error : LexicalError}
    {within : Except LexicalError (Piece place)}
    (alone : context.tail = [] → within = .error (error.shift context.bytes context.lines))
    (beyond : context.tail ≠ [] → ReadOverruns context within) :
    ReadAgrees context earlier (.error error : Except LexicalError (Piece cursor)) within := by
  by_cases nil : context.tail = []
  · left
    rw [alone nil]
    rfl
  · exact .inr ⟨nil, beyond nil, fun _ => ⟨error, rfl⟩⟩

theorem unclosed_opening_inside (alone : context.tail = []) (start : Cursor) (form : LiteralForm)
    (cursor : Cursor) :
    (opening (start.inside context) form).unclosed (cursor.inside context) =
      ((opening start form).unclosed cursor).shift context.bytes context.lines := by
  cases form with
  | doubleQuoted =>
      simp only [StringLiteral.unclosed, opening, Cursor.spanOf_inside (.inr alone),
        LexicalError.unclosed_inside alone]
  | heredoc label atLineStart =>
      simp only [StringLiteral.unclosed, opening, Cursor.spanOf_inside (.inr alone),
        LexicalError.unclosed_inside alone]

theorem readBehind_reaches {start : Cursor} {form : LiteralForm} {depth : Nat}
    {comments : Array Comment} {scanned : Scanned}
    {onward : scanned.after.rest.length ≤ cursor.rest.length} {region : Piece cursor}
    (success : readBehind start form depth comments scanned onward = .ok region) :
    scanned.after.Reaches region.after := by
  have ofRegion {middle : Cursor} {depth : Nat} {comments : Array Comment} {text : Text}
      {later : middle.rest.length ≤ cursor.rest.length}
      (read : (readRegion start form depth middle comments).map (·.prepend text later) =
        .ok region) : middle.Reaches region.after := by
    cases result : readRegion start form depth middle comments with
    | error error =>
        rw [result] at read
        cases read
    | ok inside =>
        rw [result] at read
        cases read
        exact readRegion_reaches result
  unfold readBehind at success
  split at success
  · split at success
    · cases success
      exact .refl _
    · exact ofRegion success
  · rename_i inner _
    cases inside : readLiteral inner.start inner.form scanned.after comments with
    | error error =>
        rw [inside] at success
        cases success
    | ok read =>
        rw [inside] at success
        exact (readLiteral_reaches inside).trans (ofRegion success)
  · exact ofRegion success

theorem readRegion_overruns {start : Cursor} {form : LiteralForm} {depth : Nat}
    {comments : Array Comment}
    (passes : ∀ scanned, scan false place = .ok scanned → context.Passed scanned.after) :
    ReadOverruns context (readRegion start form depth place comments) := by
  by_cases finished : place.rest = []
  · rw [readRegion_of_finished finished]
    trivial
  · cases success : scan false place with
    | error error =>
        rw [readRegion_of_failure finished success]
        trivial
    | ok scanned =>
        have onward := Nat.le_of_lt (Lexer.scan_shorter finished success)
        rw [readRegion_of_scan finished success onward]
        cases read : readBehind start form depth (scanned.commentsBehind comments) scanned
            onward with
        | error error => trivial
        | ok region => exact (passes scanned success).mono (readBehind_reaches read)

theorem map_prepend_reaches {front : Cursor} {outcome : Except LexicalError (Piece cursor)}
    {text : Text} {onward : cursor.rest.length ≤ front.rest.length} {last : Piece front}
    (reaches : ∀ piece, outcome = .ok piece → cursor.Reaches piece.after)
    (success : outcome.map (·.prepend text onward) = .ok last) : cursor.Reaches last.after := by
  cases outcome with
  | error error => cases success
  | ok piece =>
      cases success
      exact reaches piece rfl

theorem readLiteral_overruns {start : Cursor} {form : LiteralForm} {comments : Array Comment}
    {body : Body} (reads : (opening start form).body place.rest = body)
    (passed : body.ending ≠ .endOfText → context.Passed (place.advance body.length)) :
    ReadOverruns context (readLiteral start form place comments) := by
  have onward : (place.advance body.length).rest.length ≤ place.rest.length := by
    rw [Cursor.rest_advance, List.length_drop]
    exact Nat.sub_le _ _
  rw [readLiteral_eq reads onward]
  cases ending : body.ending with
  | closed => exact passed (by rw [ending]; nofun)
  | endOfText => trivial
  | interpolation =>
      have beyond := passed (by rw [ending]; nofun)
      dsimp only
      cases inside : readRegion start (opening start form).interrupted 0
          (place.advance body.length) comments with
      | error error => trivial
      | ok region =>
          change ReadOverruns context (Except.map _ _)
          cases behind : readLiteral start (opening start form).interrupted region.after
              region.comments with
          | error error => trivial
          | ok tail =>
              exact beyond.mono ((readRegion_reaches inside).trans (readLiteral_reaches behind))

/-- An interpolation in which a line comment goes to the end of the text is left
open. -/
theorem readRegion_of_runsOut {start : Cursor} {form : LiteralForm} {depth : Nat}
    {comments : Array Comment} {scanned : Scanned} (remaining : cursor.rest ≠ [])
    (success : scan false cursor = .ok scanned) (runsOut : scanned.RunsOut) :
    ∃ error, readRegion start form depth cursor comments = .error error := by
  obtain ⟨finished, comment, passed, _⟩ := runsOut
  have onward := Nat.le_of_lt (Lexer.scan_shorter remaining success)
  rw [readRegion_of_scan remaining success onward, readBehind]
  rcases (scan_passes success passed).marked with layout | ⟨kind, count, marker, found⟩
  · rw [layout]
    exact ⟨_, by rw [readRegion_of_finished finished]; rfl⟩
  · have goes : depthBehind? depth kind = some depth := by
      rcases marker?_kind marker with rfl | rfl
      · rfl
      · rfl
    simp only [found, Cursor.lexeme, goes]
    exact ⟨_, by rw [readRegion_of_finished finished]; rfl⟩

def LiteralAgrees (context : Context) (cursor : Cursor) : Prop :=
  ∀ (start : Cursor) (form : LiteralForm) (comments earlier : Array Comment) (place : Cursor),
    form.Proper → place = cursor.inside context →
    ReadAgrees context earlier (readLiteral start form cursor comments)
      (readLiteral (start.inside context) form place (commentsInside context earlier comments))

def RegionAgrees (context : Context) (cursor : Cursor) : Prop :=
  ∀ (start : Cursor) (form : LiteralForm) (depth : Nat) (comments earlier : Array Comment)
    (place : Cursor), form.Proper → place = cursor.inside context →
    ReadAgrees context earlier (readRegion start form depth cursor comments)
      (readRegion (start.inside context) form depth place
        (commentsInside context earlier comments))

section Calls

variable
  (regions : ∀ later : Cursor, later.rest.length < cursor.rest.length →
    RegionAgrees context later)
  (literals : ∀ later : Cursor, later.rest.length < cursor.rest.length →
    LiteralAgrees context later)

include regions literals

theorem readLiteral_agrees_of_same {start : Cursor} {form : LiteralForm} {body : Body}
    (comments earlier : Array Comment) (proper : form.Proper)
    (reads : (opening start form).body cursor.rest = body)
    (same : (opening (start.inside context) form).body (cursor.inside context).rest = body) :
    ReadAgrees context earlier (readLiteral start form cursor comments)
      (readLiteral (start.inside context) form (cursor.inside context)
        (commentsInside context earlier comments)) := by
  have bound : body.length ≤ cursor.rest.length := by
    rw [← reads]
    exact body_opening_within form start cursor.rest
  have moved : (cursor.inside context).advance body.length =
      (cursor.advance body.length).inside context := Cursor.advance_inside (.inl bound)
  have shorter (place : Cursor) : (place.advance body.length).rest.length ≤ place.rest.length := by
    rw [Cursor.rest_advance, List.length_drop]
    exact Nat.sub_le _ _
  rw [readLiteral_eq reads (shorter _), readLiteral_eq same (shorter _)]
  cases ending : body.ending with
  | closed => exact .inl ⟨rfl, moved, rfl⟩
  | endOfText =>
      apply readAgrees_of_unclosed
      · intro nil
        rw [unclosed_opening_inside nil]
      · exact fun _ => trivial
  | interpolation =>
      have progress := StringLiteral.body_progress (opening start form) cursor.rest
        (by rw [reads, ending]; nofun)
      rw [reads] at progress
      have onward : (cursor.advance body.length).rest.length < cursor.rest.length :=
        Cursor.length_rest_advance_lt progress.1 progress.2
      have inner := regions _ onward start _ 0 comments earlier _ (proper.interrupted start) moved
      apply inner.bind
      · rintro region inside _ ⟨text, after, passed⟩
        have literal := literals region.after (Nat.lt_of_le_of_lt region.onward onward) start
          _ region.comments earlier inside.after (proper.interrupted start) after
        rw [← passed] at literal
        rw [text]
        exact literal.prepend _ _ _
      · intro inside last success
        exact map_prepend_reaches (fun _ => readLiteral_reaches) success

theorem literalAgrees_of_calls : LiteralAgrees context cursor := by
  intro start form comments earlier place proper same
  subst same
  have continues := body_opening_append proper start (start.inside context) cursor.rest
    context.tail
  by_cases nil : context.tail = []
  · apply readLiteral_agrees_of_same regions literals comments earlier proper rfl
    rw [Cursor.rest_inside, nil, List.append_nil]
    rfl
  · rcases continues with same | ⟨beyond, ended⟩
    · exact readLiteral_agrees_of_same regions literals comments earlier proper rfl same
    · refine .inr ⟨nil, ?_, ?_⟩
      · exact readLiteral_overruns rfl fun stopped => passed_of_beyond nil (beyond stopped)
      · intro breaks
        refine ⟨(opening start form).unclosed cursor, ?_⟩
        rw [readLiteral_eq rfl (by rw [Cursor.rest_advance, List.length_drop]; omega),
          ended breaks.stops]

theorem readBehind_agrees {start : Cursor} {form : LiteralForm} {depth : Nat}
    {scanned : Scanned} (comments earlier : Array Comment) (proper : form.Proper)
    (success : scan false cursor = .ok scanned)
    (shorter : scanned.after.rest.length < cursor.rest.length)
    (onward : (scanned.inside context).after.rest.length ≤ place.rest.length) :
    ReadAgrees context earlier
      (readBehind start form depth comments scanned (Nat.le_of_lt shorter))
      (readBehind (start.inside context) form depth (commentsInside context earlier comments)
        (scanned.inside context) onward) := by
  have outcome := scan_success success
  unfold readBehind
  cases found : scanned.found with
  | layout =>
      simp only [Scanned.inside, found, Found.inside]
      exact (regions _ shorter start form depth comments earlier _ proper rfl).prepend _ _ _
  | element name => cases outcome.markup_of_element found
  | lexeme lexeme =>
      have joined : lexeme.start.Reaches lexeme.stop := outcome.lexeme_reaches found
      simp only [Scanned.inside, found, Found.inside, Lexeme.raw_inside joined]
      change ReadAgrees context earlier _ (match depthBehind? depth lexeme.kind with
        | none => _
        | some _ => _)
      cases depthBehind? depth lexeme.kind with
      | none => exact .inl ⟨rfl, rfl, rfl⟩
      | some further =>
          exact (regions _ shorter start form further comments earlier _ proper rfl).prepend _ _ _
  | literal inner =>
      simp only [Scanned.inside, found, Found.inside]
      have whole := literals _ shorter inner.start inner.form comments earlier _
        (scan_literal_proper success found) rfl
      apply whole.bind
      · rintro read inside success ⟨_, after, passed⟩
        have reaches : inner.start.Reaches read.after := by
          rw [outcome.literal_start found]
          exact outcome.reaches.trans (readLiteral_reaches success)
        have text : ((inner.inside context).start.spanTo inside.after).text =
            (inner.start.spanTo read.after).text := by
          have span : (inner.inside context).start.spanTo (read.after.inside context) =
              (inner.start.spanTo read.after).shift context.bytes := reaches.spanTo_inside
          rw [after, span]
          rfl
        have region := regions read.after (Nat.lt_of_le_of_lt read.onward shorter) start form
          depth read.comments earlier inside.after proper after
        rw [← passed] at region
        rw [text]
        exact region.prepend _ _ _
      · intro inside last success
        exact map_prepend_reaches (fun _ => readRegion_reaches) success

theorem regionAgrees_of_calls : RegionAgrees context cursor := by
  intro start form depth comments earlier place proper same
  subst same
  by_cases finished : cursor.rest = []
  · rw [readRegion_of_finished finished]
    apply readAgrees_of_unclosed
    · intro nil
      rw [readRegion_of_finished (by rw [Cursor.rest_inside, finished, nil]; rfl),
        unclosed_opening_inside nil]
    · intro nonempty
      apply readRegion_overruns
      intro scanned success
      have remaining : (cursor.inside context).rest ≠ [] := by
        rw [Cursor.rest_inside, finished]
        exact nonempty
      have shorter := Lexer.scan_shorter remaining success
      rw [Cursor.rest_inside, finished] at shorter
      exact shorter
  · have remaining : (cursor.inside context).rest ≠ [] := by
      rw [Cursor.rest_inside]
      exact List.append_ne_nil_of_left_ne_nil finished context.tail
    rcases scan_agrees false finished with same | ⟨nonempty, overruns, broken⟩
    · have inside : scan false (cursor.inside context) =
          outcomeInside context (Scanned.inside context) (scan false cursor) :=
        Option.some.inj same
      cases success : scan false cursor with
      | error error =>
          rw [success] at inside
          rw [readRegion_of_failure finished success, readRegion_of_failure remaining inside]
          exact .inl rfl
      | ok scanned =>
          rw [success] at inside
          have shorter := Lexer.scan_shorter finished success
          have onward := Nat.le_of_lt (Lexer.scan_shorter remaining inside)
          rw [readRegion_of_scan finished success (Nat.le_of_lt shorter),
            readRegion_of_scan remaining inside onward, commentsBehind_inside]
          exact readBehind_agrees regions literals _ earlier proper success shorter onward
    · refine .inr ⟨nonempty, ?_, ?_⟩
      · apply readRegion_overruns
        intro scanned success
        rw [success] at overruns
        exact overruns
      · intro breaks
        have cut := broken breaks
        cases success : scan false cursor with
        | error error => exact ⟨error, readRegion_of_failure finished success⟩
        | ok scanned =>
            rw [success] at cut
            exact readRegion_of_runsOut finished success cut.1

end Calls

/-- Reading literals and interpolations agrees with reading them inside of a
context. -/
theorem reading_agrees (context : Context) (cursor : Cursor) :
    LiteralAgrees context cursor ∧ RegionAgrees context cursor := by
  induction size : cursor.rest.length using Nat.strongRecOn generalizing cursor with
  | ind size ih =>
      subst size
      have literals (later : Cursor) (shorter : later.rest.length < cursor.rest.length) :
          LiteralAgrees context later := (ih _ shorter later rfl).1
      have regions (later : Cursor) (shorter : later.rest.length < cursor.rest.length) :
          RegionAgrees context later := (ih _ shorter later rfl).2
      exact ⟨literalAgrees_of_calls regions literals, regionAgrees_of_calls regions literals⟩

end Agreement

end HackLexer
