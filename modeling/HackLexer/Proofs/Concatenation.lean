import HackLexer.Proofs.StridesInContext

/-!
# Lexing texts one behind the other

A text at whose end nothing is open can be lexed apart from what follows it in the
next line: the tokens and comments of two texts with a line feed between them are
those of the first text and then those of the second, moved behind the first.
Only a line comment at the end of the first text takes the line feed in.  If the
second text fails, both together fail with its error, moved in the same way.

The main statement is `tokenize_append_line`.
-/

namespace HackLexer

/-- A line comment that ends at the given offset without a line feed takes in the
line feed behind it. -/
def Comment.endLineAt (stop : Nat) (comment : Comment) : Comment :=
  if comment.kind = .line ∧ comment.span.stop = stop ∧ comment.span.text.getLast? ≠ some '\n' then
    comment.overFeed
  else
    comment

/-- The comments of a text with the given number of bytes if a line feed follows
it: at most the last one changes. -/
def commentsBeforeLine (bytes : Nat) (comments : List Comment) : List Comment :=
  comments.dropLast ++ comments.getLast?.toList.map (Comment.endLineAt bytes)

/-- What two texts with a line feed between them are lexed to, given what each of
them is lexed to. -/
def Tokenized.appendLine (front : Text) (first second : Tokenized) : Tokenized :=
  { tokens := first.tokens ++
      second.tokens.map (.shift (Text.byteLength front + 1) (Text.lineFeeds front + 1))
    comments := commentsBeforeLine (Text.byteLength front) first.comments ++
      second.comments.map (.shift (Text.byteLength front + 1)) }

/-- Where lexing has come to the end of a text, no markup element is open. -/
def ClosesElements (text : Text) : Prop :=
  ∀ tokens lexer, Lexer.Run text tokens lexer → lexer.cursor.rest = [] → lexer.elements = []

namespace Lexer

/-- Follows the steps of a lexer and looks for open elements at the end of the
text. -/
def endsClosed (lexer : Lexer) : Bool :=
  (!lexer.cursor.rest.isEmpty || lexer.elements.isEmpty) &&
    match _result : lexer.step with
    | .moved after => endsClosed after
    | .pulled (.token _ after) => endsClosed after
    | .pulled _ => true
termination_by lexer.size
decreasing_by
  · exact size_of_step_moved _result
  · exact size_of_step_token _result

theorem endsClosed_eq (lexer : Lexer) :
    lexer.endsClosed =
      ((!lexer.cursor.rest.isEmpty || lexer.elements.isEmpty) &&
        match lexer.step with
        | .moved after => after.endsClosed
        | .pulled (.token _ after) => after.endsClosed
        | .pulled _ => true) := by
  rw [endsClosed]
  split <;> rename_i stepped
  · rw [stepped]
  · rw [stepped]
  · rename_i answer noToken
    rw [stepped]
    cases answer with
    | token token after => exact absurd rfl (noToken token after)
    | endOfText after => rfl
    | failed error after => rfl

theorem Run.endsClosed {text : Text} {tokens : List Token} {lexer : Lexer}
    (closed : (ofText text).endsClosed) (run : Run text tokens lexer) : lexer.endsClosed := by
  induction run with
  | start => exact closed
  | moved run step ih =>
      rw [endsClosed_eq, step, Bool.and_eq_true] at ih
      exact ih.2
  | token run step ih =>
      rw [endsClosed_eq, step, Bool.and_eq_true] at ih
      exact ih.2
  | endOfText run step ih =>
      rw [(endOfText_step step).1]
      exact ih

theorem endsClosed_of_run {text : Text} {tokens : List Token} {lexer : Lexer}
    (closed : ClosesElements text) (run : Run text tokens lexer) : lexer.endsClosed := by
  induction size : lexer.size using Nat.strongRecOn generalizing lexer tokens with
  | ind size ih =>
      subst size
      rw [endsClosed_eq, Bool.and_eq_true]
      constructor
      · by_cases finished : lexer.cursor.rest = []
        · simp [closed tokens lexer run finished]
        · simp [finished]
      · cases step : lexer.step with
        | moved after => exact ih _ (size_of_step_moved step) (run.moved step) rfl
        | pulled answer =>
            cases answer with
            | token token after => exact ih _ (size_of_step_token step) (run.token step) rfl
            | endOfText after => rfl
            | failed error after => rfl

end Lexer

theorem closesElements_iff (text : Text) :
    (Lexer.ofText text).endsClosed = true ↔ ClosesElements text := by
  constructor
  · intro closed tokens lexer run finished
    have here := run.endsClosed closed
    rw [Lexer.endsClosed_eq, Bool.and_eq_true, finished] at here
    simpa using here.1
  · intro closed
    exact Lexer.endsClosed_of_run closed .start

instance (text : Text) : Decidable (ClosesElements text) :=
  decidable_of_iff _ (closesElements_iff text)

namespace Lexer

def drainedInside (context : Context) (earlier : Array Comment) :
    Except LexicalError (List Token × Lexer) → Except LexicalError (List Token × Lexer)
  | .error error => .error (error.shift context.bytes context.lines)
  | .ok (tokens, last) =>
      .ok (tokens.map (.shift context.bytes context.lines), last.inside context earlier)

theorem drainedInside_behind (context : Context) (earlier : Array Comment)
    (tokens : List Token) (drained : Except LexicalError (List Token × Lexer)) :
    drainedInside context earlier (drainedBehind tokens drained) =
      drainedBehind (tokens.map (.shift context.bytes context.lines))
        (drainedInside context earlier drained) := by
  cases drained with
  | error error => rfl
  | ok result => simp only [drainedInside, drainedBehind, List.map_append]

theorem Outside.inside {lexer : Lexer} (outside : lexer.Outside) (context : Context)
    (earlier : Array Comment) : (lexer.inside context earlier).Outside where
  literal := by simp [Lexer.inside, outside.literal]
  interpolations := by simp [Lexer.inside, outside.interpolations]

/-- If nothing follows a text, it is lexed as alone, wherever it stands. -/
theorem drain_inside {context : Context} {text : Text} {tokens : List Token} {lexer : Lexer}
    (earlier : Array Comment) (alone : context.tail = []) (outside : lexer.Outside)
    (run : Run text tokens lexer) :
    (lexer.inside context earlier).drain = drainedInside context earlier lexer.drain := by
  induction size : lexer.size using Nat.strongRecOn generalizing lexer tokens with
  | ind size ih =>
      subst size
      have insideStride : (lexer.inside context earlier).stride =
          lexer.stride.inside context earlier :=
        (stride_agrees outside run.placed (.inr (.inr alone))).resolve_right
          fun differs => differs.1 alone
      have later := outside.stride
      rw [drain_of_stride (outside.inside context earlier), insideStride,
        drain_of_stride outside]
      cases strode : lexer.stride with
      | moved after =>
          rw [strode] at later
          exact ih _ (size_of_stride_moved outside strode) later (run.stride_moved outside strode)
            rfl
      | pulled answer =>
          rw [strode] at later
          cases answer with
          | token token after =>
              have rest := ih _ (size_of_stride_token outside strode) later
                (run.stride_token outside strode) rfl
              change _ = drainedInside context earlier (drainedBehind [token] after.drain)
              rw [drainedInside_behind]
              exact congrArg (drainedBehind _) rest
          | endOfText after => rfl
          | failed error after => rfl

/-- A lexer outside of everything, in front of the given text. -/
structure Fresh (bytes lines : Nat) (back : Text) (lexer : Lexer) : Prop
    extends lexer.Outside where
  ready : lexer.ready = []
  elements : lexer.elements = []
  cursor : lexer.cursor = { offset := bytes, line := lines, rest := back }

/-- Up to where it stands and the comments behind it, such a lexer is a new one. -/
theorem Fresh.eq_inside {lexer : Lexer} {bytes lines : Nat} {back : Text}
    (fresh : lexer.Fresh bytes lines back) :
    lexer = (ofText back).inside { bytes, lines, tail := [] } lexer.comments := by
  obtain ⟨⟨literal, interpolations⟩, ready, elements, cursor⟩ := fresh
  obtain ⟨_, _, _, _, _, comments⟩ := lexer
  cases literal
  cases interpolations
  cases ready
  cases elements
  cases cursor
  simp [Lexer.inside, ofText, Cursor.inside, Cursor.atStart]

theorem Fresh.drain_eq {lexer : Lexer} {bytes lines : Nat} {back : Text}
    (fresh : lexer.Fresh bytes lines back) :
    lexer.drain =
      drainedInside { bytes, lines, tail := [] } lexer.comments (ofText back).drain := by
  rw [← drain_inside lexer.comments rfl (outside_ofText back) .start, ← fresh.eq_inside]

end Lexer

theorem commentsBeforeLine_concat (bytes : Nat) (comments : List Comment) (last : Comment) :
    commentsBeforeLine bytes (comments ++ [last]) = comments ++ [last.endLineAt bytes] := by
  simp [commentsBeforeLine]

theorem commentsBeforeLine_of_ended {bytes : Nat} {comments : List Comment}
    (ended : ∀ comment, comment ∈ comments → comment.kind = .line →
      comment.span.text.getLast? = some '\n') :
    commentsBeforeLine bytes comments = comments := by
  rcases List.eq_nil_or_concat comments with rfl | ⟨front, last, rfl⟩
  · rfl
  · have unchanged : last.endLineAt bytes = last := by
      rw [Comment.endLineAt, if_neg]
      rintro ⟨line, _, noFeed⟩
      exact noFeed (ended last (by simp) line)
    rw [List.concat_eq_append, commentsBeforeLine_concat, unchanged]

theorem Token.shift_zero (token : Token) : token.shift 0 0 = token := by
  simp [Token.shift, Span.shift]

theorem Comment.shift_zero (comment : Comment) : comment.shift 0 = comment := by
  simp [Comment.shift, Span.shift]

/-- Nothing stands before a text, and the given characters follow it. -/
def Context.ofTail (tail : Text) : Context :=
  { bytes := 0, lines := 0, tail }

/-- A line feed and a text stand behind the first text of a file. -/
def beforeLine (back : Text) : Context :=
  { bytes := 0, lines := 0, tail := '\n' :: back }

theorem scan_feed {markup : Bool} {cursor : Cursor} {behind : Text}
    (rest : cursor.rest = '\n' :: behind) :
    scan markup cursor =
      .ok { found := .layout, after := cursor.advance 1, comment := none } := by
  have layout : layoutAt cursor =
      some (.ok { found := .layout, after := cursor.advance 1, comment := none }) := by
    simp only [layoutAt, rest]
  unfold scan recognise
  rw [layout]
  rfl

namespace Lexer

theorem comments_ofTail (lexer : Lexer) (tail : Text) :
    (lexer.inside (.ofTail tail) #[]).comments = lexer.comments := by
  have same : (fun comment : Comment => comment.shift 0) = id := funext Comment.shift_zero
  simp [Lexer.inside, Context.ofTail, same]

theorem ready_ofTail (lexer : Lexer) (tail : Text) :
    (lexer.inside (.ofTail tail) #[]).ready = lexer.ready := by
  have same : (fun token : Token => token.shift 0 0) = id := funext Token.shift_zero
  simp [Lexer.inside, Context.ofTail, same]

theorem ofText_ofTail (front tail : Text) :
    (ofText front).inside (.ofTail tail) #[] = ofText (front ++ tail) := by
  simp [Lexer.inside, Context.ofTail, ofText, Cursor.inside, Cursor.atStart]

theorem comments_beforeLine (lexer : Lexer) (back : Text) :
    (lexer.inside (beforeLine back) #[]).comments = lexer.comments :=
  comments_ofTail lexer _

theorem ofText_beforeLine (front back : Text) :
    (ofText front).inside (beforeLine back) #[] = ofText (front ++ '\n' :: back) :=
  ofText_ofTail front _

section

variable {front back : Text} {lexer : Lexer}

theorem advance_feed {cursor : Cursor} (place : cursor.IsPlaceOf front)
    (finished : cursor.rest = []) :
    (cursor.inside (beforeLine back)).advance 1 =
      { offset := Text.byteLength front + 1, line := Text.lineFeeds front + 1, rest := back } := by
  obtain ⟨offset, line⟩ := place.measures_of_rest_nil finished
  simp only [Cursor.advance, Cursor.inside, beforeLine, finished, offset, line, Nat.zero_add]
  rfl

/-- A lexer with nothing open is a new one behind the line feed. -/
theorem fresh_behind_feed {cursor : Cursor} (comments : Array Comment)
    (outside : lexer.Outside) (ready : lexer.ready = []) (elements : lexer.elements = [])
    (place : cursor.IsPlaceOf front) (finished : cursor.rest = []) :
    Fresh (Text.byteLength front + 1) (Text.lineFeeds front + 1) back
      { lexer.inside (beforeLine back) #[] with
        cursor := (cursor.inside (beforeLine back)).advance 1
        comments } where
  literal := (outside.inside (beforeLine back) #[]).literal
  interpolations := (outside.inside (beforeLine back) #[]).interpolations
  ready := by simp [Lexer.inside, ready]
  elements := by simp [Lexer.inside, elements]
  cursor := advance_feed place finished

/-- What the lexer of the longer text comes to behind the first text. -/
def ResumesWith (front back : Text) (handed : List Token) (final lexer : Lexer) : Prop :=
  ∃ resumed : Lexer, lexer.drain = drainedBehind handed resumed.drain ∧
    resumed.Fresh (Text.byteLength front + 1) (Text.lineFeeds front + 1) back ∧
    resumed.comments.toList = commentsBeforeLine (Text.byteLength front) final.comments.toList

theorem ResumesWith.behind {tokens handed : List Token} {final after : Lexer}
    (resumes : ResumesWith front back handed final after)
    (drain : lexer.drain = drainedBehind tokens after.drain) :
    ResumesWith front back (tokens ++ handed) final lexer := by
  obtain ⟨resumed, rest, fresh, comments⟩ := resumes
  refine ⟨resumed, ?_, fresh, comments⟩
  rw [drain, rest, drainedBehind_append]

/-- At the end of the first text, only the line feed is passed over. -/
theorem resumes_of_done {tokens : List Token} (done : lexer.Done)
    (place : lexer.cursor.IsPlaceOf front)
    (longer : Run (front ++ '\n' :: back) tokens (lexer.inside (beforeLine back) #[])) :
    ResumesWith front back [] lexer (lexer.inside (beforeLine back) #[]) := by
  have rest : (lexer.inside (beforeLine back) #[]).cursor.rest = '\n' :: back := by
    change lexer.cursor.rest ++ _ = _
    rw [done.finished]
    rfl
  have ready : (lexer.inside (beforeLine back) #[]).ready = [] := by
    simp only [Lexer.inside, done.ready, List.map_nil]
  let resumed : Lexer :=
    { lexer.inside (beforeLine back) #[] with
      cursor := (lexer.cursor.inside (beforeLine back)).advance 1 }
  have stride : (lexer.inside (beforeLine back) #[]).stride = .moved resumed := by
    rw [stride_of_scan ready (by rw [rest]; exact List.cons_ne_nil _ _), scan_feed rest]
    rfl
  have outside : (lexer.inside (beforeLine back) #[]).Outside := done.toOutside.inside _ _
  refine ⟨resumed, ?_, ?_, ?_⟩
  · rw [drain_of_stride outside, stride, drainedBehind_nil]
  · exact fresh_behind_feed _ done.toOutside done.ready done.elements place done.finished
  · have comments : resumed.comments = lexer.comments := comments_beforeLine lexer back
    rw [comments, commentsBeforeLine_of_ended]
    intro comment member line
    have ends := longer.linesEnd comment
    rw [comments_beforeLine, rest] at ends
    exact (ends (Array.mem_toList_iff.mp member) line).resolve_right
      (List.cons_ne_nil _ _)

end

end Lexer

/-- A marker neither closes an element nor begins a comment in it. -/
theorem Element.receive_marker {lexeme : Lexeme}
    (marker : lexeme.kind = .unsafeExpr ∨ lexeme.kind = .fixmeExpr) (element : Element) :
    ∃ after, element.receive lexeme = .collecting after := by
  obtain ⟨name, content, phase⟩ := element
  cases phase with
  | openingTag => rcases marker with kind | kind <;> simp [receive, kind]
  | children => rcases marker with kind | kind <;> simp [receive, kind]
  | closingTag lt slash names => rcases marker with kind | kind <;> simp [receive, kind]

/-- A scan that opens neither a literal nor an element. -/
def Found.OpensNothing : Found → Prop
  | .layout | .lexeme _ => True
  | .literal _ | .element _ => False

theorem Found.OpensNothing.inside {context : Context} {found : Found}
    (nothing : found.OpensNothing) : (found.inside context).OpensNothing := by
  cases found with
  | layout => trivial
  | lexeme complete => trivial
  | literal opened => exact nothing
  | element name => exact nothing

theorem Found.IsMarked.opensNothing {cursor : Cursor} {found : Found}
    (marked : found.IsMarked cursor) : found.OpensNothing := by
  rcases marked with rfl | ⟨kind, count, _, rfl⟩
  · trivial
  · trivial

/-- The tokens that a scan gives if no element is open. -/
def Found.tokens : Found → List Token
  | .lexeme complete => [complete.token]
  | _ => []

theorem Found.tokens_inside {context : Context} {found : Found}
    (joined : ∀ complete, found = .lexeme complete → complete.start.Reaches complete.stop) :
    (found.inside context).tokens = found.tokens.map (.shift context.bytes context.lines) := by
  cases found with
  | lexeme complete =>
      exact congrArg (fun token => [token]) (Lexeme.token_inside (joined complete rfl))
  | layout => rfl
  | literal opened => rfl
  | element name => rfl

namespace Lexer

section

variable {front back : Text} {lexer : Lexer} {scanned : Scanned}

/-- Where nothing is open, layout is passed over and a lexeme is handed out. -/
theorem drain_of_scan (outside : lexer.Outside) (ready : lexer.ready = [])
    (elements : lexer.elements = []) (remaining : lexer.cursor.rest ≠ [])
    (success : scan true lexer.cursor = .ok scanned)
    (nothing : scanned.found.OpensNothing) :
    lexer.drain = drainedBehind scanned.found.tokens (lexer.passing scanned).drain := by
  rw [drain_of_stride outside, stride_of_scan ready remaining, success]
  cases found : scanned.found with
  | layout => simp only [takeIn, accept_eq, found, Found.tokens, drainedBehind_nil]
  | lexeme complete =>
      have delivered : (lexer.passing scanned).deliver complete =
          .pulled (.token complete.token (lexer.passing scanned)) := by
        simp only [deliver, Lexer.passing, outside.interpolations, elements]
      simp only [takeIn, accept_eq, found, Found.tokens, delivered]
  | literal opened =>
      rw [found] at nothing
      exact nothing.elim
  | element name =>
      rw [found] at nothing
      exact nothing.elim

/-- A comment with which the text ends is passed over outside of elements. -/
theorem elements_of_runsOut {tokens : List Token} (closed : ClosesElements front)
    (outside : lexer.Outside) (run : Run front tokens lexer) (ready : lexer.ready = [])
    (remaining : lexer.cursor.rest ≠ []) (success : scan true lexer.cursor = .ok scanned)
    (marked : scanned.found.IsMarked lexer.cursor) (finished : scanned.after.rest = []) :
    lexer.elements = [] := by
  cases elements : lexer.elements with
  | nil => rfl
  | cons element outer =>
      have strode := stride_of_scan ready remaining
      rw [success] at strode
      dsimp only at strode
      rcases marked with layout | ⟨kind, count, marker, found⟩
      · simp only [takeIn, accept_eq, layout] at strode
        have none := closed _ _ (run.stride_moved outside strode) finished
        exact absurd (elements.symm.trans none) (List.cons_ne_nil element outer)
      · obtain ⟨after, receipt⟩ :=
          @Element.receive_marker (lexer.cursor.lexeme kind count) (marker?_kind marker) element
        simp only [takeIn, accept_eq, found, deliver, Lexer.passing, outside.interpolations,
          elements, receipt] at strode
        have none := closed _ _ (run.stride_moved outside strode) finished
        exact absurd none (List.cons_ne_nil after outer)

/-- The comments that were passed over, with the line feed behind the last one. -/
theorem comments_overFeed {comment : Comment} (success : scan true lexer.cursor = .ok scanned)
    (place : lexer.cursor.IsPlaceOf front) (finished : scanned.after.rest = [])
    (passed : scanned.comment = some comment) (runsOut : comment.RunsOut) :
    ((lexer.inside (beforeLine back) #[]).passing
        (scanned.overFeed (beforeLine back))).comments.toList =
      commentsBeforeLine (Text.byteLength front) (lexer.passing scanned).comments.toList := by
  have outcome := scan_success success
  have stop : comment.span.stop = Text.byteLength front := by
    have last : scanned.after.IsPlaceOf front := place.trans outcome.reaches
    rw [outcome.comment_stop passed]
    exact (last.measures_of_rest_nil finished).1
  have ended : comment.endLineAt (Text.byteLength front) = comment.overFeed :=
    if_pos ⟨runsOut.1, stop, runsOut.2⟩
  have shifted : comment.overFeed.shift (beforeLine back).bytes = comment.overFeed :=
    comment.overFeed.shift_zero
  simp only [Lexer.passing, Scanned.commentsBehind, Scanned.overFeed, passed, Option.map_some,
    comments_beforeLine, shifted, Array.toList_push, commentsBeforeLine_concat, ended]

/-- If the first text ends in a line comment, this takes in the line feed. -/
theorem resumes_of_runsOut {tokens handed : List Token} {final : Lexer}
    (closed : ClosesElements front) (outside : lexer.Outside) (run : Run front tokens lexer)
    (remaining : lexer.cursor.rest ≠ []) (runsOut : lexer.RunsOut (beforeLine back))
    (drained : lexer.drain = .ok (handed, final)) :
    ResumesWith front back handed final (lexer.inside (beforeLine back) #[]) := by
  obtain ⟨ready, scanned, success, ⟨finished, comment, passed, unended⟩, longer⟩ := runsOut
  have outcome := scan_success success
  have place : lexer.cursor.IsPlaceOf front := run.placed.cursor
  have marked := (scan_passes success passed).marked
  have elements :=
    elements_of_runsOut closed outside run ready remaining success marked finished
  have ends : (lexer.passing scanned).Done :=
    { literal := outside.literal
      interpolations := outside.interpolations
      ready := ready
      elements := elements
      finished := finished }
  rw [drain_of_scan outside ready elements remaining success marked.opensNothing,
    ends.drain_eq] at drained
  cases drained
  have within := drain_of_scan (outside.inside (beforeLine back) #[])
    (by simp [Lexer.inside, ready]) (by simp [Lexer.inside, elements])
    (List.append_ne_nil_of_left_ne_nil remaining _) longer marked.opensNothing.inside
  have tokensInside : (scanned.overFeed (beforeLine back)).found.tokens =
      scanned.found.tokens ++ [] := by
    have same : Token.shift 0 0 = id := funext Token.shift_zero
    refine (Found.tokens_inside fun complete found =>
      (outcome.lexeme_placed place remaining found).stop).trans ?_
    simp [beforeLine, same]
  rw [tokensInside] at within
  refine ⟨_, within, ?_, ?_⟩
  · exact fresh_behind_feed _ outside ready elements (place.trans outcome.reaches) finished
  · exact comments_overFeed success place finished passed unended

/-- A lexer in the first text, whose counterpart in the longer text has handed out
the same tokens. -/
structure Alongside (front back : Text) (tokens : List Token) (lexer : Lexer) : Prop
    extends lexer.Outside where
  alone : Run front tokens lexer
  longer : Run (front ++ '\n' :: back) tokens (lexer.inside (beforeLine back) #[])

theorem alongside_ofText (front back : Text) : Alongside front back [] (ofText front) where
  toOutside := outside_ofText front
  alone := .start
  longer := by
    rw [ofText_beforeLine]
    exact .start

section

variable {tokens : List Token} {after : Lexer} (both : Alongside front back tokens lexer)

include both

theorem Alongside.stride_moved (strode : lexer.stride = .moved after)
    (strodeInside : (lexer.inside (beforeLine back) #[]).stride =
      .moved (after.inside (beforeLine back) #[])) :
    Alongside front back tokens after := by
  have outside := both.toOutside.stride
  rw [strode] at outside
  exact
    { outside with
      alone := both.alone.stride_moved both.toOutside strode
      longer := both.longer.stride_moved (both.toOutside.inside _ _) strodeInside }

theorem Alongside.stride_token {token : Token}
    (strode : lexer.stride = .pulled (.token token after))
    (strodeInside : (lexer.inside (beforeLine back) #[]).stride =
      .pulled (.token token (after.inside (beforeLine back) #[]))) :
    Alongside front back (tokens ++ [token]) after := by
  have outside := both.toOutside.stride
  rw [strode] at outside
  exact
    { outside with
      alone := both.alone.stride_token both.toOutside strode
      longer := both.longer.stride_token (both.toOutside.inside _ _) strodeInside }

/-- Both lexers take the same stride; or the text alone fails, or it ends in a line
comment. -/
theorem Alongside.stride_eq (more : lexer.ready ≠ [] ∨ lexer.cursor.rest ≠ []) :
    (lexer.inside (beforeLine back) #[]).stride = lexer.stride.inside (beforeLine back) #[] ∨
      lexer.stride.IsFailure ∨ lexer.RunsOut (beforeLine back) := by
  have agrees := @stride_agrees (beforeLine back) #[] lexer front tokens both.toOutside
    both.alone.placed (more.imp_right .inl)
  exact agrees.imp_right fun differing => differing.2 (Text.breaks_feed back)

end

/-- The lexer of the longer text hands out the tokens of the first text and goes on
as a new one behind the line feed. -/
theorem Alongside.resumes {tokens handed : List Token} {final : Lexer}
    (closed : ClosesElements front) (both : Alongside front back tokens lexer)
    (drained : lexer.drain = .ok (handed, final)) :
    ResumesWith front back handed final (lexer.inside (beforeLine back) #[]) := by
  -- The induction is on the strides through the first text; both lexers take them
  -- alike, up to a line comment in which the first text ends.
  induction size : lexer.size using Nat.strongRecOn generalizing lexer tokens handed with
  | ind size ih =>
      subst size
      have outside := both.toOutside
      by_cases ended : lexer.ready = [] ∧ lexer.cursor.rest = []
      · have done : lexer.Done :=
          { outside with
            ready := ended.1
            elements := closed tokens lexer both.alone ended.2
            finished := ended.2 }
        rw [done.drain_eq] at drained
        cases drained
        exact resumes_of_done done both.alone.placed.cursor both.longer
      · have more : lexer.ready ≠ [] ∨ lexer.cursor.rest ≠ [] :=
          Decidable.not_and_iff_or_not.mp ended
        rcases both.stride_eq more with same | failure | runsOut
        · have strides := drain_of_stride outside
          have stridesInside := drain_of_stride (outside.inside (beforeLine back) #[])
          rw [drained] at strides
          cases strode : lexer.stride with
          | moved after =>
              rw [strode] at same strides
              rw [same] at stridesInside
              have rest := ih _ (size_of_stride_moved outside strode)
                (both.stride_moved strode same) strides.symm rfl
              exact rest.behind (stridesInside.trans (drainedBehind_nil _).symm)
          | pulled answer =>
              rw [strode] at same strides
              cases answer with
              | token token after =>
                  have unmoved : token.shift (beforeLine back).bytes (beforeLine back).lines =
                      token := token.shift_zero
                  rw [Step.inside, Pulled.inside, unmoved] at same
                  rw [same] at stridesInside
                  obtain ⟨more, drainedAfter, rfl⟩ := drainedBehind_eq_ok strides.symm
                  have rest := ih _ (size_of_stride_token outside strode)
                    (both.stride_token strode same) drainedAfter rfl
                  exact rest.behind stridesInside
              | endOfText after => exact absurd (stride_endOfText strode) ended
              | failed error after => cases strides
        · obtain ⟨error, failed⟩ := drain_of_failure outside failure
          rw [failed] at drained
          cases drained
        · have remaining := more.resolve_left fun ready => ready runsOut.1
          exact resumes_of_runsOut closed outside both.alone remaining runsOut drained

end

end Lexer

/-- Two texts with a line feed between them are lexed one behind the other, if no
element is open at the end of the first. -/
theorem tokenize_append_line {front : Text} {first : Tokenized}
    (lexed : tokenize front = .ok first) (closed : ClosesElements front) (back : Text) :
    tokenize (front ++ '\n' :: back) =
      match tokenize back with
      | .ok second => .ok (first.appendLine front second)
      | .error error =>
          .error (error.shift (Text.byteLength front + 1) (Text.lineFeeds front + 1)) := by
  unfold tokenize at lexed ⊢
  split at lexed
  · cases lexed
  · rename_i handed final drained
    cases lexed
    obtain ⟨resumed, whole, fresh, comments⟩ :=
      (Lexer.alongside_ofText front back).resumes closed drained
    rw [Lexer.ofText_beforeLine, fresh.drain_eq] at whole
    rw [whole]
    cases (Lexer.ofText back).drain with
    | error error => rfl
    | ok result =>
        simp [Lexer.drainedInside, Lexer.drainedBehind, Tokenized.appendLine, Lexer.inside,
          comments]

/-- A closed element and a comment without a line feed; in the next line stands a
number, or a string that is never closed. -/
theorem tokenize_append_line_of_comment :
    let front := "<a/> // b".toList
    let tokens : List Token :=
      [{ kind := .xhpName, span := ⟨0, "<a".toList⟩, line := 0, literal := none },
       { kind := .slash, span := ⟨2, "/".toList⟩, line := 0, literal := none },
       { kind := .gt, span := ⟨3, ">".toList⟩, line := 0, literal := none }]
    let number : Token := { kind := .int, span := ⟨10, "1".toList⟩, line := 1, literal := none }
    tokenize front = .ok { tokens, comments := [{ kind := .line, span := ⟨5, "// b".toList⟩ }] } ∧
      ClosesElements front ∧
      tokenize (front ++ '\n' :: "1".toList) =
        .ok
          { tokens := tokens ++ [number]
            comments := [{ kind := .line, span := ⟨5, "// b\n".toList⟩ }] } ∧
      tokenize (front ++ '\n' :: "'c".toList) =
        .error { cause := .unterminatedString .single, span := ⟨10, "'".toList⟩, line := 1 } := by
  intro front tokens number
  have lexed : tokenize front =
      .ok { tokens, comments := [{ kind := .line, span := ⟨5, "// b".toList⟩ }] } := by
    decide +kernel
  have closed : ClosesElements front := by decide +kernel
  refine ⟨lexed, closed, ?_, ?_⟩
  · have second : tokenize "1".toList =
        .ok { tokens := [{ number with span := ⟨0, "1".toList⟩, line := 0 }], comments := [] } := by
      decide +kernel
    have whole := tokenize_append_line lexed closed "1".toList
    rw [second] at whole
    exact whole
  · have second : tokenize "'c".toList =
        .error { cause := .unterminatedString .single, span := ⟨0, "'".toList⟩, line := 0 } := by
      decide +kernel
    have whole := tokenize_append_line lexed closed "'c".toList
    rw [second] at whole
    exact whole

end HackLexer
