import HackLexer.Proofs.Contexts
import HackLexer.Proofs.ModeStack.Scans
import HackLexer.Proofs.PassedComments
import HackLexer.Proofs.SearchLookahead

/-!
# Scans inside of a context

What is recognised at a cursor of a text is recognised at the same place inside
of a context, unless what is recognised there goes over the end of the text.  If
the tail of the context begins with a line feed, that is so only for what the end
of the text cuts short: constructs that are never closed, and line comments in a
last line without a line feed.

`scan_agrees` says this of scans.
-/

namespace HackLexer

/-- A cursor has gone over the end of a text into the tail of its context. -/
def Context.Passed (context : Context) (cursor : Cursor) : Prop :=
  cursor.rest.length < context.tail.length

/-- A line comment that no line feed ends. -/
def Comment.RunsOut (comment : Comment) : Prop :=
  comment.kind = .line ∧ comment.span.text.getLast? ≠ some '\n'

/-- A comment together with a line feed behind it. -/
def Comment.overFeed (comment : Comment) : Comment :=
  { comment with span := { comment.span with text := comment.span.text ++ ['\n'] } }

/-- A scan has come to the end of the text in a line comment. -/
def Scanned.RunsOut (scanned : Scanned) : Prop :=
  scanned.after.rest = [] ∧ ∃ comment, scanned.comment = some comment ∧ comment.RunsOut

/-- The counterpart of such a scan, which passes over the line feed behind the
text. -/
def Scanned.overFeed (context : Context) (scanned : Scanned) : Scanned :=
  { found := scanned.found.inside context
    after := (scanned.after.inside context).advance 1
    comment := scanned.comment.map fun comment => comment.overFeed.shift context.bytes }

/-- What is recognised is an error or goes over the end of the text. -/
def Overruns (context : Context) : Recognised → Prop
  | none => False
  | some (.error _) => True
  | some (.ok scanned) => context.Passed scanned.after

/-- What is recognised in a text alone is ended by the end of the text: it is an
error, or a line comment that inside of the context has its line feed. -/
def CutShort (context : Context) (alone within : Recognised) : Prop :=
  match alone with
  | none => False
  | some (.error _) => True
  | some (.ok scanned) => scanned.RunsOut ∧ within = some (.ok (scanned.overFeed context))

/-- The counterpart of what is recognised. -/
def recognisedInside (context : Context) (recognised : Recognised) : Recognised :=
  recognised.map (outcomeInside context (Scanned.inside context))

/-- What is recognised inside of a context is the counterpart of what is recognised
in a text alone, or goes over the end of the text. -/
def Agrees (context : Context) (alone within : Recognised) : Prop :=
  within = recognisedInside context alone ∨
    context.tail ≠ [] ∧ Overruns context within ∧
      (context.tail.Breaks → CutShort context alone within)

variable {context : Context} {cursor : Cursor}

theorem Agrees.orElse {alone within aloneElse withinElse : Recognised}
    (first : Agrees context alone within) (second : Agrees context aloneElse withinElse) :
    Agrees context (alone <|> aloneElse) (within <|> withinElse) := by
  rcases first with same | ⟨nonempty, overruns, breaking⟩
  · subst same
    cases alone with
    | none => exact second
    | some result => exact .inl rfl
  · cases within with
    | none => exact overruns.elim
    | some result =>
        refine .inr ⟨nonempty, overruns, ?_⟩
        intro breaks
        have cut := breaking breaks
        cases alone with
        | none => exact cut.elim
        | some other => exact cut

/-- Moving over more characters than a text has leads into the tail. -/
theorem passed_of_beyond {count : Nat} (nonempty : context.tail ≠ [])
    (beyond : cursor.rest.length < count) :
    context.Passed ((cursor.inside context).advance count) := by
  have positive := List.length_pos_iff.mpr nonempty
  rw [Context.Passed, Cursor.rest_advance, Cursor.rest_inside, List.length_drop,
    List.length_append]
  omega

theorem agrees_of_local {Match : Type} {length : Match → Nat}
    {matcher : Text → Option Match} (isLocal : IsLocal length matcher)
    (plain : ∀ {text : Text} {found : Match}, matcher text = some found →
      text.Plain (length found))
    {build : Cursor → Match → Scanned}
    (after : ∀ (cursor : Cursor) (found : Match),
      (build cursor found).after = cursor.advance (length found))
    (inside : ∀ (cursor : Cursor) (found : Match), length found ≤ cursor.rest.length →
      build (cursor.inside context) found = (build cursor found).inside context) :
    Agrees context ((matcher cursor.rest).map fun found => .ok (build cursor found))
      ((matcher (cursor.rest ++ context.tail)).map fun found =>
        .ok (build (cursor.inside context) found)) := by
  cases result : matcher (cursor.rest ++ context.tail) with
  | none =>
      rw [isLocal.unmatched result]
      exact .inl rfl
  | some found =>
      rcases isLocal.matched_or_beyond plain result with
        ⟨same, fits⟩ | ⟨unbroken, nonempty, beyond⟩
      · rw [same]
        exact .inl (congrArg (fun scanned => some (Except.ok scanned)) (inside cursor found fits))
      · refine .inr ⟨nonempty, ?_, fun breaks => absurd breaks unbroken⟩
        change context.Passed (build (cursor.inside context) found).after
        rw [after]
        exact passed_of_beyond nonempty beyond

theorem lexeme_inside {kind : TokenKind} {count : Nat} (fits : count ≤ cursor.rest.length) :
    (cursor.inside context).lexeme kind count = (cursor.lexeme kind count).inside context := by
  rw [Cursor.lexeme, Cursor.advance_inside (.inl fits)]
  rfl

theorem tokenAt_agrees {matcher : Text → Option (TokenKind × Nat)}
    (isLocal : IsLocal Prod.snd matcher)
    (plain : ∀ {text : Text} {kind : TokenKind} {count : Nat},
      matcher text = some (kind, count) → text.Plain count) :
    Agrees context (tokenAt cursor (matcher cursor.rest))
      (tokenAt (cursor.inside context) (matcher (cursor.inside context).rest)) := by
  apply agrees_of_local isLocal plain
  · intro cursor found
    rfl
  · intro cursor found fits
    rw [lexeme_inside fits]
    rfl

theorem elementAt_agrees (markup : Bool) :
    Agrees context (elementAt markup cursor) (elementAt markup (cursor.inside context)) := by
  cases markup with
  | false => exact .inl rfl
  | true =>
      apply agrees_of_local markupName?_local markupName?_plain
      · intro cursor found
        rfl
      · intro cursor found fits
        have name : (cursor.inside context).lexeme .xhpName found =
            (cursor.lexeme .xhpName found).inside context := lexeme_inside fits
        rw [name]
        rfl

/-- A run of blanks at the front of a text. -/
def blanks? (text : Text) : Option Nat :=
  if Text.countWhile isBlank text = 0 then none else some (Text.countWhile isBlank text)

theorem blanks?_local : IsLocal id blanks? where
  unmatched {text tail} missing := by
    simp only [blanks?, ite_eq_left_iff, reduceCtorEq, imp_false, Decidable.not_not] at missing ⊢
    exact (Text.countWhile_cut (by omega)).trans missing
  matched {text tail found} result within := by
    simp only [blanks?, Option.ite_none_left_eq_some, Option.some.injEq] at result ⊢
    obtain ⟨positive, rfl⟩ := result
    rw [Text.countWhile_cut within]
    exact ⟨positive, rfl⟩

theorem blanks?_plain {text : Text} {count : Nat} (found : blanks? text = some count) :
    text.Plain count := by
  simp only [blanks?, Option.ite_none_left_eq_some, Option.some.injEq] at found
  rw [← found.2]
  exact .countWhile isPlain_of_isBlank text

theorem layoutAt_of_ne {first : Char} {behind : Text} (rest : cursor.rest = first :: behind)
    (noFeed : first ≠ '\n') :
    layoutAt cursor =
      (blanks? cursor.rest).map fun count =>
        .ok { found := .layout, after := cursor.advance count, comment := none } := by
  unfold layoutAt blanks?
  split
  · rename_i feed
    rw [rest] at feed
    exact absurd (List.cons.inj feed).1 noFeed
  · split
    · rename_i none
      rw [if_pos none]
      rfl
    · rename_i count some
      rw [some, if_neg (Nat.succ_ne_zero count)]
      rfl

theorem layoutAt_agrees (remaining : cursor.rest ≠ []) :
    Agrees context (layoutAt cursor) (layoutAt (cursor.inside context)) := by
  obtain ⟨first, behind, rest⟩ := List.exists_cons_of_ne_nil remaining
  have longer : (cursor.inside context).rest = first :: (behind ++ context.tail) := by
    rw [Cursor.rest_inside, rest]
    rfl
  by_cases feed : first = '\n'
  · subst feed
    left
    unfold layoutAt
    rw [rest, longer, Cursor.advance_inside (.inl (by rw [rest]; simp))]
    rfl
  · rw [layoutAt_of_ne rest feed, layoutAt_of_ne longer feed]
    apply agrees_of_local blanks?_local blanks?_plain
    · intro cursor found
      rfl
    · intro cursor found fits
      have moved : (cursor.inside context).advance found =
          (cursor.advance found).inside context := Cursor.advance_inside (.inl fits)
      rw [moved]
      rfl

theorem find?_within {pattern text : Text} {count : Nat} (nonempty : pattern ≠ [])
    (found : Text.find? pattern text = some count) : count + pattern.length ≤ text.length := by
  have starts := List.isPrefixOf_iff_prefix.mp (Text.isPrefixOf_drop_of_find? found)
  have bound := starts.length_le
  have positive := List.length_pos_iff.mpr nonempty
  rw [List.length_drop] at bound
  omega

theorem agrees_of_unclosed {error : LexicalError} {within : Recognised}
    (alone : context.tail = [] →
      within = some (.error (error.shift context.bytes context.lines)))
    (beyond : context.tail ≠ [] → Overruns context within) :
    Agrees context (some (.error error)) within := by
  by_cases nil : context.tail = []
  · exact .inl (alone nil)
  · exact .inr ⟨nil, beyond nil, fun _ => trivial⟩

/-- An error about a construct that the end of the text leaves open, with an opener
of known length. -/
theorem unclosed_spanOf_inside (alone : context.tail = []) (cause : Cause) (opening : Cursor)
    (count : Nat) :
    LexicalError.unclosed cause ((opening.inside context).spanOf count)
        (opening.inside context) =
      (LexicalError.unclosed cause (opening.spanOf count) opening).shift context.bytes
        context.lines := by
  rw [Cursor.spanOf_inside (.inr alone), LexicalError.unclosed_inside alone]

theorem blockComment_inside {opening start : Cursor} {skipped : Nat} {block : Comment × Cursor}
    (skips : skipped ≤ start.rest.length) (closed : blockComment opening start skipped = .ok block) :
    blockComment (opening.inside context) (start.inside context) skipped =
      .ok (block.1.shift context.bytes, block.2.inside context) := by
  have longer : (start.inside context).rest.drop skipped =
      start.rest.drop skipped ++ context.tail := List.drop_append_of_le_length skips
  have outcome := Text.find?_append "*/".toList (start.rest.drop skipped) context.tail
  unfold blockComment at closed ⊢
  rw [longer]
  split at closed
  · rename_i count found
    rw [found] at outcome
    have same := outcome.resolve_right (by simp)
    have bound := find?_within (by decide) found
    rw [List.length_drop] at bound
    change count + 2 ≤ _ at bound
    have covered : skipped + count + 2 ≤ start.rest.length := by omega
    cases closed
    rw [same]
    dsimp only
    rw [Cursor.advance_inside (.inl covered), (Cursor.Reaches.advance start _).spanTo_inside]
    rfl
  · cases closed

theorem blockComment_agrees {opening start : Cursor} {skipped : Nat} (found : Found)
    (skips : skipped ≤ start.rest.length) :
    Agrees context
      (some ((blockComment opening start skipped).map (.beforeComment found)))
      (some ((blockComment (opening.inside context) (start.inside context) skipped).map
        (.beforeComment (found.inside context)))) := by
  cases closed : blockComment opening start skipped with
  | ok block =>
      left
      rw [blockComment_inside skips closed]
      rfl
  | error error =>
      have longer : (start.inside context).rest.drop skipped =
          start.rest.drop skipped ++ context.tail := List.drop_append_of_le_length skips
      have outcome := Text.find?_append "*/".toList (start.rest.drop skipped) context.tail
      unfold blockComment at closed ⊢
      rw [longer]
      split at closed
      · cases closed
      · rename_i missing
        cases closed
        apply agrees_of_unclosed
        · intro nil
          rw [nil, List.append_nil, missing, unclosed_spanOf_inside nil]
          rfl
        · intro nonempty
          cases further : Text.find? "*/".toList (start.rest.drop skipped ++ context.tail) with
          | none => trivial
          | some count =>
              rw [missing, further] at outcome
              have far := (outcome.resolve_left (by simp)).2 count rfl
              rw [List.length_drop] at far
              change _ < count + 2 at far
              exact passed_of_beyond nonempty (by omega)

theorem getLast?_ne_feed {text : Text} (noFeed : '\n' ∉ text) : text.getLast? ≠ some '\n' :=
  fun last => noFeed (List.mem_of_getLast? last)

theorem lineComment_inside {start : Cursor}
    (same : Text.countWhile (· != '\n') (start.rest ++ context.tail) =
      Text.countWhile (· != '\n') start.rest)
    (covered : Text.countWhile (· != '\n') start.rest + 1 ≤ start.rest.length ∨
      context.tail = []) :
    lineComment (start.inside context) =
      ((lineComment start).1.shift context.bytes, (lineComment start).2.inside context) := by
  unfold lineComment
  dsimp only
  rw [Cursor.rest_inside, same, Cursor.advance_inside covered,
    (Cursor.Reaches.advance start _).spanTo_inside]
  rfl

theorem lineComment_inside_of_feed {start : Cursor} (feed : '\n' ∈ start.rest) :
    lineComment (start.inside context) =
      ((lineComment start).1.shift context.bytes, (lineComment start).2.inside context) := by
  rcases Text.findFrom_feed start.rest 0 with
    ⟨line, behind, whole, _, count, _⟩ | ⟨noFeed, _⟩
  · have within : Text.countWhile (· != '\n') start.rest + 1 ≤ start.rest.length := by
      rw [count, whole]
      simp
    have counted := Text.countWhile_append (· != '\n') start.rest context.tail
    rw [if_neg (by omega)] at counted
    exact lineComment_inside counted (.inl within)
  · exact absurd feed noFeed

/-- A line comment in a line without a line feed goes to the end of the text. -/
theorem lineComment_of_noFeed {start : Cursor}
    (count : Text.countWhile (· != '\n') start.rest = start.rest.length) :
    lineComment start =
      ({ kind := .line, span := ⟨start.offset, start.rest⟩ }, start.toEnd) := by
  have whole : start.advance (start.rest.length + 1) = start.toEnd := by
    simp only [Cursor.toEnd, Cursor.advance, List.take_of_length_le (Nat.le_succ _),
      List.take_length, List.drop_of_length_le (Nat.le_succ _), List.drop_length]
  unfold lineComment
  dsimp only
  rw [count, whole, Cursor.toEnd, Cursor.spanTo_advance, List.take_length]

/-- If a line feed follows such a text, it belongs to the comment. -/
theorem lineComment_overFeed {start : Cursor} {behind : Text}
    (tail : context.tail = '\n' :: behind)
    (count : Text.countWhile (· != '\n') (start.inside context).rest = start.rest.length) :
    lineComment (start.inside context) =
      ({ kind := .line, span := ⟨context.bytes + start.offset, start.rest ++ ['\n']⟩ },
        (start.toEnd.inside context).advance 1) := by
  have last : (start.inside context).advance (start.rest.length + 1) =
      (start.toEnd.inside context).advance 1 := by
    rw [← Cursor.advance_advance, Cursor.advance_inside (.inl (Nat.le_refl _))]
    rfl
  have text : (start.inside context).rest.take (start.rest.length + 1) =
      start.rest ++ ['\n'] := by
    rw [Cursor.rest_inside, tail, List.take_length_add_append]
    rfl
  unfold lineComment
  dsimp only
  rw [count, Cursor.spanTo_advance, text, last]
  rfl

theorem lineComment_agrees {start : Cursor} (found : Found) :
    Agrees context (some (.ok (.beforeComment found (lineComment start))))
      (some (.ok (.beforeComment (found.inside context)
        (lineComment (start.inside context))))) := by
  by_cases feed : '\n' ∈ start.rest
  · left
    rw [lineComment_inside_of_feed feed]
    rfl
  · have count := Text.countWhile_of_noFeed feed
    have counted := Text.countWhile_append (· != '\n') start.rest context.tail
    rw [if_pos count] at counted
    by_cases nil : context.tail = []
    · left
      rw [lineComment_inside (by rw [nil, List.append_nil]) (.inr nil)]
      rfl
    · refine .inr ⟨nil, ?_, ?_⟩
      · apply passed_of_beyond nil
        rw [Cursor.rest_inside, counted]
        omega
      · intro breaks
        obtain ⟨first, behind, tail⟩ := List.exists_cons_of_ne_nil nil
        obtain rfl : first = '\n' := by
          rw [tail] at breaks
          exact breaks.eq_feed
        rw [tail] at counted
        rw [lineComment_of_noFeed count,
          lineComment_overFeed tail (by rw [Cursor.rest_inside, tail, counted]; rfl)]
        refine ⟨⟨?_, _, rfl, rfl, getLast?_ne_feed feed⟩, rfl⟩
        exact List.drop_length

theorem Context.Passed.mono {start stop : Cursor} (passed : context.Passed start)
    (reaches : start.Reaches stop) : context.Passed stop := by
  obtain ⟨count, rfl⟩ := reaches
  unfold Context.Passed at passed ⊢
  rw [Cursor.rest_advance, List.length_drop]
  omega

theorem passed_of_markedAt {kind : TokenKind} {count : Nat}
    (passed : context.Passed (cursor.advance count)) :
    Overruns context (some (markedAt cursor kind count)) := by
  unfold markedAt
  dsimp only
  split
  · cases closed : blockComment cursor (cursor.advance count) 0 with
    | error error => trivial
    | ok comment =>
        obtain ⟨more, after⟩ := blockComment_after closed
        change context.Passed comment.2
        rw [after]
        exact passed.mono (.advance _ _)
  · exact passed.mono (.advance _ _)

theorem markerAt_agrees : Agrees context (markerAt cursor) (markerAt (cursor.inside context)) := by
  rw [markerAt_eq, markerAt_eq, Cursor.rest_inside]
  cases result : marker? (cursor.rest ++ context.tail) with
  | none =>
      rw [marker?_local.unmatched result]
      exact .inl rfl
  | some marker =>
      obtain ⟨kind, count⟩ := marker
      rcases marker?_local.matched_or_beyond marker?_plain result with
        ⟨same, fits⟩ | ⟨unbroken, nonempty, beyond⟩
      · rw [same]
        simp only [Option.map_some, markedAt, lexeme_inside fits,
          Cursor.advance_inside (.inl fits)]
        split
        · exact blockComment_agrees (.lexeme (cursor.lexeme kind count)) (Nat.zero_le _)
        · exact lineComment_agrees (.lexeme (cursor.lexeme kind count))
      · exact .inr ⟨nonempty, passed_of_markedAt (passed_of_beyond nonempty beyond),
          fun breaks => absurd breaks unbroken⟩

theorem commentAt_hash {behind : Text} (rest : cursor.rest = '#' :: behind) :
    commentAt cursor = some (.ok (.beforeComment .layout (lineComment cursor))) := by
  simp only [commentAt, rest]
  rfl

theorem commentAt_slash {second : Char} {behind : Text}
    (rest : cursor.rest = '/' :: second :: behind) :
    commentAt cursor =
      if second = '*' then some ((blockComment cursor cursor 2).map (.beforeComment .layout))
      else if second = '/' then some (.ok (.beforeComment .layout (lineComment cursor)))
      else none := by
  simp only [commentAt, rest]
  split
  · rename_i same
    cases same
    rfl
  · rename_i same
    cases same
    rfl
  · rename_i same
    cases same
  · rename_i notBlock notLine _
    rw [if_neg, if_neg]
    · rintro rfl
      exact notLine behind rfl
    · rintro rfl
      exact notBlock behind rfl

theorem commentAt_of_ne {first : Char} {behind : Text} (rest : cursor.rest = first :: behind)
    (noSlash : first ≠ '/') (noHash : first ≠ '#') : commentAt cursor = none := by
  simp only [commentAt, rest]
  split
  · rename_i same
    exact absurd (List.cons.inj same).1 noSlash
  · rename_i same
    exact absurd (List.cons.inj same).1 noSlash
  · rename_i same
    exact absurd (List.cons.inj same).1 noHash
  · rfl

/-- A comment whose opener the end of the text splits. -/
theorem commentAt_agrees_of_split (rest : cursor.rest = ['/']) :
    Agrees context (commentAt cursor) (commentAt (cursor.inside context)) := by
  have alone : commentAt cursor = none := by simp [commentAt, rest]
  rw [alone]
  cases tail : context.tail with
  | nil =>
      left
      simp [commentAt, Cursor.rest_inside, rest, tail, recognisedInside]
  | cons second behind =>
      have longer : (cursor.inside context).rest = '/' :: second :: behind := by
        rw [Cursor.rest_inside, rest, tail]
        rfl
      have nonempty : context.tail ≠ [] := by simp [tail]
      rw [commentAt_slash longer]
      have unbroken (other : second ≠ '\n') : ¬ context.tail.Breaks := by
        rw [tail]
        exact fun breaks => other breaks.eq_feed
      split
      · rename_i star
        refine .inr ⟨nonempty, ?_, fun breaks => absurd breaks (unbroken (by rw [star]; decide))⟩
        cases closed : blockComment (cursor.inside context) (cursor.inside context) 2 with
        | error error => trivial
        | ok comment =>
            obtain ⟨more, after⟩ := blockComment_after closed
            change context.Passed comment.2
            rw [after]
            exact passed_of_beyond nonempty (by rw [rest, List.length_singleton]; omega)
      · split
        · rename_i slash
          refine .inr ⟨nonempty, ?_,
            fun breaks => absurd breaks (unbroken (by rw [slash]; decide))⟩
          apply passed_of_beyond nonempty
          rw [longer, slash, rest]
          simp [Text.countWhile_cons]
        · exact .inl rfl

theorem commentAt_agrees (remaining : cursor.rest ≠ []) :
    Agrees context (commentAt cursor) (commentAt (cursor.inside context)) := by
  obtain ⟨first, behind, rest⟩ := List.exists_cons_of_ne_nil remaining
  have longer : (cursor.inside context).rest = first :: (behind ++ context.tail) := by
    rw [Cursor.rest_inside, rest]
    rfl
  by_cases hash : first = '#'
  · subst hash
    rw [commentAt_hash rest, commentAt_hash longer]
    exact lineComment_agrees .layout
  · by_cases slash : first = '/'
    · subst slash
      cases behind with
      | nil => exact commentAt_agrees_of_split rest
      | cons second behind =>
          rw [commentAt_slash rest, commentAt_slash longer]
          split
          · exact blockComment_agrees .layout (by rw [rest]; simp)
          · split
            · exact lineComment_agrees .layout
            · exact .inl rfl
    · rw [commentAt_of_ne rest slash hash, commentAt_of_ne longer slash hash]
      exact .inl rfl

theorem singleQuoted_agrees {behind : Text} (rest : cursor.rest = '\'' :: behind) :
    Agrees context (quotedAt cursor) (quotedAt (cursor.inside context)) := by
  have longer : (cursor.inside context).rest = '\'' :: (behind ++ context.tail) := by
    rw [Cursor.rest_inside, rest]
    rfl
  have size : cursor.rest.length = 1 + behind.length := by
    rw [rest, List.length_cons, Nat.add_comm]
  have outcome := SingleQuoted.body_append behind context.tail
  simp only [quotedAt, rest, longer]
  cases closed : SingleQuoted.body behind with
  | some read =>
      obtain ⟨value, count⟩ := read
      rw [closed] at outcome
      have same := outcome.resolve_right (by simp)
      have bound := SingleQuoted.body_within closed
      left
      simp only [same]
      rw [Cursor.advance_inside (.inl (by omega))]
      rfl
  | none =>
      apply agrees_of_unclosed
      · intro nil
        rw [nil, List.append_nil, closed]
        simp only [unclosed_spanOf_inside nil]
      · intro nonempty
        cases further : SingleQuoted.body (behind ++ context.tail) with
        | none => trivial
        | some read =>
            rw [closed, further] at outcome
            have far := (outcome.resolve_left (by simp)).2 read rfl
            exact passed_of_beyond nonempty (by omega)

theorem quotedAt_agrees (remaining : cursor.rest ≠ []) :
    Agrees context (quotedAt cursor) (quotedAt (cursor.inside context)) := by
  obtain ⟨first, behind, rest⟩ := List.exists_cons_of_ne_nil remaining
  have longer : (cursor.inside context).rest = first :: (behind ++ context.tail) := by
    rw [Cursor.rest_inside, rest]
    rfl
  by_cases double : first = '"'
  · subst double
    left
    simp only [quotedAt, rest, longer]
    rw [Cursor.advance_inside (.inl (by rw [rest]; simp))]
    rfl
  · by_cases single : first = '\''
    · subst single
      exact singleQuoted_agrees rest
    · rw [ModeStack.Machine.quotedAt_none rest double single,
        ModeStack.Machine.quotedAt_none longer double single]
      exact .inl rfl

/-- A doc string that is recognised goes on behind its header. -/
theorem passed_of_docString {header : DocString.Header}
    (passed : context.Passed (cursor.advance (header.length + header.lineBreak))) :
    Overruns context (some (ModeStack.docString cursor (some header))) := by
  unfold ModeStack.docString
  dsimp only
  split
  · exact passed
  · split
    · trivial
    · exact passed.mono (.advance _ _)

theorem DocString.nowdocBody_within {label : Label} {atLineStart : Bool} {text value : Text}
    (closed : nowdocBody label atLineStart text = some value) :
    value.length + label.length ≤ text.length := by
  obtain ⟨behind, whole, closes⟩ := nowdocBody_some closed
  simp only [Label.closes, Bool.and_eq_true] at closes
  have fits := (List.isPrefixOf_iff_prefix.mp closes.1).length_le
  rw [whole, List.length_append]
  exact Nat.add_le_add_left fits _

theorem nowdoc_agrees {header : DocString.Header} (isNowdoc : header.form = .nowdoc)
    (proper : header.label.Proper)
    (bound : header.length + header.lineBreak ≤ cursor.rest.length) :
    Agrees context (some (ModeStack.docString cursor (some header)))
      (some (ModeStack.docString (cursor.inside context) (some header))) := by
  have body : (cursor.inside context).advance (header.length + header.lineBreak) =
      (cursor.advance (header.length + header.lineBreak)).inside context :=
    Cursor.advance_inside (.inl bound)
  unfold ModeStack.docString
  simp only [isNowdoc, body, Cursor.rest_inside]
  generalize cursor.advance (header.length + header.lineBreak) = start
  have outcome := DocString.nowdocBody_append proper true start.rest context.tail
  cases closed : DocString.nowdocBody header.label true start.rest with
  | none =>
      apply agrees_of_unclosed
      · intro nil
        rw [nil, List.append_nil, closed]
        simp only [unclosed_spanOf_inside nil]
      · intro nonempty
        cases further : DocString.nowdocBody header.label true (start.rest ++ context.tail) with
        | none => trivial
        | some value =>
            rw [closed, further] at outcome
            have far := (outcome.resolve_left (by simp)).1 value rfl
            exact passed_of_beyond nonempty far
  | some value =>
      rw [closed] at outcome
      rcases outcome with same | ⟨beyond, missing⟩
      · left
        simp only [same, Cursor.advance_inside (.inl (DocString.nowdocBody_within closed))]
        rfl
      · have unbroken : ¬ context.tail.Breaks := fun breaks => by cases missing breaks.stops
        have nonempty : context.tail ≠ [] := fun nil => unbroken (by rw [nil]; rfl)
        refine .inr ⟨nonempty, ?_, fun breaks => absurd breaks unbroken⟩
        cases further : DocString.nowdocBody header.label true (start.rest ++ context.tail) with
        | none => trivial
        | some longer => exact passed_of_beyond nonempty (beyond longer further)

theorem docString_agrees {behind : Text} (rest : cursor.rest = '<' :: '<' :: '<' :: behind) :
    Agrees context (some (ModeStack.docString cursor (DocString.header? behind)))
      (some (ModeStack.docString (cursor.inside context)
        (DocString.header? (behind ++ context.tail)))) := by
  have size : cursor.rest.length = 3 + behind.length := by
    rw [rest]
    simp only [List.length_cons]
    omega
  have outcome := DocString.header?_append behind context.tail
  cases headed : DocString.header? behind with
  | some header =>
      obtain ⟨proper, bound⟩ := DocString.header?_within headed
      rw [← size] at bound
      rw [headed] at outcome
      rw [outcome.resolve_right (by simp)]
      cases form : header.form with
      | nowdoc => exact nowdoc_agrees form proper bound
      | heredoc =>
          left
          simp only [ModeStack.docString, form, Cursor.advance_inside (.inl bound)]
          rfl
  | none =>
      apply agrees_of_unclosed
      · intro nil
        rw [nil, List.append_nil, headed, ModeStack.docString,
          Cursor.spanOf_inside (.inr nil)]
        rfl
      · intro nonempty
        cases further : DocString.header? (behind ++ context.tail) with
        | none => trivial
        | some header =>
            rw [headed, further] at outcome
            have far := (outcome.resolve_left (by simp)).2 header rfl
            exact passed_of_docString (passed_of_beyond nonempty (by omega))

theorem exists_of_opener {rest : Text} (opener : "<<<".toList.isPrefixOf rest) :
    ∃ behind, rest = '<' :: '<' :: '<' :: behind := by
  obtain ⟨behind, whole⟩ := List.isPrefixOf_iff_prefix.mp opener
  exact ⟨behind, whole.symm⟩

theorem overruns_of_docString {header : Option DocString.Header}
    (nonempty : context.tail ≠ []) (short : cursor.rest.length < 3) :
    Overruns context (some (ModeStack.docString (cursor.inside context) header)) := by
  cases header with
  | none => trivial
  | some header =>
      have positive : 3 ≤ header.length := by
        unfold DocString.Header.length
        split <;> omega
      exact passed_of_docString (passed_of_beyond nonempty (by omega))

theorem docStringAt_agrees :
    Agrees context (docStringAt cursor) (docStringAt (cursor.inside context)) := by
  by_cases opener : "<<<".toList.isPrefixOf cursor.rest
  · obtain ⟨behind, rest⟩ := exists_of_opener opener
    have longer : (cursor.inside context).rest = '<' :: '<' :: '<' :: (behind ++ context.tail) := by
      rw [Cursor.rest_inside, rest]
      rfl
    rw [ModeStack.docStringAt_eq rest, ModeStack.docStringAt_eq longer]
    exact docString_agrees rest
  · rw [ModeStack.Machine.docStringAt_none opener]
    by_cases split : "<<<".toList.isPrefixOf (cursor.inside context).rest
    · -- The end of the text splits the opener, so that no line feed can follow.
      have short : cursor.rest.length < 3 := by
        apply Nat.lt_of_not_le
        intro fits
        replace fits : "<<<".toList.length ≤ cursor.rest.length := fits
        rw [Cursor.rest_inside, Text.isPrefixOf_append_of_length_le context.tail fits] at split
        exact opener split
      have unbroken : ¬ context.tail.Breaks := by
        intro breaks
        have plain := Text.Plain.of_isPrefixOf split (isPlain_of_all (by decide))
        exact Nat.not_le_of_lt short (plain.le_length breaks)
      have nonempty : context.tail ≠ [] := fun nil => unbroken (by rw [nil]; rfl)
      obtain ⟨behind, rest⟩ := exists_of_opener split
      rw [ModeStack.docStringAt_eq rest]
      exact .inr ⟨nonempty, overruns_of_docString nonempty short,
        fun breaks => absurd breaks unbroken⟩
    · rw [ModeStack.Machine.docStringAt_none split]
      exact .inl rfl

theorem recognise_agrees (markup : Bool) (remaining : cursor.rest ≠ []) :
    Agrees context (recognise markup cursor) (recognise markup (cursor.inside context)) :=
  (layoutAt_agrees remaining).orElse <| markerAt_agrees.orElse <|
    (commentAt_agrees remaining).orElse <| (quotedAt_agrees remaining).orElse <|
    docStringAt_agrees.orElse <| (tokenAt_agrees number?_local number?_plain).orElse <|
    (tokenAt_agrees word?_local word?_plain).orElse <|
    (tokenAt_agrees dollar?_local dollar?_plain).orElse <|
    (elementAt_agrees markup).orElse (tokenAt_agrees punctuation?_local punctuation?_plain)

/-- A scan inside of a context is the counterpart of the scan in the text alone, or
it fails or goes over the end of the text.  If a line feed follows the text, it
differs only where the end of the text cuts something short. -/
theorem scan_agrees (markup : Bool) (remaining : cursor.rest ≠ []) :
    Agrees context (some (scan markup cursor)) (some (scan markup (cursor.inside context))) := by
  have unknown : unknownTokenAt (cursor.inside context) =
      (unknownTokenAt cursor).shift context.bytes context.lines := by
    rw [unknownTokenAt, Cursor.spanOf_inside (.inl (List.length_pos_iff.mpr remaining))]
    rfl
  have whole (cursor : Cursor) : some (scan markup cursor) =
      (recognise markup cursor <|> some (.error (unknownTokenAt cursor))) := by
    unfold scan
    cases recognise markup cursor with
    | none => rfl
    | some result => rfl
  rw [whole, whole, unknown]
  exact (recognise_agrees markup remaining).orElse (.inl rfl)

end HackLexer
