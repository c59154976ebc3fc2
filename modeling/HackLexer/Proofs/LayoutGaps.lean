import HackLexer.Proofs.LayoutGaps.Behind
import HackLexer.Proofs.LayoutGaps.Front
import HackLexer.Proofs.MarkupNesting

/-!
# Layout between tokens

Layout at which the lexer scans outside of literals and of closing tags may be
exchanged for other layout and whole comments.  The text gives the same tokens as
before, those behind the gap at their new places, and the comments of the gap are added
to the others.

In front of the gap, the lexer does not see what stands in the gap.  It passes over the
gap in both texts, and behind it the two lexers are twins.  The main statement is
`tokenize_regapped`.
-/

namespace HackLexer

/-- The outcome for the original text, and for the changed text. -/
structure Tokenized.Regapped (gap : LayoutGap) (result changed : Tokenized) : Prop where
  tokens : List.Forall₂ (Token.Regapped gap) result.tokens changed.tokens
  comments : gap.Regaps result.comments changed.comments

namespace LayoutGap

/-- The front part stands before the gap of the original text. -/
def oldContext (gap : LayoutGap) : Context :=
  .ofTail (gap.old ++ gap.back)

/-- The front part stands before the gap of the changed text. -/
def newContext (gap : LayoutGap) : Context :=
  .ofTail (gap.new ++ gap.back)

end LayoutGap

variable {gap : LayoutGap}

section Front

variable {place limit : Cursor}

theorem Cursor.IsPlaceOf.before (there : place.IsPlaceOf gap.front) :
    (place.inside gap.oldContext).Before gap (place.inside gap.newContext) where
  offset := rfl
  line := rfl
  rests := by
    obtain ⟨front, whole, offset, _⟩ := there.exists_front
    refine ⟨_, ?_, rfl, rfl⟩
    have bytes := congrArg Text.byteLength whole
    rw [Text.byteLength_append] at bytes
    simp only [Cursor.inside, LayoutGap.oldContext, Context.ofTail, LayoutGap.start]
    omega

theorem Lexeme.PlacedIn.twins {lexeme : Lexeme} (placed : lexeme.PlacedIn gap.front limit) :
    (lexeme.inside gap.oldContext).Twins gap (lexeme.inside gap.newContext) := by
  have stop : lexeme.stop.IsPlaceOf gap.front := Cursor.Reaches.trans placed.start placed.stop
  exact
    { kind := rfl
      literal := rfl
      start := .inl placed.start.before
      stop := .inl stop.before
      valued := fun _ later =>
        absurd gap.start_lt_stop (Nat.not_lt_of_le (Nat.le_trans later stop.before.offset_le)) }

/-- Outside of closing tags, what an element holds may be exchanged for its twins. -/
theorem Element.twins_of_placed {element : Element}
    (placed : ∀ held, held ∈ element.lexemes → held.PlacedIn gap.front limit)
    (unclosing : element.phase.isClosing = false) :
    (element.inside gap.oldContext).Twins gap (element.inside gap.newContext) where
  name := (placed element.name (by simp [Element.lexemes])).twins
  content := by
    simp only [Element.inside, List.forall₂_map_left_iff, List.forall₂_map_right_iff,
      List.forall₂_same]
    exact fun held member => (placed held (by simp [Element.lexemes, member])).twins
  phase := by
    obtain ⟨name, content, phase⟩ := element
    cases phase with
    | openingTag => exact .openingTag
    | children => exact .children
    | closingTag lt slash names => cases unclosing

/-- A token in front of the gap is the same in both texts. -/
theorem Token.PlacedIn.regapped {token : Token} (placed : token.PlacedIn gap.front limit) :
    token.Regapped gap token where
  kind := rfl
  text := rfl
  before _ := ⟨rfl, rfl⟩
  behind later := by
    obtain ⟨lexeme, there, rfl⟩ := placed
    have earlier : lexeme.start.offset ≤ gap.start := there.start.offset_le_byteLength
    exact absurd gap.start_lt_stop (Nat.not_lt_of_le (Nat.le_trans later earlier))

theorem Comment.PlacedIn.stop_le {comment : Comment}
    (placed : comment.PlacedIn gap.front limit) : comment.span.stop ≤ gap.start := by
  obtain ⟨start, stop, there, reaches, _, span⟩ := placed
  rw [span, reaches.stop_spanTo]
  exact Cursor.IsPlaceOf.offset_le_byteLength (Cursor.Reaches.trans there reaches)

end Front

theorem Element.isClosing_inside (context : Context) (element : Element) :
    (element.inside context).phase.isClosing = element.phase.isClosing := by
  obtain ⟨name, content, phase⟩ := element
  cases phase with
  | openingTag => rfl
  | children => rfl
  | closingTag lt slash names => rfl

namespace Lexer

theorem Outside.of_inside {context : Context} {earlier : Array Comment} {lexer : Lexer}
    (outside : (lexer.inside context earlier).Outside) : lexer.Outside where
  literal := Option.map_eq_none_iff.mp outside.literal
  interpolations := List.map_eq_nil_iff.mp outside.interpolations

/-- A lexer at the end of the front part, behind what follows the front part and with
the comments of that. -/
def pastGap (between back : Text) (comments : List Comment) (alone : Lexer) : Lexer :=
  { alone.inside (.ofTail (between ++ back)) #[] with
    cursor := (alone.cursor.inside (.ofTail (between ++ back))).advance between.length
    comments := alone.comments ++ comments.toArray }

section Gap

variable {alone : Lexer} (finished : alone.cursor.rest = [])

include finished

theorem cursor_pastGap (between back : Text) (comments : List Comment) :
    (alone.pastGap between back comments).cursor =
      { offset := alone.cursor.offset + Text.byteLength between
        line := alone.cursor.line + Text.lineFeeds between
        rest := back } := by
  simp [pastGap, Cursor.advance, Cursor.inside, Context.ofTail, finished]

theorem drain_pastGap {front between : Text} {comments : List Comment} (back : Text)
    (place : alone.cursor.IsPlaceOf front) (ready : alone.ready = []) (outside : alone.Outside)
    (fills : Fills (Text.byteLength front) between comments) :
    (alone.inside (.ofTail (between ++ back)) #[]).drain =
      (alone.pastGap between back comments).drain := by
  have here : (alone.inside (.ofTail (between ++ back)) #[]).cursor.offset =
      Text.byteLength front := by
    change 0 + alone.cursor.offset = _
    rw [Nat.zero_add, (place.measures_of_rest_nil finished).1]
  rw [drain_of_fills (by rw [ready_ofTail, ready]) (outside.inside _ _).literal
    (rest_ofTail finished _) (here ▸ fills), comments_ofTail]
  rfl

/-- Behind the gap, the two lexers are twins. -/
theorem twins_pastGap {tokens : List Token} (run : Run gap.front tokens alone)
    (ready : alone.ready = []) (outside : alone.Outside)
    (unclosing : ∀ element, element ∈ alone.elements → element.phase.isClosing = false) :
    (alone.pastGap gap.old gap.back []).Twins gap
      (alone.pastGap gap.new gap.back gap.comments) where
  literal := (outside.inside gap.oldContext #[]).literal
  literalTwin := (outside.inside gap.newContext #[]).literal
  interpolations := (outside.inside gap.oldContext #[]).interpolations
  interpolationsTwin := (outside.inside gap.newContext #[]).interpolations
  cursor := by
    rw [cursor_pastGap finished, cursor_pastGap finished,
      (run.placed.cursor.measures_of_rest_nil finished).1]
    exact
      { rest := rfl
        offset := Nat.add_right_comm _ _ _
        line := Nat.add_right_comm _ _ _
        later := Nat.le_refl _ }
  elements := by
    simp only [pastGap, Lexer.inside, List.forall₂_map_left_iff, List.forall₂_map_right_iff,
      List.forall₂_same]
    intro element member
    apply Element.twins_of_placed _ (unclosing element member)
    · exact alone.cursor
    · intro held inside
      apply run.placed.held_before_cursor outside.literal outside.interpolations
      exact List.mem_flatMap.mpr ⟨element, List.mem_reverse.mpr member, inside⟩
  ready := by
    simp only [pastGap, Lexer.inside, ready, List.map_nil]
    exact .nil
  comments := by
    refine ⟨alone.comments.toList, [], [], ?_, ?_, ?_, .nil⟩
    · simp [pastGap]
    · simp [pastGap]
    · intro comment member
      exact (run.placed.comments comment (Array.mem_toList_iff.mp member)).stop_le

/-- Passing over the layout of the original text keeps what has been read in order. -/
theorem inOrder_pastGap {text : Text} {tokens : List Token}
    (inOrder : InOrder text tokens (alone.inside gap.oldContext #[])) (outside : alone.Outside) :
    InOrder text tokens (alone.pastGap gap.old gap.back []) := by
  have rest : (alone.inside gap.oldContext #[]).cursor.rest = gap.old ++ gap.back :=
    rest_ofTail finished _
  have layout : ((alone.inside gap.oldContext #[]).cursor.rest.take gap.old.length).all
      isLayout := by
    rw [rest, List.take_left]
    exact List.all_eq_true.mpr gap.layout
  have passed := inOrder.pass (outside.inside _ _) layout
  rw [LayoutGap.oldContext, comments_ofTail] at passed
  rw [pastGap, Array.append_empty]
  exact passed

end Gap

/-- A lexer that scans at the gap comes from the front part. -/
theorem Run.at_gap {lexer : Lexer} {tokens : List Token} (run : Run gap.original tokens lexer)
    (here : lexer.cursor.offset = gap.start) :
    ∃ alone, Run gap.front tokens alone ∧ lexer = alone.inside gap.oldContext #[] ∧
      alone.cursor.rest = [] ∧
      (ofText gap.changed).drain =
        drainedBehind tokens (alone.inside gap.newContext #[]).drain := by
  have original : gap.original = gap.front ++ (gap.old ++ gap.back) := List.append_assoc _ _ _
  have changed : gap.changed = gap.front ++ (gap.new ++ gap.back) := List.append_assoc _ _ _
  have rest : lexer.cursor.rest = gap.old ++ gap.back := by
    rw [← run.placed.cursor.dropBytes_offset, here, original]
    exact Text.dropBytes_append gap.front _
  have within : ¬ gap.oldContext.Passed lexer.cursor := by
    rw [Context.Passed, rest]
    exact Nat.lt_irrefl _
  rw [original] at run
  obtain ⟨alone, aloneRun, rfl, drained⟩ := run.inFront
    (List.append_ne_nil_of_left_ne_nil gap.nonempty _) (gap.separates.append gap.back) within
  refine ⟨alone, aloneRun, rfl, ?_, ?_⟩
  · exact List.append_left_eq_self.mp rest
  · rw [changed]
    exact drained

/-- The lexer scans next, outside of literals and of closing tags. -/
structure ScansPlainly (lexer : Lexer) : Prop extends lexer.Outside where
  ready : lexer.ready = []
  unclosing : ∀ element, element ∈ lexer.elements → element.phase.isClosing = false

def scansPlainly (lexer : Lexer) : Bool :=
  lexer.literal.isNone && lexer.interpolations.isEmpty && lexer.ready.isEmpty &&
    lexer.elements.all fun element => !element.phase.isClosing

theorem scansPlainly_iff (lexer : Lexer) : lexer.scansPlainly = true ↔ lexer.ScansPlainly := by
  simp only [scansPlainly, Bool.and_eq_true, Option.isNone_iff_eq_none, List.isEmpty_iff,
    List.all_eq_true, Bool.not_eq_true']
  constructor
  · rintro ⟨⟨⟨literal, interpolations⟩, ready⟩, unclosing⟩
    exact ⟨⟨literal, interpolations⟩, ready, unclosing⟩
  · rintro ⟨⟨literal, interpolations⟩, ready, unclosing⟩
    exact ⟨⟨⟨literal, interpolations⟩, ready⟩, unclosing⟩

/-- Follows the steps of a lexer and looks for a scan at an offset. -/
def comesToScan (offset : Nat) (lexer : Lexer) : Bool :=
  (lexer.cursor.offset == offset && lexer.scansPlainly) ||
    match _result : lexer.step with
    | .moved after => comesToScan offset after
    | .pulled (.token _ after) => comesToScan offset after
    | .pulled _ => false
termination_by lexer.size
decreasing_by
  · exact size_of_step_moved _result
  · exact size_of_step_token _result

theorem comesToScan_eq (offset : Nat) (lexer : Lexer) :
    lexer.comesToScan offset =
      ((lexer.cursor.offset == offset && lexer.scansPlainly) ||
        match lexer.step.onward? with
        | some (_, after) => after.comesToScan offset
        | none => false) := by
  rw [comesToScan]
  split <;> rename_i stepped
  · rw [stepped]
    rfl
  · rw [stepped]
    rfl
  · rename_i answer noToken
    rw [stepped]
    cases answer with
    | token token after => exact absurd rfl (noToken token after)
    | endOfText after => rfl
    | failed error after => rfl

theorem comesToScan_of_onward {offset : Nat} {lexer after : Lexer} {handed : List Token}
    (onward : lexer.step.onward? = some (handed, after)) (comes : after.comesToScan offset) :
    lexer.comesToScan offset := by
  rw [comesToScan_eq, onward]
  exact Bool.or_eq_true_iff.mpr (.inr comes)

variable {text : Text} {tokens : List Token} {lexer : Lexer} {offset : Nat}

theorem Run.comesToScan (run : Run text tokens lexer) (comes : lexer.comesToScan offset) :
    (ofText text).comesToScan offset := by
  induction run with
  | start => exact comes
  | @moved tokens lexer after run step ih =>
      exact ih (comesToScan_of_onward (by rw [step]; rfl : _ = some ([], after)) comes)
  | @token tokens lexer after token run step ih =>
      exact ih (comesToScan_of_onward (by rw [step]; rfl : _ = some ([token], after)) comes)
  | endOfText run step ih =>
      rw [(endOfText_step step).1] at comes
      exact ih comes

theorem exists_scan (run : Run text tokens lexer) (comes : lexer.comesToScan offset) :
    ∃ tokens last, Run text tokens last ∧ last.cursor.offset = offset ∧ last.ScansPlainly := by
  induction size : lexer.size using Nat.strongRecOn generalizing lexer tokens with
  | ind size ih =>
      subst size
      rw [comesToScan_eq, Bool.or_eq_true, Bool.and_eq_true, beq_iff_eq, scansPlainly_iff] at comes
      rcases comes with ⟨here, plainly⟩ | later
      · exact ⟨tokens, lexer, run, here, plainly⟩
      · split at later
        · rename_i handed after onward
          exact ih _ (size_of_onward onward) (run.goOn onward) later rfl
        · cases later

end Lexer

/-- In the course of lexing the original text, the lexer scans at the gap, outside of
literals and of closing tags. -/
def LayoutGap.IsScanned (gap : LayoutGap) : Prop :=
  ∃ tokens lexer, Lexer.Run gap.original tokens lexer ∧ lexer.cursor.offset = gap.start ∧
    lexer.ScansPlainly

theorem LayoutGap.isScanned_iff (gap : LayoutGap) :
    (Lexer.ofText gap.original).comesToScan gap.start = true ↔ gap.IsScanned := by
  constructor
  · exact Lexer.exists_scan .start
  · rintro ⟨tokens, lexer, run, here, plainly⟩
    apply run.comesToScan
    rw [Lexer.comesToScan_eq, here, (Lexer.scansPlainly_iff lexer).mpr plainly]
    simp

instance (gap : LayoutGap) : Decidable gap.IsScanned :=
  decidable_of_iff _ gap.isScanned_iff

theorem drain_of_tokenize {text : Text} {result : Tokenized} (lexed : tokenize text = .ok result) :
    ∃ last, (Lexer.ofText text).drain = .ok (result.tokens, last) ∧
      result.comments = last.comments.toList := by
  unfold tokenize at lexed
  split at lexed
  · cases lexed
  · rename_i last drained
    cases lexed
    exact ⟨last, drained, rfl⟩

/-- Layout between tokens is insignificant: where the lexer scans at layout outside of
literals and closing tags, other layout and whole comments may stand instead. -/
theorem tokenize_regapped (gap : LayoutGap) {result : Tokenized}
    (lexed : tokenize gap.original = .ok result) (scanned : gap.IsScanned) :
    ∃ changed, tokenize gap.changed = .ok changed ∧ result.Regapped gap changed := by
  obtain ⟨tokens, lexer, run, here, outside, ready, unclosing⟩ := scanned
  obtain ⟨last, drained, comments⟩ := drain_of_tokenize lexed
  rw [run.drain_eq] at drained
  obtain ⟨more, drainedBack, handed⟩ := Lexer.drainedBehind_eq_ok drained
  obtain ⟨alone, aloneRun, rfl, finished, drainedFront⟩ := run.at_gap here
  have aloneReady : alone.ready = [] := by rwa [LayoutGap.oldContext, Lexer.ready_ofTail] at ready
  have aloneUnclosing (element : Element) (member : element ∈ alone.elements) :
      element.phase.isClosing = false := by
    rw [← element.isClosing_inside gap.oldContext]
    exact unclosing _ (List.mem_map_of_mem member)
  have place := aloneRun.placed.cursor
  have twins := Lexer.twins_pastGap finished aloneRun aloneReady outside.of_inside aloneUnclosing
  rw [LayoutGap.oldContext, Lexer.drain_pastGap finished gap.back place aloneReady
    outside.of_inside (.of_layouts _ gap.layout)] at drainedBack
  obtain ⟨moreChanged, lastTwin, drainedTwin, alike, regaps⟩ :=
    twins.drain (Lexer.inOrder_pastGap finished run.inOrder outside.of_inside) drainedBack
  have front : List.Forall₂ (Token.Regapped gap) tokens tokens :=
    List.forall₂_same.mpr fun token member => (aloneRun.placed.tokens token member).regapped
  refine ⟨⟨tokens ++ moreChanged, lastTwin.comments.toList⟩, ?_, ?_, ?_⟩
  · rw [tokenize, drainedFront, LayoutGap.newContext,
      Lexer.drain_pastGap finished gap.back place aloneReady outside.of_inside gap.fills,
      drainedTwin]
    rfl
  · rw [handed]
    exact List.rel_append front alike
  · rw [comments]
    exact regaps

/-- A closing tag with a blank behind its `<`, and with a line feed and two comments
there instead. -/
theorem closing_tag_regapped :
    ∃ gap : LayoutGap, gap.original = "a <b>< /b> c".toList ∧
      gap.changed = "a <b><\n/*d*/# e\n/b> c".toList ∧
      gap.comments =
        [{ kind := .block, span := ⟨7, "/*d*/".toList⟩ },
          { kind := .line, span := ⟨12, "# e\n".toList⟩ }] ∧
      gap.IsScanned ∧
      ∃ result changed, tokenize gap.original = .ok result ∧
        result.tokens.map Token.kind = [.word, .xhpName, .gt, .xhpClosing, .word] ∧
        tokenize gap.changed = .ok changed ∧ result.Regapped gap changed := by
  let gap : LayoutGap :=
    { front := "a <b><".toList
      old := [' ']
      new := "\n/*d*/# e\n".toList
      back := "/b> c".toList
      comments :=
        [{ kind := .block, span := ⟨7, "/*d*/".toList⟩ },
          { kind := .line, span := ⟨12, "# e\n".toList⟩ }]
      nonempty := nofun
      layout := List.forall_mem_singleton.mpr rfl
      separates := ⟨'\n', "/*d*/# e\n".toList, rfl, rfl⟩
      fills := .layout rfl
        (.comment (@WholeComment.block ['d'] (by decide) rfl)
          (.comment (@WholeComment.line ['#'] [' ', 'e'] (.inr rfl) (by decide) rfl)
            (.nothing _))) }
  let result : Tokenized :=
    { tokens :=
        [{ kind := .word, span := ⟨0, "a".toList⟩, line := 0, literal := none },
         { kind := .xhpName, span := ⟨2, "<b".toList⟩, line := 0, literal := none },
         { kind := .gt, span := ⟨4, ">".toList⟩, line := 0, literal := none },
         { kind := .xhpClosing, span := ⟨5, "< /b>".toList⟩, line := 0
           literal := some "b".toList },
         { kind := .word, span := ⟨11, "c".toList⟩, line := 0, literal := none }]
      comments := [] }
  have lexed : tokenize gap.original = .ok result := by decide +kernel
  have scanned : gap.IsScanned := by decide +kernel
  obtain ⟨changed, lexedChanged, regapped⟩ := tokenize_regapped gap lexed scanned
  exact ⟨gap, rfl, rfl, rfl, scanned, result, changed, lexed, rfl, lexedChanged, regapped⟩

end HackLexer
