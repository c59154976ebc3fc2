import HackLexer.Proofs.ByteAccounting
import HackLexer.Proofs.LayoutGaps.Twins
import HackLexer.Proofs.Relexing

/-!
# Lexing behind the gap

Behind the gap, the lexer of the original text and the lexer of the changed text read
the same characters.  What they find is the same up to where it stands, and what they
hold from before the gap receives it alike: their strides are twins.

By induction on strides, whatever the one lexer hands out, the other hands out as well.
-/

namespace HackLexer

variable {gap : LayoutGap}

section Reading

variable {cursor twin : Cursor}

theorem Cursor.atStart_inside (cursor : Cursor) :
    (Cursor.atStart cursor.rest).inside (cursor.around []) = cursor := by
  obtain ⟨offset, line, rest⟩ := cursor
  simp only [atStart, inside, around, Nat.add_zero, List.append_nil]

theorem Cursor.Behind.inside (behind : cursor.Behind gap twin) (place : Cursor) :
    (place.inside (cursor.around [])).Behind gap (place.inside (twin.around [])) where
  rest := rfl
  offset := by
    have here := behind.offset
    simp only [Cursor.inside, Cursor.around]
    omega
  line := by
    have here := behind.line
    simp only [Cursor.inside, Cursor.around]
    omega
  later := Nat.le_trans behind.later (Nat.le_add_right _ _)

theorem Cursor.Behind.lexeme (behind : cursor.Behind gap twin) (lexeme : Lexeme) :
    (lexeme.inside (cursor.around [])).Twins gap (lexeme.inside (twin.around [])) where
  kind := rfl
  literal := rfl
  start := .inr (behind.inside lexeme.start)
  stop := .inr (behind.inside lexeme.stop)
  valued earlier := by
    have later := (behind.inside lexeme.start).later
    have apart := gap.start_lt_stop
    change _ ≤ (lexeme.inside (cursor.around [])).start.offset at later
    omega

theorem Cursor.Behind.comment (behind : cursor.Behind gap twin) (comment : Comment) :
    (comment.shift cursor.offset).Moved gap (comment.shift twin.offset) where
  kind := rfl
  span :=
    { text := rfl
      start := by
        have here := behind.offset
        simp only [Comment.shift, Span.shift]
        omega
      later := Nat.le_trans behind.later (Nat.le_add_right _ _) }

theorem LayoutGap.Regaps.inside {comments changed : Array Comment}
    (regaps : gap.Regaps comments.toList changed.toList) (behind : cursor.Behind gap twin)
    (more : Array Comment) :
    gap.Regaps (commentsInside (cursor.around []) comments more).toList
      (commentsInside (twin.around []) changed more).toList := by
  obtain ⟨before, passed, moved, whole, wholeChanged, ended, alike⟩ := regaps
  have further : List.Forall₂ (Comment.Moved gap)
      (more.toList.map (Comment.shift cursor.offset))
      (more.toList.map (Comment.shift twin.offset)) := by
    simp only [List.forall₂_map_left_iff, List.forall₂_map_right_iff, List.forall₂_same]
    exact fun comment _ => behind.comment comment
  refine ⟨before, _, _, ?_, ?_, ended, List.rel_append alike further⟩
  · simp [commentsInside, whole, Cursor.around]
  · simp [commentsInside, wholeChanged, Cursor.around]

/-- A scan finds what it finds in the rest alone. -/
theorem scan_eq_inside (markup : Bool) (remaining : cursor.rest ≠ []) :
    scan markup cursor =
      outcomeInside (cursor.around []) (Scanned.inside (cursor.around []))
        (scan markup (.atStart cursor.rest)) := by
  have agrees := @scan_agrees (cursor.around []) (.atStart cursor.rest) markup remaining
  rw [cursor.atStart_inside] at agrees
  exact Option.some.inj (agrees.resolve_right fun differs => differs.1 rfl)

/-- Scans behind the gap find the same. -/
theorem scan_behind {markup : Bool} (behind : cursor.Behind gap twin)
    (remaining : cursor.rest ≠ []) :
    (∃ error, scan markup cursor = .error error) ∨
      ∃ scanned : Scanned, scan markup cursor = .ok (scanned.inside (cursor.around [])) ∧
        scan markup twin = .ok (scanned.inside (twin.around [])) := by
  have remainingTwin : twin.rest ≠ [] := by rwa [behind.rest]
  rw [scan_eq_inside markup remaining, scan_eq_inside markup remainingTwin, behind.rest]
  cases scan markup (.atStart cursor.rest) with
  | error error => exact .inl ⟨_, rfl⟩
  | ok scanned => exact .inr ⟨scanned, rfl, rfl⟩

theorem readLiteral_behind (behind : cursor.Behind gap twin) {form : LiteralForm}
    (proper : form.Proper) (start place : Cursor) {comments changed : Array Comment}
    {read : Piece (place.inside (cursor.around []))}
    (regaps : gap.Regaps comments.toList changed.toList)
    (success : readLiteral (start.inside (cursor.around [])) form
      (place.inside (cursor.around [])) comments = .ok read) :
    ∃ readTwin, readLiteral (start.inside (twin.around [])) form
        (place.inside (twin.around [])) changed = .ok readTwin ∧
      readTwin.text = read.text ∧ read.after.Behind gap readTwin.after ∧
      gap.Regaps read.comments.toList readTwin.comments.toList := by
  have agrees (cursor : Cursor) (comments : Array Comment) :=
    ((reading_agrees (cursor.around []) place).1 start form #[] comments _ proper
      rfl).resolve_right fun differs => differs.1 rfl
  have alike := agrees cursor comments
  have alikeTwin := agrees twin changed
  have same (context : Context) (earlier : Array Comment) :
      commentsInside context earlier #[] = earlier := by simp [commentsInside]
  rw [same, success] at alike
  rw [same] at alikeTwin
  cases alone : readLiteral start form place #[] with
  | error error =>
      rw [alone] at alike
      exact alike.elim
  | ok piece =>
      rw [alone] at alike alikeTwin
      obtain ⟨text, after, passed⟩ := alike
      cases reads : readLiteral (start.inside (twin.around [])) form
          (place.inside (twin.around [])) changed with
      | error error =>
          rw [reads] at alikeTwin
          exact alikeTwin.elim
      | ok readTwin =>
          rw [reads] at alikeTwin
          obtain ⟨textTwin, afterTwin, passedTwin⟩ := alikeTwin
          refine ⟨readTwin, rfl, textTwin.trans text.symm, ?_, ?_⟩
          · rw [after, afterTwin]
            exact behind.inside piece.after
          · rw [passed, passedTwin]
            exact regaps.inside behind piece.comments

end Reading

namespace Lexer

/-- A lexer of the original text behind the gap, and its twin. -/
structure Twins (gap : LayoutGap) (lexer twin : Lexer) : Prop where
  literal : lexer.literal = none
  literalTwin : twin.literal = none
  interpolations : lexer.interpolations = []
  interpolationsTwin : twin.interpolations = []
  cursor : lexer.cursor.Behind gap twin.cursor
  elements : List.Forall₂ (Element.Twins gap) lexer.elements twin.elements
  ready : List.Forall₂ (Token.Regapped gap) lexer.ready twin.ready
  comments : gap.Regaps lexer.comments.toList twin.comments.toList

/-- A step of a lexer that does not fail, and the step of its twin. -/
inductive StepTwins (gap : LayoutGap) : Step → Step → Prop where
  | moved {after twin : Lexer} (twins : after.Twins gap twin) :
      StepTwins gap (.moved after) (.moved twin)
  | token {token changed : Token} {after twin : Lexer} (regapped : token.Regapped gap changed)
      (twins : after.Twins gap twin) :
      StepTwins gap (.pulled (.token token after)) (.pulled (.token changed twin))
  | endOfText {after twin : Lexer} (twins : after.Twins gap twin) :
      StepTwins gap (.pulled (.endOfText after)) (.pulled (.endOfText twin))
  | failed {error : LexicalError} {after : Lexer} {step : Step} :
      StepTwins gap (.pulled (.failed error after)) step

/-- All that has been read stands in its place and in order.  Unlike a run, this also
goes on from within a stretch of layout. -/
structure InOrder (text : Text) (tokens : List Token) (lexer : Lexer) : Prop where
  placed : Placed text tokens lexer
  accounts : Accounts text tokens lexer

theorem Run.inOrder {text : Text} {tokens : List Token} {lexer : Lexer}
    (run : Run text tokens lexer) : InOrder text tokens lexer :=
  ⟨run.placed, run.accounts⟩

namespace InOrder

variable {text : Text} {tokens : List Token} {lexer : Lexer}

theorem step (inOrder : InOrder text tokens lexer) :
    lexer.step.Keeps (InOrder text) (fun _ => True) tokens := by
  have placed := inOrder.placed.turn lexer.step_turn
  have accounts := inOrder.accounts.turn inOrder.placed lexer.step_turn placed
  cases stepped : lexer.step with
  | moved after =>
      rw [stepped] at placed accounts
      exact ⟨placed, accounts⟩
  | pulled answer =>
      rw [stepped] at placed accounts
      cases answer with
      | token token after => exact ⟨placed, accounts⟩
      | endOfText after => exact ⟨placed, accounts⟩
      | failed error after => trivial

theorem movesOn {base last : Lexer} (inOrder : InOrder text tokens lexer)
    (moves : MovesOn base lexer last) : InOrder text tokens last := by
  induction moves with
  | stay => exact inOrder
  | move _ stepped _ ih =>
      have later := inOrder.step
      rw [stepped] at later
      exact ih later

theorem stride (inOrder : InOrder text tokens lexer) (outside : lexer.Outside) :
    lexer.stride.Keeps (InOrder text) (fun _ => True) tokens := by
  have comes := comesUpTo_stride outside
  cases strode : lexer.stride with
  | moved after =>
      rw [strode] at comes
      obtain ⟨last, moves, stepped⟩ := comes
      have later := (inOrder.movesOn moves).step
      rwa [stepped] at later
  | pulled answer =>
      rw [strode] at comes
      cases answer with
      | token token after =>
          obtain ⟨last, moves, stepped⟩ := comes
          have later := (inOrder.movesOn moves).step
          rwa [stepped] at later
      | endOfText after =>
          obtain ⟨last, moves, stepped⟩ := comes
          have later := (inOrder.movesOn moves).step
          rwa [stepped] at later
      | failed error after => trivial

theorem pass {count : Nat} (inOrder : InOrder text tokens lexer) (outside : lexer.Outside)
    (layout : (lexer.cursor.rest.take count).all isLayout) :
    InOrder text tokens { lexer with cursor := lexer.cursor.advance count } where
  placed := inOrder.placed.moveTo (.advance _ _)
  accounts := by
    have closed : lexer.openLiterals = [] := by
      simp [openLiterals, outside.literal, outside.interpolations]
    have accounts := inOrder.accounts
    rw [Accounts, ledger_of_nil closed] at accounts
    apply @accounts_of_closed text tokens { lexer with cursor := lexer.cursor.advance count } closed
    apply accounts.pass (Cursor.Reaches.advance lexer.cursor count).offset_le
    intro offset byte low high found
    exact inOrder.placed.cursor.layoutBytes_of_advance layout low high found

/-- What open elements hold stands in order. -/
theorem held_ordered (inOrder : InOrder text tokens lexer) :
    (Element.dissolve lexer.elements).Pairwise fun earlier later =>
      earlier.start.offset ≤ later.start.offset := by
  have ordered := inOrder.accounts.ordered
  rw [ledger, stock] at ordered
  have held := (List.pairwise_append.mp (List.pairwise_append.mp (List.pairwise_append.mp
    ordered).2.1).1).2.1
  apply (List.pairwise_map.mp held).imp
  intro earlier later before
  exact Nat.le_trans earlier.token.span.start_le_stop before

end InOrder

section

variable {lexer twin : Lexer} {text : Text}

theorem Twins.outside (twins : lexer.Twins gap twin) : lexer.Outside :=
  ⟨twins.literal, twins.interpolations⟩

theorem Twins.outsideTwin (twins : lexer.Twins gap twin) : twin.Outside :=
  ⟨twins.literalTwin, twins.interpolationsTwin⟩

theorem Twins.handBack {lexemes lexemeTwins : List Lexeme} (twins : lexer.Twins gap twin)
    (alike : List.Forall₂ (Lexeme.Twins gap) lexemes lexemeTwins)
    (joined : ∀ lexeme, lexeme ∈ lexemes → lexeme.start.Reaches lexeme.stop) :
    (lexer.handBack lexemes).Twins gap (twin.handBack lexemeTwins) := by
  obtain ⟨cursor, literal, interpolations, elements, ready, comments⟩ := lexer
  obtain ⟨cursorTwin, literalTwin, interpolationsTwin, elementTwins, readyTwins, changed⟩ := twin
  cases twins.elements with
  | nil => exact { twins with ready := List.rel_append twins.ready (regapped_tokens alike joined) }
  | cons parent outer => exact { twins with elements := .cons (parent.extend alike) outer }

/-- Twins of lexers deliver twins of lexemes alike. -/
theorem Twins.deliver {lexeme lexemeTwin : Lexeme} {limit : Cursor} (twins : lexer.Twins gap twin)
    (alike : lexeme.Twins gap lexemeTwin) (later : gap.stop ≤ lexeme.start.offset)
    (given : lexeme.PlacedIn text limit)
    (held : ∀ inside, inside ∈ Element.dissolve lexer.elements →
      inside.PlacedIn text lexeme.start)
    (ordered : (Element.dissolve lexer.elements).Pairwise fun earlier later =>
      earlier.start.offset ≤ later.start.offset) :
    StepTwins gap (lexer.deliver lexeme) (twin.deliver lexemeTwin) := by
  obtain ⟨cursor, literal, interpolations, elements, ready, comments⟩ := lexer
  obtain ⟨cursorTwin, literalTwin, interpolationsTwin, elementTwins, readyTwins, changed⟩ := twin
  cases (twins.interpolations : interpolations = [])
  cases (twins.interpolationsTwin : interpolationsTwin = [])
  cases twins.elements with
  | nil => exact .token (alike.token given.stop) twins
  | @cons element elementTwin outer outerTwins first around =>
      rw [Element.dissolve_cons] at held ordered
      have inside (lexeme : Lexeme) (member : lexeme ∈ element.lexemes) :=
        held lexeme (List.mem_append_right _ member)
      have receipts := first.receive (List.pairwise_append.mp ordered).2.1
        (fun lexeme member => (inside lexeme member).stop) alike later
      simp only [Lexer.deliver]
      generalize receipt : element.receive lexeme = received at receipts
      generalize elementTwin.receive lexemeTwin = receivedTwin at receipts
      cases receipts with
      | collecting after => exact .moved { twins with elements := .cons after around }
      | @complete lexemes lexemeTwins complete =>
          have placed := Placed.complete inside given receipt
          have dropped : Twins gap ⟨cursor, literal, [], outer, ready, comments⟩
              ⟨cursorTwin, literalTwin, [], outerTwins, readyTwins, changed⟩ :=
            { twins with elements := around }
          exact .moved
            (dropped.handBack complete fun lexeme member => (placed lexeme member).stop)
      | @comment lt ltTwin after afterTwin opener rest =>
          dsimp only
          cases success : markupComment lt cursor with
          | error error => exact .failed
          | ok comment =>
              obtain ⟨commentTwin, successTwin, joined, behind⟩ :=
                markupComment_twins opener twins.cursor success
              dsimp only at successTwin
              rw [successTwin]
              exact .moved
                { twins with
                  cursor := behind
                  elements := .cons (rest.push joined) around }

theorem Twins.passing (twins : lexer.Twins gap twin) (scanned : Scanned) :
    (lexer.passing (scanned.inside (lexer.cursor.around []))).Twins gap
      (twin.passing (scanned.inside (twin.cursor.around []))) := by
  have same (context : Context) (earlier : Array Comment) :
      (scanned.inside context).commentsBehind earlier =
        commentsInside context earlier (scanned.commentsBehind #[]) := by
    rw [← commentsBehind_inside]
    simp [commentsInside]
  refine { twins with cursor := twins.cursor.inside scanned.after, comments := ?_ }
  simp only [Lexer.passing, same]
  exact twins.comments.inside twins.cursor _

variable {tokens : List Token} {scanned : Scanned}

theorem Twins.readOpened {opened : StringLiteral} (inOrder : InOrder text tokens lexer)
    (twins : lexer.Twins gap twin) (remaining : lexer.cursor.rest ≠ [])
    (success : scan true lexer.cursor = .ok (scanned.inside (lexer.cursor.around [])))
    (found : scanned.found = .literal opened) :
    StepTwins gap
      (lexer.readOpened (opened.inside (lexer.cursor.around []))
        (scanned.inside (lexer.cursor.around [])).after)
      (twin.readOpened (opened.inside (twin.cursor.around []))
        (scanned.inside (twin.cursor.around [])).after) := by
  have foundInside : (scanned.inside (lexer.cursor.around [])).found =
      .literal (opened.inside (lexer.cursor.around [])) := by
    simp only [Scanned.inside, found, Found.inside]
  have proper := scan_literal_proper success foundInside
  have start := (scan_success success).literal_start foundInside
  unfold Lexer.readOpened
  generalize reads : readLiteral (opened.inside (lexer.cursor.around [])).start
    (opened.inside (lexer.cursor.around [])).form
    (scanned.inside (lexer.cursor.around [])).after lexer.comments = outcome
  cases outcome with
  | error error => exact .failed
  | ok read =>
      obtain ⟨readTwin, readsTwin, value, behind, passed⟩ :=
        readLiteral_behind twins.cursor proper opened.start scanned.after twins.comments reads
      change readLiteral (opened.inside (twin.cursor.around [])).start
        (opened.inside (twin.cursor.around [])).form
        (scanned.inside (twin.cursor.around [])).after twin.comments = _ at readsTwin
      rw [readsTwin]
      have given := literal_placed inOrder.placed.cursor remaining success foundInside reads
      have moved : (lexer.behind read.after read.comments).Twins gap
          (twin.behind readTwin.after readTwin.comments) :=
        { twins with
          literal := rfl
          literalTwin := rfl
          cursor := behind
          comments := passed }
      have lexemes : ((opened.inside (lexer.cursor.around [])).lexeme read.text read.after).Twins
          gap ((opened.inside (twin.cursor.around [])).lexeme readTwin.text readTwin.after) :=
        { kind := rfl
          literal := congrArg (fun text => some (opened.value ++ text)) value
          start := .inr (twins.cursor.inside opened.start)
          stop := .inr behind
          valued := fun _ _ => Option.some_ne_none _ }
      have held (inside : Lexeme) (member : inside ∈ Element.dissolve lexer.elements) :=
        inOrder.placed.held_before_cursor twins.literal twins.interpolations member
      rw [← start] at held
      exact moved.deliver lexemes (twins.cursor.inside opened.start).later given held
        inOrder.held_ordered

theorem Twins.takeIn (inOrder : InOrder text tokens lexer) (twins : lexer.Twins gap twin)
    (remaining : lexer.cursor.rest ≠ [])
    (success : scan true lexer.cursor = .ok (scanned.inside (lexer.cursor.around []))) :
    StepTwins gap (lexer.takeIn (scanned.inside (lexer.cursor.around [])))
      (twin.takeIn (scanned.inside (twin.cursor.around []))) := by
  have outcome := scan_success success
  have passing := twins.passing scanned
  have found (context : Context) :
      (scanned.inside context).found = scanned.found.inside context := rfl
  unfold Lexer.takeIn
  rw [found, found]
  cases here : scanned.found with
  | literal opened => exact twins.readOpened inOrder remaining success here
  | layout =>
      simp only [Found.inside, accept_eq, found, here]
      exact .moved passing
  | element name =>
      simp only [Found.inside, accept_eq, found, here]
      have opened : (Element.opened (name.inside (lexer.cursor.around []))).Twins gap
          (Element.opened (name.inside (twin.cursor.around []))) :=
        ⟨twins.cursor.lexeme name, .nil, .openingTag⟩
      exact .moved { passing with elements := .cons opened passing.elements }
  | lexeme lexeme =>
      have foundInside : (scanned.inside (lexer.cursor.around [])).found =
          .lexeme (lexeme.inside (lexer.cursor.around [])) := by rw [found, here, Found.inside]
      have given := outcome.lexeme_placed inOrder.placed.cursor remaining foundInside
      have held (inside : Lexeme) (member : inside ∈ Element.dissolve lexer.elements) :=
        inOrder.placed.held_before_cursor twins.literal twins.interpolations member
      rw [← outcome.lexeme_start foundInside] at held
      simp only [Found.inside, accept_eq, found, here]
      exact passing.deliver (twins.cursor.lexeme lexeme) (twins.cursor.inside lexeme.start).later
        given held inOrder.held_ordered

theorem Twins.finish (inOrder : InOrder text tokens lexer) (twins : lexer.Twins gap twin) :
    StepTwins gap (.pulled lexer.finish) (.pulled twin.finish) := by
  have joined (held : Lexeme) (member : held ∈ Element.dissolve lexer.elements) :=
    (inOrder.placed.held_before_cursor twins.literal twins.interpolations member).stop
  have alike := Element.dissolve_twins twins.elements
  obtain ⟨cursor, literal, interpolations, elements, ready, comments⟩ := lexer
  obtain ⟨cursorTwin, literalTwin, interpolationsTwin, elementTwins, readyTwins, changed⟩ := twin
  cases (twins.interpolations : interpolations = [])
  cases (twins.interpolationsTwin : interpolationsTwin = [])
  simp only [Lexer.finish]
  generalize Element.dissolve elements = lexemes at alike joined
  generalize Element.dissolve elementTwins = lexemeTwins at alike
  cases alike with
  | nil => exact .endOfText twins
  | @cons lexeme lexemeTwin more moreTwins first later =>
      have tokens := regapped_tokens later fun held member =>
        joined held (List.mem_cons_of_mem _ member)
      exact .token (first.token (joined lexeme List.mem_cons_self))
        { twins with elements := .nil, ready := tokens }

theorem Twins.stride (inOrder : InOrder text tokens lexer) (twins : lexer.Twins gap twin) :
    StepTwins gap lexer.stride twin.stride := by
  have waiting := twins.ready
  generalize ready : lexer.ready = tokens at waiting
  generalize readyTwin : twin.ready = changed at waiting
  cases waiting with
  | cons first more =>
      simp only [Lexer.stride, ready, readyTwin]
      exact .token first { twins with ready := more }
  | nil =>
      by_cases finished : lexer.cursor.rest = []
      · have finishedTwin : twin.cursor.rest = [] := by rw [twins.cursor.rest, finished]
        simp only [Lexer.stride, ready, readyTwin, finished, finishedTwin]
        exact twins.finish inOrder
      · have remaining : twin.cursor.rest ≠ [] := by rwa [twins.cursor.rest]
        rw [stride_of_scan ready finished, stride_of_scan readyTwin remaining]
        rcases scan_behind twins.cursor finished with ⟨error, failed⟩ | ⟨scanned, success, successTwin⟩
        · rw [failed]
          exact .failed
        · rw [success, successTwin]
          exact twins.takeIn inOrder finished success

/-- Whatever a lexer behind the gap hands out, its twin hands out as well. -/
theorem Twins.drain {more : List Token} {last : Lexer} (inOrder : InOrder text tokens lexer)
    (twins : lexer.Twins gap twin) (drained : lexer.drain = .ok (more, last)) :
    ∃ changed lastTwin, twin.drain = .ok (changed, lastTwin) ∧
      List.Forall₂ (Token.Regapped gap) more changed ∧
      gap.Regaps last.comments.toList lastTwin.comments.toList := by
  induction size : lexer.size using Nat.strongRecOn generalizing lexer twin tokens more with
  | ind size ih =>
      subst size
      -- The strides go hand in hand, so the size of the one lexer bounds both runs.
      have strides := twins.stride inOrder
      have keeps := inOrder.stride twins.outside
      rw [drain_of_stride twins.outside] at drained
      rw [drain_of_stride twins.outsideTwin]
      generalize strode : lexer.stride = step at strides keeps drained
      generalize twin.stride = stepTwin at strides
      cases strides with
      | moved later =>
          exact ih _ (size_of_stride_moved twins.outside strode) keeps later drained rfl
      | @token token changed after afterTwin regapped later =>
          obtain ⟨rest, drainedRest, rfl⟩ := drainedBehind_eq_ok drained
          obtain ⟨restTwin, lastTwin, drainedTwin, alike, comments⟩ :=
            ih _ (size_of_stride_token twins.outside strode) keeps later drainedRest rfl
          refine ⟨changed :: restTwin, lastTwin, ?_, .cons regapped alike, comments⟩
          dsimp only
          rw [drainedTwin]
          rfl
      | @endOfText after afterTwin later =>
          cases drained
          exact ⟨[], afterTwin, rfl, .nil, later.comments⟩
      | failed => cases drained

end

end Lexer

end HackLexer
