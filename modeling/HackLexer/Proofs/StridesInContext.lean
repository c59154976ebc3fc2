import HackLexer.Proofs.LiteralsInContext

/-!
# Strides inside of a context

Open elements and ready tokens have their counterparts inside of a context, and a
stride of the lexer there is the counterpart of its stride in the text alone,
unless the text ends in between.

`stride_agrees` is the main statement: if a line feed follows the text, the
strides differ only where the text alone fails or ends in a line comment.
-/

namespace HackLexer

variable {context : Context} {earlier : Array Comment}

namespace Element

theorem lexemes_inside (element : Element) :
    (element.inside context).lexemes = element.lexemes.map (Lexeme.inside context) := by
  obtain ⟨name, content, phase⟩ := element
  cases phase with
  | openingTag => simp [Element.inside, lexemes, ElementPhase.inside]
  | children => simp [Element.inside, lexemes, ElementPhase.inside]
  | closingTag lt slash names => simp [Element.inside, lexemes, ElementPhase.inside]

theorem dissolve_inside (elements : List Element) :
    dissolve (elements.map (Element.inside context)) =
      (dissolve elements).map (Lexeme.inside context) := by
  induction elements with
  | nil => rfl
  | cons element outer ih =>
      rw [List.map_cons, dissolve_cons, dissolve_cons, List.map_append, ih, lexemes_inside]

theorem extend_inside (element : Element) (more : List Lexeme) :
    (element.inside context).extend (more.map (Lexeme.inside context)) =
      (element.extend more).inside context := by
  obtain ⟨name, content, phase⟩ := element
  cases phase with
  | openingTag => simp [Element.inside, extend, ElementPhase.inside]
  | children => simp [Element.inside, extend, ElementPhase.inside]
  | closingTag lt slash names => simp [Element.inside, extend, ElementPhase.inside]

/-- The value of a closing tag is made of the same characters. -/
theorem closing_inside {lt gt : Lexeme} {names : List Lexeme}
    (joined : ∀ name, name ∈ names → name.start.Reaches name.stop) :
    closing (lt.inside context) (gt.inside context) (names.map (Lexeme.inside context)) =
      (closing lt gt names).inside context := by
  have raws : (names.map (Lexeme.inside context)).flatMap Lexeme.raw =
      names.flatMap Lexeme.raw := by
    induction names with
    | nil => rfl
    | cons name names ih =>
        rw [List.map_cons, List.flatMap_cons, List.flatMap_cons,
          Lexeme.raw_inside (joined name List.mem_cons_self),
          ih fun other member => joined other (List.mem_cons_of_mem _ member)]
  rw [closing, raws]
  rfl

/-- What a lexeme among the children does depends on the last one or two of them. -/
theorem receive_children (name : Lexeme) (content : List Lexeme) (lexeme : Lexeme) :
    receive { name, content, phase := .children } lexeme =
      match content with
      | [] => .collecting { name, content := [lexeme], phase := .children }
      | first :: before =>
          if lexeme.kind = .slash ∧ first.kind = .lt then
            .collecting { name, content := before, phase := .closingTag first lexeme [] }
          else
            match before with
            | [] => .collecting { name, content := [lexeme, first], phase := .children }
            | second :: front =>
                if lexeme.kind = .decrement ∧ second.kind = .lt ∧ first.kind = .bang then
                  .comment second { name, content := front, phase := .children }
                else
                  .collecting
                    { name
                      content := lexeme :: first :: second :: front
                      phase := .children } := by
  by_cases slash : lexeme.kind = .slash
  · rcases content with _ | ⟨first, _ | ⟨second, front⟩⟩
    · simp only [receive, slash, push]
    · simp only [receive, slash, push, true_and]
    · simp only [receive, slash, push, true_and, reduceCtorEq, false_and, if_false]
  · by_cases decrement : lexeme.kind = .decrement
    · rcases content with _ | ⟨first, _ | ⟨second, front⟩⟩
      · simp only [receive, decrement, push]
      · simp only [receive, decrement, push, reduceCtorEq, false_and, if_false]
      · simp only [receive, decrement, push, reduceCtorEq, false_and, if_false, true_and]
    · have plain : receive { name, content, phase := .children } lexeme =
          .collecting { name, content := lexeme :: content, phase := .children } := by
        unfold receive
        dsimp only
        split
        · rename_i kind
          exact absurd kind slash
        · rename_i kind
          exact absurd kind decrement
        · rfl
      rw [plain]
      rcases content with _ | ⟨first, _ | ⟨second, front⟩⟩
      · rfl
      · simp only [slash, false_and, if_false]
      · simp only [slash, decrement, false_and, if_false]

theorem receive_inside {element : Element} {lexeme : Lexeme}
    (joined : ∀ held, held ∈ element.lexemes → held.start.Reaches held.stop) :
    (element.inside context).receive (lexeme.inside context) =
      (element.receive lexeme).inside context := by
  obtain ⟨name, content, phase⟩ := element
  have kind : (lexeme.inside context).kind = lexeme.kind := rfl
  cases phase with
  | openingTag =>
      have head : (content.map (Lexeme.inside context)).head?.map Lexeme.kind =
          content.head?.map Lexeme.kind := by
        cases content with
        | nil => rfl
        | cons first more => rfl
      simp only [receive, Element.inside, ElementPhase.inside, kind, head]
      split
      · split
        · exact congrArg Receipt.complete
            (lexemes_inside (push { name, content, phase := .openingTag } lexeme))
        · rfl
      · rfl
  | children =>
      change receive { name := name.inside context, content := content.map _, phase := .children }
        _ = _
      rw [receive_children, receive_children]
      match content with
      | [] => rfl
      | [first] =>
          simp only [List.map_cons, List.map_nil, kind]
          change (if lexeme.kind = .slash ∧ first.kind = .lt then _ else _) = _
          split
          · rfl
          · rfl
      | first :: second :: front =>
          simp only [List.map_cons, kind]
          change (if lexeme.kind = .slash ∧ first.kind = .lt then _ else
            if lexeme.kind = .decrement ∧ second.kind = .lt ∧ first.kind = .bang then _ else _) = _
          split
          · rfl
          · split
            · rfl
            · rfl
  | closingTag lt slash names =>
      have value := @closing_inside context lt lexeme names.reverse fun held member =>
        joined held (by simp [lexemes, List.mem_reverse.mp member])
      simp only [receive, Element.inside, ElementPhase.inside, kind, ← List.map_reverse, value]
      split
      · exact congrArg Receipt.complete
          (lexemes_inside (push { name, content, phase := .children } _))
      · rfl

end Element

/-- A markup comment is closed at the same place; or it is left open by the text alone,
and goes over the end of the text. -/
theorem markupComment_agrees (lt : Lexeme) (cursor : Cursor) :
    markupComment (lt.inside context) (cursor.inside context) =
        outcomeInside context (Lexeme.inside context) (markupComment lt cursor) ∨
      context.tail ≠ [] ∧ (∃ error, markupComment lt cursor = .error error) ∧
        ∀ comment, markupComment (lt.inside context) (cursor.inside context) = .ok comment →
          context.Passed comment.stop := by
  have outcome := Text.find?_append "-->".toList cursor.rest context.tail
  unfold markupComment
  rw [Cursor.rest_inside]
  cases closed : Text.find? "-->".toList cursor.rest with
  | some count =>
      rw [closed] at outcome
      have same := outcome.resolve_right (by simp)
      have bound := find?_within (by decide) closed
      change count + 3 ≤ _ at bound
      left
      rw [same]
      dsimp only
      rw [Cursor.advance_inside (.inl bound), List.take_append_of_le_length (by omega)]
      rfl
  | none =>
      by_cases nil : context.tail = []
      · left
        rw [nil, List.append_nil, closed]
        dsimp only
        have span : (lt.inside context).start.spanTo (cursor.inside context) =
            (lt.start.spanTo cursor).shift context.bytes :=
          Cursor.spanTo_inside_of_nil nil lt.start cursor
        rw [span, LexicalError.unclosed_inside nil]
        rfl
      · refine .inr ⟨nil, ⟨_, rfl⟩, ?_⟩
        intro comment success
        split at success
        · rename_i count further
          cases success
          rw [closed, further] at outcome
          have far := (outcome.resolve_left (by simp)).2 count rfl
          exact passed_of_beyond nil far
        · cases success

/-- A step that fails or goes over the end of the text. -/
def Step.Overruns (context : Context) (step : Step) : Prop :=
  step.IsFailure ∨ context.Passed step.after.cursor

def Interpolation.Receipt.inside (context : Context) : Interpolation.Receipt → Interpolation.Receipt
  | .within interpolation => .within (interpolation.inside context)
  | .ended resumed => .ended (resumed.inside context)

theorem Interpolation.receive_inside {interpolation : Interpolation} {lexeme : Lexeme}
    (reaches : lexeme.start.Reaches lexeme.stop) :
    (interpolation.inside context).receive (lexeme.inside context) =
      (interpolation.receive lexeme).inside context := by
  have kind : (lexeme.inside context).kind = lexeme.kind := rfl
  have depth : (interpolation.inside context).depth = interpolation.depth := rfl
  have literal : (interpolation.inside context).literal.append (lexeme.inside context).raw =
      (interpolation.literal.append lexeme.raw).inside context := by
    rw [Lexeme.raw_inside reaches]
    rfl
  simp only [receive, kind, depth, literal]
  split <;> rfl

theorem map_token_inside {lexemes : List Lexeme}
    (joined : ∀ held, held ∈ lexemes → held.start.Reaches held.stop) :
    (lexemes.map (Lexeme.inside context)).map Lexeme.token =
      (lexemes.map Lexeme.token).map (Token.shift context.bytes context.lines) := by
  rw [List.map_map, List.map_map]
  exact List.map_congr_left fun held member => Lexeme.token_inside (joined held member)

namespace Lexer

variable {lexer : Lexer}

theorem handBack_inside {lexemes : List Lexeme}
    (joined : ∀ held, held ∈ lexemes → held.start.Reaches held.stop) :
    (lexer.inside context earlier).handBack (lexemes.map (Lexeme.inside context)) =
      (lexer.handBack lexemes).inside context earlier := by
  obtain ⟨cursor, literal, interpolations, elements, ready, comments⟩ := lexer
  cases elements with
  | nil =>
      simp only [handBack, Lexer.inside, List.map_nil, map_token_inside joined, List.map_append]
  | cons parent outer =>
      simp only [handBack, Lexer.inside, List.map_cons, Element.extend_inside]

/-- Delivering a lexeme inside of a context is the counterpart of delivering it, or
it begins a markup comment that the text alone leaves open. -/
theorem deliver_agrees (lexer : Lexer) {text : Text} {lexeme : Lexeme} {limit : Cursor}
    (given : lexeme.PlacedIn text limit)
    (held : lexer.interpolations = [] → ∀ inside, inside ∈ Element.dissolve lexer.elements →
      inside.PlacedIn text lexeme.start) :
    (lexer.inside context earlier).deliver (lexeme.inside context) =
        (lexer.deliver lexeme).inside context earlier ∨
      context.tail ≠ [] ∧ (lexer.deliver lexeme).IsFailure ∧
        ((lexer.inside context earlier).deliver (lexeme.inside context)).Overruns context := by
  obtain ⟨cursor, literal, interpolations, elements, ready, comments⟩ := lexer
  cases interpolations with
  | cons interpolation outer =>
      left
      simp only [deliver, Lexer.inside, List.map_cons, Interpolation.receive_inside given.stop]
      cases interpolation.receive lexeme with
      | within after => rfl
      | ended resumed => rfl
  | nil =>
      replace held := held rfl
      cases elements with
      | nil =>
          left
          simp only [deliver, Lexer.inside, List.map_nil, Lexeme.token_inside given.stop]
          rfl
      | cons element outer =>
          have inside (lexeme : Lexeme) (member : lexeme ∈ element.lexemes) :=
            held lexeme (by simp [member])
          have received := @Element.receive_inside context element lexeme
            fun lexeme member => (inside lexeme member).stop
          simp only [deliver, Lexer.inside, List.map_nil, List.map_cons, received]
          cases receipt : element.receive lexeme with
          | collecting after => exact .inl rfl
          | complete lexemes =>
              left
              have placed := Placed.complete inside given receipt
              have handed := @handBack_inside context earlier
                ⟨cursor, literal, [], outer, ready, comments⟩ lexemes
                fun lexeme member => (placed lexeme member).stop
              exact congrArg Step.moved handed
          | comment lt after =>
              simp only [Element.Receipt.inside]
              rcases @markupComment_agrees context lt cursor with
                same | ⟨nonempty, ⟨error, failed⟩, passed⟩
              · left
                rw [same]
                cases markupComment lt cursor with
                | error error => rfl
                | ok comment => rfl
              · right
                rw [failed]
                refine ⟨nonempty, trivial, ?_⟩
                cases further : markupComment (lt.inside context) (cursor.inside context) with
                | error error => exact .inl trivial
                | ok comment => exact .inr (passed comment further)

theorem finish_inside (outside : lexer.Outside)
    (joined : ∀ held, held ∈ Element.dissolve lexer.elements → held.start.Reaches held.stop) :
    (lexer.inside context earlier).finish = lexer.finish.inside context earlier := by
  obtain ⟨cursor, literal, interpolations, elements, ready, comments⟩ := lexer
  cases (outside.interpolations : interpolations = [])
  simp only [finish, Lexer.inside, List.map_nil, Element.dissolve_inside]
  cases dissolved : Element.dissolve elements with
  | nil => rfl
  | cons lexeme more =>
      rw [dissolved] at joined
      have first := @Lexeme.token_inside context lexeme (joined lexeme List.mem_cons_self)
      have later := @map_token_inside context more
        fun held member => joined held (List.mem_cons_of_mem _ member)
      simp only [List.map_cons, first, later]
      rfl

theorem passing_inside (scanned : Scanned) :
    (lexer.inside context earlier).passing (scanned.inside context) =
      (lexer.passing scanned).inside context earlier := by
  have comments := commentsBehind_inside context earlier lexer.comments scanned
  simp only [commentsInside] at comments
  simp only [passing, Lexer.inside, comments]
  rfl

variable {text : Text} {tokens : List Token} {scanned : Scanned}

theorem literal_placed {opened : StringLiteral} {comments : Array Comment}
    {read : Piece scanned.after} (place : lexer.cursor.IsPlaceOf text)
    (remaining : lexer.cursor.rest ≠ []) (success : scan true lexer.cursor = .ok scanned)
    (found : scanned.found = .literal opened)
    (reads : readLiteral opened.start opened.form scanned.after comments = .ok read) :
    (opened.lexeme read.text read.after).PlacedIn text read.after := by
  have outcome := scan_success success
  have start : (opened.lexeme read.text read.after).start = lexer.cursor :=
    outcome.literal_start found
  have reaches := outcome.reaches.trans (readLiteral_reaches reads)
  have shorter := Nat.lt_of_le_of_lt read.onward (Lexer.scan_shorter remaining success)
  exact
    { start := start ▸ place
      stop := start ▸ reaches
      nonempty := start ▸ reaches.offset_lt shorter
      before := .refl _ }

theorem readOpened_agrees {opened : StringLiteral} (outside : lexer.Outside)
    (placed : Placed text tokens lexer) (remaining : lexer.cursor.rest ≠ [])
    (success : scan true lexer.cursor = .ok scanned)
    (found : scanned.found = .literal opened) :
    (lexer.inside context earlier).readOpened (opened.inside context)
          (scanned.inside context).after =
        (lexer.readOpened opened scanned.after).inside context earlier ∨
      context.tail ≠ [] ∧
        (context.tail.Breaks → (lexer.readOpened opened scanned.after).IsFailure) := by
  have proper := scan_literal_proper success found
  have agrees := (reading_agrees context scanned.after).1 opened.start opened.form
    lexer.comments earlier _ proper rfl
  unfold readOpened
  change ReadAgrees context earlier _ (readLiteral (opened.inside context).start
    (opened.inside context).form (scanned.inside context).after
    (lexer.inside context earlier).comments) at agrees
  rcases agrees with alike | ⟨nonempty, _, broken⟩
  · generalize readLiteral (opened.inside context).start (opened.inside context).form
      (scanned.inside context).after (lexer.inside context earlier).comments = within at alike
    cases reads : readLiteral opened.start opened.form scanned.after lexer.comments with
    | error error =>
        rw [reads] at alike
        cases within with
        | ok inside => exact alike.elim
        | error failure =>
            left
            cases (alike : failure = _)
            rfl
    | ok read =>
        rw [reads] at alike
        cases within with
        | error failure => exact alike.elim
        | ok inside =>
            obtain ⟨same, after, passed⟩ := alike
            have behind : (lexer.inside context earlier).behind inside.after inside.comments =
                (lexer.behind read.after read.comments).inside context earlier := by
              rw [after, passed]
              rfl
            have lexeme : (opened.inside context).lexeme inside.text inside.after =
                (opened.lexeme read.text read.after).inside context := by
              rw [same, after]
              rfl
            have given := literal_placed placed.cursor remaining success found reads
            have start : (opened.lexeme read.text read.after).start = lexer.cursor :=
              (scan_success success).literal_start found
            dsimp only
            rw [behind, lexeme]
            rcases deliver_agrees (lexer.behind read.after read.comments) given (fun _ held member => start ▸
              placed.held_before_cursor outside.literal outside.interpolations member) with
              same | ⟨nonempty, failed, _⟩
            · exact .inl same
            · exact .inr ⟨nonempty, fun _ => failed⟩
  · refine .inr ⟨nonempty, ?_⟩
    intro breaks
    obtain ⟨error, failed⟩ := broken breaks
    rw [failed]
    trivial

theorem takeIn_agrees (outside : lexer.Outside) (placed : Placed text tokens lexer)
    (remaining : lexer.cursor.rest ≠ []) (success : scan true lexer.cursor = .ok scanned) :
    (lexer.inside context earlier).takeIn (scanned.inside context) =
        (lexer.takeIn scanned).inside context earlier ∨
      context.tail ≠ [] ∧ (context.tail.Breaks → (lexer.takeIn scanned).IsFailure) := by
  have outcome := scan_success success
  have held (inside : Lexeme) (member : inside ∈ Element.dissolve lexer.elements) :
      inside.PlacedIn text lexer.cursor :=
    placed.held_before_cursor outside.literal outside.interpolations member
  have foundInside : (scanned.inside context).found = scanned.found.inside context := rfl
  unfold takeIn
  rw [foundInside]
  cases found : scanned.found with
  | layout =>
      left
      simp only [Found.inside, accept_eq, foundInside, found]
      exact congrArg Step.moved (passing_inside scanned)
  | element name =>
      left
      simp only [Found.inside, accept_eq, foundInside, found]
      exact congrArg (fun passed : Lexer => Step.moved
        { passed with
          elements := .opened (name.inside context) :: lexer.elements.map (.inside context) })
        (passing_inside scanned)
  | lexeme lexeme =>
      have given := outcome.lexeme_placed placed.cursor remaining found
      rw [← outcome.lexeme_start found] at held
      simp only [Found.inside, accept_eq, foundInside, found, passing_inside]
      rcases deliver_agrees (lexer.passing scanned) given (fun _ => held) with
        same | ⟨nonempty, failed, _⟩
      · exact .inl same
      · exact .inr ⟨nonempty, fun _ => failed⟩
  | literal opened =>
      simp only [Found.inside]
      exact readOpened_agrees outside placed remaining success found

/-- The stride comes to the end of the text in a line comment, which inside of the
context has its line feed. -/
def RunsOut (context : Context) (lexer : Lexer) : Prop :=
  lexer.ready = [] ∧ ∃ scanned, scan true lexer.cursor = .ok scanned ∧ scanned.RunsOut ∧
    scan true (lexer.cursor.inside context) = .ok (scanned.overFeed context)

/-- A stride inside of a context is the counterpart of the stride in the text alone.
If a line feed follows the text, it differs only where the text alone fails or ends
in a line comment. -/
theorem stride_agrees (outside : lexer.Outside) (placed : Placed text tokens lexer)
    (remaining : lexer.ready ≠ [] ∨ lexer.cursor.rest ≠ [] ∨ context.tail = []) :
    (lexer.inside context earlier).stride = lexer.stride.inside context earlier ∨
      context.tail ≠ [] ∧
        (context.tail.Breaks → lexer.stride.IsFailure ∨ lexer.RunsOut context) := by
  cases ready : lexer.ready with
  | cons token more =>
      left
      simp only [stride, Lexer.inside, ready, List.map_cons]
      rfl
  | nil =>
      have noneReady : (lexer.inside context earlier).ready = [] := by
        simp only [Lexer.inside, ready, List.map_nil]
      by_cases finished : lexer.cursor.rest = []
      · have alone : context.tail = [] :=
          (remaining.resolve_left (absurd ready)).resolve_left (absurd finished)
        have ended : (lexer.inside context earlier).cursor.rest = [] := by
          change lexer.cursor.rest ++ context.tail = []
          rw [finished, alone]
          rfl
        left
        simp only [stride, ready, finished, noneReady, ended]
        apply congrArg Step.pulled
        apply finish_inside outside
        exact fun held member =>
          (placed.held_before_cursor outside.literal outside.interpolations member).stop
      · have longer : (lexer.inside context earlier).cursor.rest ≠ [] :=
          List.append_ne_nil_of_left_ne_nil finished context.tail
        rw [stride_of_scan ready finished, stride_of_scan noneReady longer]
        have cursor : (lexer.inside context earlier).cursor = lexer.cursor.inside context := rfl
        rw [cursor]
        rcases scan_agrees true finished with same | ⟨nonempty, _, broken⟩
        · rw [Option.some.inj same]
          cases success : scan true lexer.cursor with
          | error error => exact .inl rfl
          | ok scanned =>
              rcases takeIn_agrees outside placed finished success with
                same | ⟨nonempty, failing⟩
              · exact .inl same
              · exact .inr ⟨nonempty, fun breaks => .inl (failing breaks)⟩
        · refine .inr ⟨nonempty, ?_⟩
          intro breaks
          have cut := broken breaks
          cases success : scan true lexer.cursor with
          | error error => exact .inl trivial
          | ok scanned =>
              rw [success] at cut
              exact .inr ⟨ready, scanned, success, cut.1, Option.some.inj cut.2⟩

end Lexer

end HackLexer
