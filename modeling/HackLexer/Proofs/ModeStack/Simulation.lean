import HackLexer.Proofs.ModeStack.Elements
import HackLexer.Proofs.ModeStack.Literals

/-!
# The lexer with a stack of modes does what the lexer does

A lexer with a stack of modes represents a lexer when its stack holds what the
lexer has open: at the bottom the elements, above them each interrupted literal
below its interpolation, and on top the literal that is being read.  Then it is
not stuck, and its next pass answers what the next step of the lexer answers.
-/

namespace HackLexer

namespace ModeStack

/-- What the modes on the stack stand for, innermost first.  An interpolation
keeps its text apart from the literal below it. -/
inductive Stacks (elements : List Element) :
    Option StringLiteral → List Interpolation → List Mode → Prop where
  | elements :
      Stacks elements none [] (elements.map fun element => .markup (.ofElement element))
  | literal {literal : StringLiteral} {interpolations : List Interpolation}
      {modes : List Mode} (outside : Stacks elements none interpolations modes)
      (measured : Measured literal) :
      Stacks elements (some literal) interpolations (.literal (.ofOpen literal) :: modes)
  | interpolation {literal : StringLiteral} {interpolations : List Interpolation}
      {modes : List Mode} {text : Text} {depth : Nat}
      (inside : Stacks elements (some literal) interpolations modes) :
      Stacks elements none ({ literal := literal.append text, depth } :: interpolations)
        (.interpolation text depth :: modes)

namespace Stacks

variable {elements : List Element} {interpolations : List Interpolation}
  {modes : List Mode}

theorem eq_elements (standing : Stacks elements none [] modes) :
    modes = elements.map fun element => .markup (.ofElement element) := by
  cases standing with
  | elements => rfl

theorem exists_literal {literal : StringLiteral}
    (standing : Stacks elements (some literal) interpolations modes) :
    ∃ below, modes = .literal (.ofOpen literal) :: below ∧ Measured literal ∧
      Stacks elements none interpolations below := by
  cases standing with
  | literal outside measured => exact ⟨_, rfl, measured, outside⟩

theorem exists_interpolation {interpolation : Interpolation}
    (standing : Stacks elements none (interpolation :: interpolations) modes) :
    ∃ literal text below, interpolation.literal = literal.append text ∧
      modes = .interpolation text interpolation.depth ::
        .literal (.ofOpen literal) :: below ∧
      Measured literal ∧ Stacks elements none interpolations below := by
  cases standing with
  | interpolation inside =>
      obtain ⟨below, rfl, measured, outside⟩ := inside.exists_literal
      exact ⟨_, _, below, rfl, rfl, measured, outside⟩

end Stacks

/-- A lexer with a stack of modes stands for a lexer: both have read as far, the stack
holds what the lexer has open, and the same tokens wait and comments are kept. -/
structure Represents (machine : Machine) (lexer : Lexer) : Prop where
  cursor : machine.cursor = lexer.cursor.offset
  line : machine.line = lexer.cursor.line
  modes : Stacks lexer.elements lexer.literal lexer.interpolations machine.modes
  pending : machine.pending = lexer.ready
  comments : machine.comments = lexer.comments

theorem Represents.exchange {machine : Machine} {lexer : Lexer} {elements : List Element}
    {literal : Option StringLiteral} {interpolations : List Interpolation}
    {modes : List Mode} (represents : Represents machine lexer)
    (standing : Stacks elements literal interpolations modes) :
    Represents { machine with modes } { lexer with literal, interpolations, elements } :=
  { represents with modes := standing }

theorem Represents.moveTo_cursor {machine : Machine} {lexer : Lexer}
    (represents : Represents machine lexer) : machine.moveTo lexer.cursor = machine := by
  rw [Machine.moveTo, ← represents.cursor, ← represents.line]

theorem Represents.moveTo {machine : Machine} {lexer : Lexer}
    (represents : Represents machine lexer) (cursor : Cursor) :
    Represents (machine.moveTo cursor) { lexer with cursor } :=
  { represents with cursor := rfl, line := rfl }

theorem Represents.passing {machine : Machine} {lexer : Lexer}
    (represents : Represents machine lexer) (scanned : Scanned) :
    Represents (machine.passing scanned) (lexer.passing scanned) := by
  refine { represents with cursor := rfl, line := rfl, comments := ?_ }
  change scanned.commentsBehind machine.comments = scanned.commentsBehind lexer.comments
  rw [represents.comments]

/-- A pass answers what a step answers and leaves a representation of what the
step leaves. -/
def Pass.Answers : Pass → Step → Prop
  | .moved machine, .moved lexer => Represents machine lexer
  | .token handed machine, .pulled (.token answer lexer) =>
      handed = answer ∧ Represents machine lexer
  | .endOfText machine, .pulled (.endOfText lexer) => Represents machine lexer
  | .failed error, .pulled (.failed blamed _) => error = blamed
  | _, _ => False

namespace Progress.Follows

theorem pending_of_collecting {progress : Progress} {element : Element}
    (follows : progress.Follows (.collecting element)) :
    progress = .pending (.ofElement element) := by
  cases progress with
  | pending markup => exact congrArg _ follows
  | comment lt markup => exact follows.elim
  | complete markup => exact follows.elim

theorem complete_of_complete {progress : Progress} {lexemes : List Lexeme}
    (follows : progress.Follows (.complete lexemes)) :
    ∃ markup, progress = .complete markup ∧
      markup.intoTokens = lexemes.map Lexeme.token := by
  cases progress with
  | pending markup => exact follows.elim
  | comment lt markup => exact follows.elim
  | complete markup => exact ⟨markup, rfl, follows⟩

theorem comment_of_comment {progress : Progress} {lt : Lexeme} {element : Element}
    (follows : progress.Follows (.comment lt element)) :
    progress = .comment lt.token (.ofElement element) := by
  cases progress with
  | pending markup => exact follows.elim
  | comment token markup =>
      obtain ⟨rfl, rfl⟩ := follows
      rfl
  | complete markup => exact follows.elim

end Progress.Follows

namespace Machine

variable {source : Source} {cursor : Cursor}

theorem scanMarkupComment?_eq (machine : Machine) {lt : Lexeme}
    (place : cursor.IsPlaceOf source.content)
    (opener : lt.PlacedIn source.content cursor) :
    (machine.moveTo cursor).scanMarkupComment? source lt.token =
      some ((markupComment lt cursor).map fun comment =>
        (comment.token, machine.moveTo comment.stop)) := by
  have here := place.tail?_eq
  have start : lt.token.span.start = lt.start.offset := rfl
  have reaches : lt.start.Reaches cursor := opener.stop.trans opener.before
  simp only [scanMarkupComment?, markupComment, moveTo, here, start, Text.findOffset?,
    Option.bind_eq_bind, Option.bind_some]
  cases search : Text.find? "-->".toList cursor.rest with
  | none =>
      have cut := opener.start.span?_eq reaches
      simp only [Option.map_none, cut, Option.bind_some, ← cursor.line_toEnd]
      rfl
  | some count =>
      have closes : Text.Plain (cursor.rest.drop count) 3 :=
        .of_isPrefixOf (Text.isPrefixOf_drop_of_find? search) (isPlain_of_all (by decide))
      have cut := opener.start.span?_eq (reaches.thenAdvance (count + 3))
      have offset := offset_advance_found closes
      have line : (cursor.advance (count + 3)).line =
          cursor.line + Text.lineFeeds (cursor.rest.take count) := by
        rw [← Cursor.advance_advance, Cursor.line_advance_of_plain closes]
        rfl
      rw [offset] at cut
      simp only [Option.map_some, Text.front?_byteLength_take, cut, Option.bind_some,
        Except.map, offset, line]
      rfl

theorem deliverInside?_eq (machine : Machine) {limit : Cursor} {lexeme : Lexeme}
    {literal : StringLiteral} {text : Text} {depth : Nat} {below : List Mode}
    (given : lexeme.PlacedIn source.content limit) :
    machine.deliverInside? source lexeme.token text depth
        (.literal (.ofOpen literal) :: below) =
      some
        (match Interpolation.receive { literal := literal.append text, depth } lexeme with
        | .within after =>
            { machine with
              modes :=
                .interpolation (text ++ lexeme.raw) after.depth ::
                  .literal (.ofOpen literal) :: below }
        | .ended _ =>
            { machine with
              modes := .literal (.ofOpen (literal.append (text ++ lexeme.raw))) :: below }) := by
  have kind : lexeme.token.kind = lexeme.kind := rfl
  simp only [deliverInside?, raw?_eq given, Option.bind_eq_bind, Option.bind_some, kind]
  by_cases opens : lexeme.kind = .leftBrace
  · simp [opens, Interpolation.receive]
  · by_cases closes : lexeme.kind = .rightBrace
    · cases depth with
      | zero => simp [closes, Interpolation.receive, Literal.ofOpen, StringLiteral.append]
      | succ depth => simp [closes, Interpolation.receive, decrement?]
    · have other : Interpolation.receive { literal := literal.append text, depth } lexeme =
          .within { literal := (literal.append text).append lexeme.raw, depth } := by
        simp only [Interpolation.receive]
        split
        · exact absurd ‹_› opens
        · exact absurd ‹_› closes
        · exact absurd ‹_› closes
        · rfl
      rw [if_neg opens, if_neg closes, other]
      rfl

theorem handBack_represents {machine : Machine} {lexer : Lexer} {markup : Markup}
    {lexemes : List Lexeme} (represents : Represents machine lexer)
    (closed : lexer.literal = none) (outside : lexer.interpolations = [])
    (tokens : markup.intoTokens = lexemes.map Lexeme.token) :
    Represents (machine.handBack markup) (lexer.handBack lexemes) := by
  have standing := represents.modes
  rw [closed, outside] at standing
  have modes := standing.eq_elements
  cases elements : lexer.elements with
  | nil =>
      rw [elements] at modes
      have lexed : lexer.handBack lexemes =
          { lexer with ready := lexer.ready ++ lexemes.map Lexeme.token } := by
        rw [Lexer.handBack, elements]
      have moved : machine.handBack markup =
          { machine with pending := machine.pending ++ lexemes.map Lexeme.token } := by
        rw [handBack, modes, ← tokens]
        rfl
      rw [lexed, moved, represents.pending]
      exact { represents with pending := rfl }
  | cons parent outer =>
      rw [elements] at modes
      have lexed : lexer.handBack lexemes =
          { lexer with elements := parent.extend lexemes :: outer } := by
        rw [Lexer.handBack, elements]
      have moved : machine.handBack markup =
          { machine with
            modes := (parent.extend lexemes :: outer).map fun element =>
              .markup (.ofElement element) } := by
        rw [List.map_cons, ← Markup.extend_ofElement, ← tokens, handBack, modes]
        rfl
      rw [lexed, moved]
      refine { represents with modes := ?_ }
      change Stacks _ lexer.literal lexer.interpolations _
      rw [closed, outside]
      exact .elements

/-- What is known about a lexeme that is about to be delivered.  Outside of
interpolations, what open elements hold ends before it. -/
structure Deliverable (source : Source) (lexer : Lexer) (lexeme : Lexeme) : Prop where
  closed : lexer.literal = none
  place : lexer.cursor.IsPlaceOf source.content
  named : ∀ element, element ∈ lexer.elements → element.name.kind = .xhpName
  given : lexeme.PlacedIn source.content lexer.cursor
  earlier : lexer.interpolations = [] →
    ∀ held, held ∈ Element.dissolve lexer.elements →
      held.PlacedIn source.content lexeme.start

section Delivery

variable {machine : Machine} {lexer : Lexer} {lexeme : Lexeme} {element : Element}
  {outer : List Element}

theorem deliver?_inside {interpolation : Interpolation} {around : List Interpolation}
    (represents : Represents machine lexer) (ready : Deliverable source lexer lexeme)
    (interpolations : lexer.interpolations = interpolation :: around) :
    ∃ literal text below,
      interpolation.literal = literal.append text ∧ Measured literal ∧
      Stacks lexer.elements none around below ∧
      machine.deliver? source lexeme.token = some (.moved
        (match interpolation.receive lexeme with
        | .within after =>
            { machine with
              modes :=
                .interpolation (text ++ lexeme.raw) after.depth ::
                  .literal (.ofOpen literal) :: below }
        | .ended _ =>
            { machine with
              modes := .literal (.ofOpen (literal.append (text ++ lexeme.raw))) :: below })) := by
  have standing := represents.modes
  rw [ready.closed, interpolations] at standing
  obtain ⟨literal, text, below, same, modes, measured, outside⟩ :=
    standing.exists_interpolation
  obtain ⟨suspended, depth⟩ := interpolation
  obtain rfl : suspended = literal.append text := same
  refine ⟨literal, text, below, rfl, measured, outside, ?_⟩
  rw [deliver?, modes]
  simp only [deliverInside?_eq machine ready.given, Option.bind_eq_bind, Option.bind_some]
  rfl

theorem push?_top (represents : Represents machine lexer)
    (ready : Deliverable source lexer lexeme) (interpolations : lexer.interpolations = [])
    (elements : lexer.elements = element :: outer) :
    machine.modes = .markup (.ofElement element) ::
        outer.map (fun element => .markup (.ofElement element)) ∧
      ∃ progress, (Markup.ofElement element).push? source lexeme.token = some progress ∧
        progress.Follows (element.receive lexeme) := by
  have standing := represents.modes
  rw [ready.closed, interpolations, elements] at standing
  refine ⟨standing.eq_elements, Markup.push?_follows ?_ ?_ ready.given⟩
  · exact ready.named element (by simp [elements])
  · intro inside member
    exact ready.earlier interpolations inside (by simp [elements, member])

theorem scanMarkupComment?_top {lt : Lexeme} {after : Element}
    (represents : Represents machine lexer) (ready : Deliverable source lexer lexeme)
    (interpolations : lexer.interpolations = [])
    (elements : lexer.elements = element :: outer)
    (receipt : element.receive lexeme = .comment lt after) :
    machine.scanMarkupComment? source lt.token =
      some ((markupComment lt lexer.cursor).map fun comment =>
        (comment.token, machine.moveTo comment.stop)) := by
  obtain ⟨⟨bang, opener⟩, _⟩ := Element.lexemes_of_comment receipt
  have placed : lt.PlacedIn source.content lexeme.start :=
    ready.earlier interpolations lt (by simp [elements, opener])
  have further := ready.given.stop.trans ready.given.before
  have scanned := scanMarkupComment?_eq machine ready.place (placed.mono further)
  rwa [represents.moveTo_cursor] at scanned

/-- The pass in which the element on top of the stack has said something to a token. -/
def passAfter? (machine : Machine) (source : Source) (below : List Mode) :
    Progress → Option Pass
  | .pending markup => some (.moved { machine with modes := .markup markup :: below })
  | .comment lt markup =>
      (machine.scanMarkupComment? source lt).map fun
        | .error error => .failed error
        | .ok (comment, after) =>
            .moved { after with
              modes := .markup { markup with tokens := markup.tokens ++ [comment] } :: below }
  | .complete markup => some (.moved ({ machine with modes := below }.handBack markup))

theorem deliver?_pushed {token : Token} {markup : Markup} {below : List Mode}
    {progress : Progress} (modes : machine.modes = .markup markup :: below)
    (pushed : markup.push? source token = some progress) :
    machine.deliver? source token = machine.passAfter? source below progress := by
  rw [deliver?, modes]
  simp only [deliverMarkup?, pushed, Option.bind_eq_bind, Option.bind_some]
  cases progress with
  | pending markup => rfl
  | complete markup => rfl
  | comment lt markup =>
      dsimp only [passAfter?]
      cases machine.scanMarkupComment? source lt with
      | none => rfl
      | some scanned =>
          cases scanned with
          | error error => rfl
          | ok commented => rfl

theorem deliver?_within {interpolation after : Interpolation} {around : List Interpolation}
    (represents : Represents machine lexer) (ready : Deliverable source lexer lexeme)
    (interpolations : lexer.interpolations = interpolation :: around)
    (receipt : interpolation.receive lexeme = .within after) :
    ∃ pass, machine.deliver? source lexeme.token = some pass ∧
      pass.Answers (.moved { lexer with interpolations := after :: around }) := by
  obtain ⟨literal, text, below, same, measured, outside, delivered⟩ :=
    deliver?_inside represents ready interpolations
  rw [receipt] at delivered
  refine ⟨_, delivered, represents.exchange ?_⟩
  obtain ⟨received, depth⟩ := after
  have joined := Interpolation.literal_of_within receipt
  rw [same, append_append] at joined
  obtain rfl : received = literal.append (text ++ lexeme.raw) := joined
  rw [ready.closed]
  exact .interpolation (.literal outside measured)

theorem deliver?_ended {interpolation : Interpolation} {around : List Interpolation}
    {resumed : StringLiteral} (represents : Represents machine lexer)
    (ready : Deliverable source lexer lexeme)
    (interpolations : lexer.interpolations = interpolation :: around)
    (receipt : interpolation.receive lexeme = .ended resumed) :
    ∃ pass, machine.deliver? source lexeme.token = some pass ∧
      pass.Answers
        (.moved { lexer with literal := some resumed, interpolations := around }) := by
  obtain ⟨literal, text, below, same, measured, outside, delivered⟩ :=
    deliver?_inside represents ready interpolations
  have joined := Interpolation.literal_of_ended receipt
  rw [same, append_append] at joined
  rw [receipt] at delivered
  refine ⟨_, delivered, represents.exchange ?_⟩
  rw [joined]
  exact .literal outside measured

section Elements

variable {after : Element} (represents : Represents machine lexer)
  (ready : Deliverable source lexer lexeme) (interpolations : lexer.interpolations = [])

include represents ready interpolations

theorem deliver?_token (elements : lexer.elements = []) :
    ∃ pass, machine.deliver? source lexeme.token = some pass ∧
      pass.Answers (.pulled (.token lexeme.token lexer)) := by
  have standing := represents.modes
  rw [ready.closed, interpolations, elements] at standing
  refine ⟨.token lexeme.token machine, ?_, rfl, represents⟩
  rw [deliver?, standing.eq_elements]
  rfl

variable (elements : lexer.elements = element :: outer)

include elements

theorem deliver?_collecting (receipt : element.receive lexeme = .collecting after) :
    ∃ pass, machine.deliver? source lexeme.token = some pass ∧
      pass.Answers (.moved { lexer with elements := after :: outer }) := by
  obtain ⟨modes, progress, pushed, follows⟩ := push?_top represents ready interpolations elements
  rw [receipt] at follows
  obtain rfl := follows.pending_of_collecting
  refine ⟨_, deliver?_pushed modes pushed, represents.exchange ?_⟩
  rw [ready.closed, interpolations]
  exact .elements

theorem deliver?_complete {lexemes : List Lexeme}
    (receipt : element.receive lexeme = .complete lexemes) :
    ∃ pass, machine.deliver? source lexeme.token = some pass ∧
      pass.Answers (.moved ({ lexer with elements := outer }.handBack lexemes)) := by
  obtain ⟨modes, progress, pushed, follows⟩ := push?_top represents ready interpolations elements
  rw [receipt] at follows
  obtain ⟨markup, rfl, tokens⟩ := follows.complete_of_complete
  have below : Represents { machine with
      modes := outer.map fun element => .markup (.ofElement element) }
      { lexer with elements := outer } := by
    apply represents.exchange
    rw [ready.closed, interpolations]
    exact .elements
  exact ⟨_, deliver?_pushed modes pushed,
    handBack_represents below ready.closed interpolations tokens⟩

theorem deliver?_opener {lt : Lexeme} (receipt : element.receive lexeme = .comment lt after) :
    machine.deliver? source lexeme.token =
      match markupComment lt lexer.cursor with
      | .error error => some (.failed error)
      | .ok comment =>
          some (.moved { machine.moveTo comment.stop with
            modes := (after.push comment :: outer).map fun element =>
              .markup (.ofElement element) }) := by
  obtain ⟨modes, progress, pushed, follows⟩ := push?_top represents ready interpolations elements
  rw [receipt] at follows
  obtain rfl := follows.comment_of_comment
  have scanned := scanMarkupComment?_top represents ready interpolations elements receipt
  rw [deliver?_pushed modes pushed, passAfter?, scanned]
  cases markupComment lt lexer.cursor with
  | error error => rfl
  | ok comment =>
      dsimp only
      rw [List.map_cons, Markup.push_ofElement]
      rfl

end Elements

/-- A delivery to the mode on top has the effect of a delivery to what that mode
stands for. -/
theorem deliver?_answers {step : Step} (represents : Represents machine lexer)
    (ready : Deliverable source lexer lexeme) (delivery : lexer.Delivery lexeme step) :
    ∃ pass, machine.deliver? source lexeme.token = some pass ∧ pass.Answers step := by
  cases delivery with
  | within interpolations receipt =>
      exact deliver?_within represents ready interpolations receipt
  | ended interpolations receipt =>
      exact deliver?_ended represents ready interpolations receipt
  | token interpolations elements => exact deliver?_token represents ready interpolations elements
  | collecting interpolations elements receipt =>
      exact deliver?_collecting represents ready interpolations elements receipt
  | complete interpolations elements receipt =>
      exact deliver?_complete represents ready interpolations elements receipt
  | @comment element after outer lt comment interpolations elements receipt success =>
      have delivered := deliver?_opener represents ready interpolations elements receipt
      rw [success] at delivered
      refine ⟨_, delivered, (represents.moveTo comment.stop).exchange ?_⟩
      rw [ready.closed, interpolations]
      exact .elements
  | @unclosedComment element after outer lt error interpolations elements receipt failure =>
      have delivered := deliver?_opener represents ready interpolations elements receipt
      rw [failure] at delivered
      exact ⟨.failed error, delivered, rfl⟩

end Delivery

theorem finish?_nil {machine : Machine} (modes : machine.modes = []) :
    machine.finish? source =
      match machine.pending with
      | [] => some (.endOfText machine)
      | token :: more => some (.token token { machine with pending := more }) := by
  rw [finish?]
  split
  · rfl
  · simp_all
  · simp_all
  · simp_all

theorem finish?_markup {machine : Machine} {markup : Markup} {below : List Mode}
    (modes : machine.modes = .markup markup :: below) :
    machine.finish? source =
      ({ machine with modes := below }.handBack markup).finish? source := by
  rw [finish?]
  split
  · simp_all
  · simp_all
  · simp_all
  · rename_i top under opened
    rw [modes] at opened
    cases opened
    rfl

theorem finish?_elements (machine : Machine) (elements : List Element)
    (pending : machine.pending = [])
    (modes : machine.modes = elements.map fun element => .markup (.ofElement element)) :
    machine.finish? source =
      some
        (match Element.dissolve elements with
        | [] => .endOfText machine
        | lexeme :: more =>
            .token lexeme.token
              { machine with modes := [], pending := more.map Lexeme.token }) := by
  -- An element that is popped changes the one below it, so the recursion is on
  -- the number of elements and not on their list.
  match elements with
  | [] =>
      rw [finish?_nil modes, pending]
      rfl
  | [element] =>
      rw [finish?_markup modes]
      have handed : { machine with modes := [] }.handBack (.ofElement element) =
          { machine with modes := [], pending := element.lexemes.map Lexeme.token } := by
        rw [← Markup.intoTokens_ofElement]
        simp [handBack, pending]
      rw [List.map_nil, handed, finish?_nil rfl]
      simp [Element.dissolve, Element.lexemes]
  | child :: parent :: outer =>
      rw [finish?_markup modes, Element.dissolve_cons_cons]
      have handed := finish?_elements
        { machine with
          modes := (parent.extend child.lexemes :: outer).map fun element =>
            .markup (.ofElement element) }
        (parent.extend child.lexemes :: outer) pending rfl
      have held : Element.dissolve (parent.extend child.lexemes :: outer) ≠ [] := by
        simp [Element.dissolve_cons, Element.lexemes]
      obtain ⟨lexeme, more, dissolved⟩ := List.exists_cons_of_ne_nil held
      rw [List.map_cons, ← Markup.extend_ofElement, ← Markup.intoTokens_ofElement,
        dissolved] at handed
      rw [dissolved]
      exact handed
termination_by elements.length

theorem finish?_literal {machine : Machine} {literal : Literal} {below : List Mode}
    (modes : machine.modes = .literal literal :: below) :
    machine.finish? source =
      (literal.unterminated? source machine.line).map Pass.failed := by
  rw [finish?]
  split
  · simp_all
  · rename_i top under opened
    rw [modes] at opened
    cases opened
    cases literal.unterminated? source machine.line with
    | none => rfl
    | some error => rfl
  · simp_all
  · simp_all

theorem finish?_interpolation {machine : Machine} {text : Text} {depth : Nat}
    {below : List Mode} (modes : machine.modes = .interpolation text depth :: below) :
    machine.finish? source = { machine with modes := below }.finish? source := by
  rw [finish?]
  split
  · simp_all
  · simp_all
  · rename_i inside opens under opened
    rw [modes] at opened
    cases opened
    rfl
  · simp_all

theorem finish?_answers {machine : Machine} {lexer : Lexer}
    (represents : Represents machine lexer) (ready : lexer.ready = [])
    (closed : lexer.literal = none) (finished : lexer.cursor.rest = [])
    (placed : ∀ literal, literal ∈ lexer.openLiterals →
      literal.PlacedIn source.content lexer.cursor) :
    ∃ pass, machine.finish? source = some pass ∧ pass.Answers (.pulled lexer.finish) := by
  have standing := represents.modes
  have pending : machine.pending = [] := by rw [represents.pending, ready]
  rw [closed] at standing
  unfold Lexer.finish
  cases interpolations : lexer.interpolations with
  | cons interpolation outer =>
      rw [interpolations] at standing
      obtain ⟨literal, text, below, same, modes, measured, outside⟩ :=
        standing.exists_interpolation
      have start : literal.start.IsPlaceOf source.content := by
        have opened := placed interpolation.literal
          (by simp [Lexer.openLiterals, interpolations])
        rw [same] at opened
        exact opened.start
      have line : machine.line = lexer.cursor.toEnd.line := by
        rw [represents.line, Cursor.toEnd, Cursor.advance_of_rest_nil finished]
      refine ⟨.failed (interpolation.literal.unclosed lexer.cursor), ?_, rfl⟩
      rw [finish?_interpolation modes, finish?_literal rfl, line,
        unterminated?_eq measured start, same, unclosed_append]
      rfl
  | nil =>
      rw [interpolations] at standing
      refine ⟨_, finish?_elements machine lexer.elements pending standing.eq_elements, ?_⟩
      cases dissolved : Element.dissolve lexer.elements with
      | nil => exact represents
      | cons lexeme more =>
          refine ⟨rfl, { represents with modes := ?_, pending := rfl }⟩
          change Stacks [] lexer.literal [] []
          rw [closed]
          exact .elements

theorem pass?_of_pending {machine : Machine} {token : Token} {more : List Token}
    (pending : machine.pending = token :: more) :
    machine.pass? source = some (.token token { machine with pending := more }) := by
  rw [pass?, pending]

theorem pass?_of_literal {machine : Machine} {literal : Literal} {below : List Mode}
    (pending : machine.pending = []) (modes : machine.modes = .literal literal :: below) :
    machine.pass? source = (machine.scanLiteral? source).bind (accept? source) := by
  rw [pass?, pending, modes]
  rfl

theorem pass?_of_scan {machine : Machine} {lexer : Lexer}
    (represents : Represents machine lexer) (ready : lexer.ready = [])
    (closed : lexer.literal = none) :
    machine.pass? source =
      (machine.scan? source lexer.interpolations.isEmpty).bind (accept? source) := by
  have standing := represents.modes
  have pending : machine.pending = [] := by rw [represents.pending, ready]
  rw [closed] at standing
  rw [pass?, pending]
  cases interpolations : lexer.interpolations with
  | cons interpolation outer =>
      rw [interpolations] at standing
      obtain ⟨literal, text, below, _, modes, _⟩ := standing.exists_interpolation
      rw [modes]
      rfl
  | nil =>
      rw [interpolations] at standing
      have modes := standing.eq_elements
      cases elements : lexer.elements with
      | nil =>
          rw [elements] at modes
          rw [modes]
          rfl
      | cons element outer =>
          rw [elements] at modes
          rw [modes]
          rfl

theorem pass?_of_remaining {machine : Machine} {lexer : Lexer}
    (represents : Represents machine lexer)
    (place : lexer.cursor.IsPlaceOf source.content) (ready : lexer.ready = [])
    (closed : lexer.literal = none) (remaining : lexer.cursor.rest ≠ []) :
    machine.pass? source =
      accept? source
        (machine.scanned (scan lexer.interpolations.isEmpty lexer.cursor)) := by
  have scanned := scan?_eq machine lexer.interpolations.isEmpty place remaining
  rw [represents.moveTo_cursor] at scanned
  rw [pass?_of_scan represents ready closed, scanned]
  rfl

theorem pass?_of_reading {machine : Machine} {lexer : Lexer} {tokens : List Token}
    {literal : StringLiteral} (represents : Represents machine lexer)
    (placed : lexer.Placed source.content tokens) (ready : lexer.ready = [])
    (opened : lexer.literal = some literal) :
    ∃ below, Measured literal ∧ Stacks lexer.elements none lexer.interpolations below ∧
      machine.pass? source = accept? source
        (match literal.read lexer.cursor with
        | .closed lexeme =>
            .ok (.token lexeme.token, { machine.moveTo lexeme.stop with modes := below })
        | .interpolation _ after =>
            .ok (.enter (.interpolation ['\x7b'] 0),
              { machine.moveTo after with
                modes :=
                  .literal (.ofOpen
                    (leftOnStack literal (literal.body lexer.cursor.rest))) :: below })
        | .unclosed error => .error error) := by
  have standing := represents.modes
  rw [opened] at standing
  obtain ⟨below, modes, measured, outside⟩ := standing.exists_literal
  have there : literal.PlacedIn source.content lexer.cursor :=
    placed.literals literal (by simp [Lexer.openLiterals, opened])
  have pending : machine.pending = [] := by rw [represents.pending, ready]
  have scanned := scanLiteral?_eq machine placed.cursor there measured modes
  rw [represents.moveTo_cursor] at scanned
  refine ⟨below, measured, outside, ?_⟩
  rw [pass?_of_literal pending modes, scanned]
  rfl

section Passes

variable {machine : Machine} {lexer : Lexer} {tokens : List Token}
  (represents : Represents machine lexer) (placed : lexer.Placed source.content tokens)
  (ready : lexer.ready = [])

include represents placed ready

theorem pass?_closed {literal : StringLiteral} {lexeme : Lexeme} {step : Step}
    (named : ∀ element, element ∈ lexer.elements → element.name.kind = .xhpName)
    (opened : lexer.literal = some literal)
    (reading : literal.read lexer.cursor = .closed lexeme)
    (delivery : Lexer.Delivery { lexer with cursor := lexeme.stop, literal := none }
      lexeme step) :
    ∃ pass, machine.pass? source = some pass ∧ pass.Answers step := by
  obtain ⟨below, measured, outside, pass⟩ := pass?_of_reading represents placed ready opened
  have stop := (StringLiteral.read_closed_places reading).2.2
  rw [pass, reading]
  apply deliver?_answers ((represents.moveTo lexeme.stop).exchange outside) _ delivery
  exact ⟨rfl, (placed.moveTo stop).cursor, named, placed.closed_lexeme opened reading,
    placed.held_before_closed opened reading⟩

theorem pass?_interrupted {literal left : StringLiteral} {after : Cursor}
    (opened : lexer.literal = some literal)
    (reading : literal.read lexer.cursor = .interpolation left after) :
    ∃ pass, machine.pass? source = some pass ∧
      pass.Answers
        (.moved
          { lexer with
            cursor := after
            literal := none
            interpolations := { literal := left, depth := 0 } :: lexer.interpolations }) := by
  obtain ⟨below, measured, outside, pass⟩ := pass?_of_reading represents placed ready opened
  rw [pass, reading, read_interpolation reading]
  refine ⟨_, rfl, (represents.moveTo after).exchange ?_⟩
  exact .interpolation (.literal outside (measured_leftOnStack measured _))

variable {scanned : Scanned} (closed : lexer.literal = none)
  (remaining : lexer.cursor.rest ≠ [])
  (success : scan lexer.interpolations.isEmpty lexer.cursor = .ok scanned)

include closed remaining success

theorem pass?_of_scanned :
    machine.pass? source =
      accept? source (.ok (.ofFound scanned.found, machine.passing scanned)) := by
  rw [pass?_of_remaining represents placed.cursor ready closed remaining, success]
  rfl

theorem pass?_lexeme {lexeme : Lexeme} {step : Step}
    (named : ∀ element, element ∈ lexer.elements → element.name.kind = .xhpName)
    (found : scanned.found = .lexeme lexeme)
    (delivery : (lexer.passing scanned).Delivery lexeme step) :
    ∃ pass, machine.pass? source = some pass ∧ pass.Answers step := by
  have outcome := scan_success success
  rw [pass?_of_scanned represents placed ready closed remaining success, found]
  apply deliver?_answers (represents.passing scanned) _ delivery
  exact ⟨closed, (placed.passing outcome).cursor, named,
    outcome.lexeme_placed placed.cursor remaining found,
    placed.held_before_lexeme closed outcome found⟩

theorem pass?_literal {opened : StringLiteral} (found : scanned.found = .literal opened) :
    ∃ pass, machine.pass? source = some pass ∧
      pass.Answers (.moved { lexer.passing scanned with literal := some opened }) := by
  have outcome := scan_success success
  have opens := outcome.literal_opens found
  rw [← outcome.literal_start found] at opens
  have outside := represents.modes
  rw [closed] at outside
  rw [pass?_of_scanned represents placed ready closed remaining success, found]
  refine ⟨_, rfl, (represents.passing scanned).exchange ?_⟩
  exact .literal outside (measured_of_opens opens)

theorem pass?_element {name : Lexeme} (found : scanned.found = .element name) :
    ∃ pass, machine.pass? source = some pass ∧
      pass.Answers
        (.moved { lexer.passing scanned with elements := .opened name :: lexer.elements }) := by
  have interpolations : lexer.interpolations = [] :=
    List.isEmpty_iff.mp ((scan_success success).markup_of_element found)
  have outside := represents.modes
  rw [closed, interpolations] at outside
  rw [pass?_of_scanned represents placed ready closed remaining success, found]
  refine ⟨_, rfl, (represents.passing scanned).exchange ?_⟩
  change Stacks _ lexer.literal lexer.interpolations
    (.markup (.opened name.token) :: machine.modes)
  rw [closed, interpolations, outside.eq_elements]
  exact .elements

end Passes

/-- One pass answers what one step answers. -/
theorem pass?_answers {machine : Machine} {lexer : Lexer} {tokens : List Token}
    (represents : Represents machine lexer)
    (placed : lexer.Placed source.content tokens)
    (named : ∀ element, element ∈ lexer.elements → element.name.kind = .xhpName) :
    ∃ pass, machine.pass? source = some pass ∧ pass.Answers lexer.step := by
  -- The turns of the lexer decide which branch the pass takes.
  have turn := lexer.step_turn
  generalize lexer.step = step at turn ⊢
  cases turn with
  | @ready token more ready =>
      have pending : machine.pending = token :: more := by rw [represents.pending, ready]
      exact ⟨_, pass?_of_pending pending, rfl, { represents with pending := rfl }⟩
  | closed ready opened reading delivery =>
      exact pass?_closed represents placed ready named opened reading delivery
  | interrupted ready opened reading =>
      exact pass?_interrupted represents placed ready opened reading
  | @unclosed literal error ready opened reading =>
      obtain ⟨below, measured, outside, pass⟩ :=
        pass?_of_reading represents placed ready opened
      rw [reading] at pass
      exact ⟨.failed error, pass, rfl⟩
  | finished ready closed finished =>
      have scanned := scan?_of_nil machine lexer.interpolations.isEmpty placed.cursor finished
      rw [represents.moveTo_cursor] at scanned
      rw [pass?_of_scan represents ready closed, scanned]
      exact finish?_answers represents ready closed finished placed.literals
  | @failed error ready closed remaining failure =>
      rw [pass?_of_remaining represents placed.cursor ready closed remaining, failure]
      exact ⟨.failed error, rfl, rfl⟩
  | @layout scanned ready closed remaining success found =>
      rw [pass?_of_scanned represents placed ready closed remaining success, found]
      exact ⟨_, rfl, represents.passing scanned⟩
  | lexeme ready closed remaining success found delivery =>
      exact pass?_lexeme represents placed ready closed remaining success named found delivery
  | literal ready closed remaining success found =>
      exact pass?_literal represents placed ready closed remaining success found
  | element ready closed remaining success found =>
      exact pass?_element represents placed ready closed remaining success found

end Machine

end ModeStack

end HackLexer
