import HackLexer.Proofs.RecursiveReader

/-!
# The lexer reads literals like the recursive reader

From where a literal opens, the lexer moves on without an answer until it
delivers the literal to what was open before.  On its way it neither looks at
nor changes what was open before, and the literal it delivers is the one that
the recursive reader gives.  Where the recursive reader fails, the lexer fails
with the same error.
-/

namespace HackLexer

def Step.answer : Step → Pulled
  | .pulled answer => answer
  | .moved after => after.next

namespace Lexer

theorem next_eq_answer (lexer : Lexer) : lexer.next = lexer.step.answer := by
  cases stepped : lexer.step with
  | pulled answer => exact next_of_pulled stepped
  | moved after => exact next_of_moved stepped

/-- What is open in one lexer is open, unchanged, around another one. -/
structure RestsOn (lexer base : Lexer) : Prop where
  interpolations : base.interpolations <:+ lexer.interpolations
  elements : lexer.elements = base.elements
  ready : lexer.ready = base.ready

theorem RestsOn.trans {lexer middle base : Lexer} (upper : lexer.RestsOn middle)
    (lower : middle.RestsOn base) : lexer.RestsOn base where
  interpolations := lower.interpolations.trans upper.interpolations
  elements := upper.elements.trans lower.elements
  ready := upper.ready.trans lower.ready

theorem RestsOn.of_eq {lexer base : Lexer}
    (interpolations : lexer.interpolations = base.interpolations)
    (elements : lexer.elements = base.elements) (ready : lexer.ready = base.ready) :
    lexer.RestsOn base where
  interpolations := interpolations ▸ List.suffix_refl _
  elements := elements
  ready := ready

/-- A lexer moves to another one, and all the way what was open in a third one
stays as it was. -/
inductive MovesOn (base : Lexer) : Lexer → Lexer → Prop where
  | stay {lexer : Lexer} (rests : lexer.RestsOn base) : MovesOn base lexer lexer
  | move {lexer middle last : Lexer} (rests : lexer.RestsOn base)
      (step : lexer.step = .moved middle) (further : MovesOn base middle last) :
      MovesOn base lexer last

namespace MovesOn

theorem trans {base lexer middle last : Lexer} (first : MovesOn base lexer middle)
    (second : MovesOn base middle last) : MovesOn base lexer last := by
  induction first with
  | stay rests => exact second
  | move rests step _ ih => exact .move rests step (ih second)

theorem lower {base below lexer last : Lexer} (moves : MovesOn base lexer last)
    (rests : base.RestsOn below) : MovesOn below lexer last := by
  induction moves with
  | stay above => exact .stay (above.trans rests)
  | move above step _ ih => exact .move (above.trans rests) step ih

theorem rests {base lexer last : Lexer} (moves : MovesOn base lexer last) :
    last.RestsOn base := by
  induction moves with
  | stay rests => exact rests
  | move _ _ _ ih => exact ih

theorem next_eq {base lexer last : Lexer} (moves : MovesOn base lexer last) :
    lexer.next = last.next := by
  induction moves with
  | stay rests => rfl
  | move _ step _ ih => exact (next_of_moved step).trans ih

end MovesOn

/-- A lexer moves on until it takes the given step. -/
def ComesTo (base lexer : Lexer) (step : Step) : Prop :=
  ∃ last, MovesOn base lexer last ∧ last.step = step

theorem ComesTo.next_eq {base lexer : Lexer} {step : Step}
    (comes : ComesTo base lexer step) : lexer.next = step.answer := by
  obtain ⟨last, moves, stepped⟩ := comes
  rw [moves.next_eq, next_eq_answer, stepped]

theorem ComesTo.lower {base below lexer : Lexer} {step : Step}
    (comes : ComesTo base lexer step) (rests : base.RestsOn below) :
    ComesTo below lexer step := by
  obtain ⟨last, moves, stepped⟩ := comes
  exact ⟨last, moves.lower rests, stepped⟩

theorem MovesOn.comesTo {base lexer middle : Lexer} {step : Step}
    (moves : MovesOn base lexer middle) (comes : ComesTo base middle step) :
    ComesTo base lexer step := by
  obtain ⟨last, further, stepped⟩ := comes
  exact ⟨last, moves.trans further, stepped⟩

/-- A lexer moves on until it fails with the given error. -/
def Fails (base lexer : Lexer) (error : LexicalError) : Prop :=
  ∃ after, ComesTo base lexer (.pulled (.failed error after))

theorem MovesOn.fails {base lexer middle : Lexer} {error : LexicalError}
    (moves : MovesOn base lexer middle) (fails : Fails base middle error) :
    Fails base lexer error := by
  obtain ⟨after, comes⟩ := fails
  exact ⟨after, moves.comesTo comes⟩

theorem Fails.lower {base below lexer : Lexer} {error : LexicalError}
    (fails : Fails base lexer error) (rests : base.RestsOn below) :
    Fails below lexer error := by
  obtain ⟨after, comes⟩ := fails
  exact ⟨after, comes.lower rests⟩

end Lexer

namespace StringLiteral

/-- The lexeme of a literal that has been read up to a place. -/
def lexeme (literal : StringLiteral) (more : Text) (stop : Cursor) : Lexeme :=
  { kind := literal.kind
    start := literal.start
    stop
    literal := some (literal.value ++ more) }

/-- A literal that is interrupted behind a part of its body. -/
def suspended (literal : StringLiteral) (body : Body) : StringLiteral :=
  { start := literal.start
    form := literal.interrupted
    value := literal.value ++ body.value ++ ['\x7b'] }

theorem kind_suspended (literal : StringLiteral) (body : Body) :
    (literal.suspended body).kind = literal.kind := by
  unfold suspended kind interrupted
  cases literal.form with
  | doubleQuoted => rfl
  | heredoc label atLineStart => rfl

/-- A literal that goes on behind an interpolation becomes the lexeme of the
whole. -/
theorem lexeme_suspended (literal : StringLiteral) (body : Body)
    (region tail : Text) (stop : Cursor) :
    ((literal.suspended body).append region).lexeme tail stop =
      literal.lexeme (body.value ++ '\x7b' :: region ++ tail) stop := by
  have kind : ((literal.suspended body).append region).kind = literal.kind :=
    literal.kind_suspended body
  unfold lexeme
  rw [kind]
  simp [append, suspended]

theorem append_nil (literal : StringLiteral) : literal.append [] = literal := by
  simp [append]

/-- A literal neither opens nor closes a brace. -/
theorem depthBehind?_kind (literal : StringLiteral) (depth : Nat) :
    depthBehind? depth literal.kind = some depth := by
  unfold kind
  cases literal.form with
  | doubleQuoted => rfl
  | heredoc label atLineStart => rfl

end StringLiteral

namespace Lexer

def behind (lexer : Lexer) (after : Cursor) (comments : Array Comment) : Lexer :=
  { lexer with cursor := after, literal := none, comments }

/-- The lexer delivers its open literal as it has been read, or fails like the
reader. -/
def LiteralOutcome (lexer : Lexer) (literal : StringLiteral) :
    Except LexicalError (Piece lexer.cursor) → Prop
  | .ok read =>
      ComesTo lexer lexer
        ((lexer.behind read.after read.comments).deliver
          (literal.lexeme read.text read.after))
  | .error error => Fails lexer lexer error

def resumed (lexer : Lexer) (literal : StringLiteral) (outer : List Interpolation)
    (after : Cursor) (comments : Array Comment) : Lexer :=
  { lexer with cursor := after, literal := some literal, interpolations := outer, comments }

/-- The lexer goes on with the literal around its innermost interpolation, to
which the text of the interpolation has been added, or fails like the reader. -/
def RegionOutcome (lexer : Lexer) (literal : StringLiteral)
    (outer : List Interpolation) : Except LexicalError (Piece lexer.cursor) → Prop
  | .ok region =>
      MovesOn { lexer with interpolations := outer } lexer
        (lexer.resumed (literal.append region.text) outer region.after region.comments)
  | .error error => Fails { lexer with interpolations := outer } lexer error

/-- The lexer does with an open literal what the recursive reader does. -/
def ReadsLiteral (lexer : Lexer) : Prop :=
  ∀ literal, lexer.ready = [] → lexer.literal = some literal →
    lexer.LiteralOutcome literal
      (readLiteral literal.start literal.form lexer.cursor lexer.comments)

/-- The lexer does with its innermost interpolation what the recursive reader
does. -/
def ReadsRegion (lexer : Lexer) : Prop :=
  ∀ interpolation outer, lexer.ready = [] → lexer.literal = none →
    lexer.interpolations = interpolation :: outer →
    lexer.RegionOutcome interpolation.literal outer
      (readRegion interpolation.literal.start interpolation.literal.form
        interpolation.depth lexer.cursor lexer.comments)

def interruptedBy (lexer : Lexer) (literal : StringLiteral) (body : Body) : Lexer :=
  { lexer with
    cursor := lexer.cursor.advance body.length
    literal := none
    interpolations :=
      { literal := literal.suspended body, depth := 0 } :: lexer.interpolations }

theorem step_of_literal {lexer : Lexer} {literal : StringLiteral} {body : Body}
    (ready : lexer.ready = []) (opened : lexer.literal = some literal)
    (read : literal.body lexer.cursor.rest = body) :
    lexer.step =
      match body.ending with
      | .closed =>
          (lexer.behind (lexer.cursor.advance body.length) lexer.comments).deliver
            (literal.lexeme body.value (lexer.cursor.advance body.length))
      | .interpolation => .moved (lexer.interruptedBy literal body)
      | .endOfText => .pulled (.failed (literal.unclosed lexer.cursor) lexer) := by
  obtain ⟨cursor, _, interpolations, elements, _, comments⟩ := lexer
  cases ready
  cases opened
  simp only [step, StringLiteral.read]
  rw [read]
  cases body.ending with
  | closed => rfl
  | interpolation => rfl
  | endOfText => rfl

theorem restsOn_interruptedBy (lexer : Lexer) (literal : StringLiteral) (body : Body) :
    (lexer.interruptedBy literal body).RestsOn lexer where
  interpolations := List.suffix_cons _ _
  elements := rfl
  ready := rfl

theorem regionOutcome_interruptedBy {lexer : Lexer} {literal : StringLiteral}
    {body : Body} (ready : lexer.ready = [])
    (reads : (lexer.interruptedBy literal body).ReadsRegion) :
    (lexer.interruptedBy literal body).RegionOutcome (literal.suspended body)
      lexer.interpolations
      (readRegion literal.start (opening literal.start literal.form).interrupted 0
        (lexer.cursor.advance body.length) lexer.comments) :=
  reads _ _ ready rfl rfl

/-- An interpolation that can be read takes a lexer on to the rest of its
literal. -/
theorem movesOn_interpolation {lexer : Lexer} {literal : StringLiteral} {body : Body}
    {region : Piece (lexer.cursor.advance body.length)} (ready : lexer.ready = [])
    (stepped : lexer.step = .moved (lexer.interruptedBy literal body))
    (reads : (lexer.interruptedBy literal body).ReadsRegion)
    (inside : readRegion literal.start (opening literal.start literal.form).interrupted 0
      (lexer.cursor.advance body.length) lexer.comments = .ok region) :
    MovesOn lexer lexer
      (lexer.resumed ((literal.suspended body).append region.text)
        lexer.interpolations region.after region.comments) := by
  have moves := regionOutcome_interruptedBy ready reads
  rw [inside] at moves
  apply MovesOn.move (.of_eq rfl rfl rfl) stepped
  exact moves.lower (.of_eq rfl rfl rfl)

theorem fails_interpolation {lexer : Lexer} {literal : StringLiteral} {body : Body}
    {error : LexicalError} (ready : lexer.ready = [])
    (stepped : lexer.step = .moved (lexer.interruptedBy literal body))
    (reads : (lexer.interruptedBy literal body).ReadsRegion)
    (inside : readRegion literal.start (opening literal.start literal.form).interrupted 0
      (lexer.cursor.advance body.length) lexer.comments = .error error) :
    Fails lexer lexer error := by
  have fails := regionOutcome_interruptedBy ready reads
  rw [inside] at fails
  have entered : MovesOn lexer lexer (lexer.interruptedBy literal body) :=
    .move (.of_eq rfl rfl rfl) stepped
      (.stay (restsOn_interruptedBy lexer literal body))
  exact entered.fails (fails.lower (.of_eq rfl rfl rfl))

theorem literalOutcome_resumed {lexer : Lexer} {inside : Cursor}
    (literal : StringLiteral) (body : Body) (region : Piece inside)
    (ready : lexer.ready = [])
    (reads : (lexer.resumed ((literal.suspended body).append region.text)
      lexer.interpolations region.after region.comments).ReadsLiteral) :
    (lexer.resumed ((literal.suspended body).append region.text)
      lexer.interpolations region.after region.comments).LiteralOutcome
      ((literal.suspended body).append region.text)
      (readLiteral literal.start (opening literal.start literal.form).interrupted
        region.after region.comments) :=
  reads _ ready rfl

/-- One call of the reader for a literal, given the calls it makes. -/
theorem readsLiteral_of_calls {lexer : Lexer}
    (regions : ∀ inner : Lexer, inner.cursor.rest.length < lexer.cursor.rest.length →
      inner.ReadsRegion)
    (literals : ∀ later : Lexer, later.cursor.rest.length < lexer.cursor.rest.length →
      later.ReadsLiteral) :
    lexer.ReadsLiteral := by
  intro literal ready opened
  have here : lexer.RestsOn lexer := .of_eq rfl rfl rfl
  have stepped := step_of_literal ready opened rfl
  have shorter : (literal.body lexer.cursor.rest).ending = .interpolation →
      (lexer.cursor.advance (literal.body lexer.cursor.rest).length).rest.length <
        lexer.cursor.rest.length := by
    intro ending
    exact rest_advance_body_lt literal (by simp [ending])
  have call :=
    readLiteral_call literal.start literal.form lexer.cursor lexer.comments
  change LiteralCall _ _ _ _ (literal.body lexer.cursor.rest) _ at call
  generalize literal.body lexer.cursor.rest = body at stepped shorter call
  generalize readLiteral literal.start literal.form lexer.cursor lexer.comments =
    outcome at call
  cases call with
  | closed ending onward =>
      rw [ending] at stepped
      exact ⟨lexer, .stay here, stepped⟩
  | endOfText ending =>
      rw [ending] at stepped
      exact ⟨lexer, lexer, .stay here, stepped⟩
  | @regionFailed error ending inside =>
      rw [ending] at stepped
      exact fails_interpolation ready stepped (regions _ (shorter ending)) inside
  | @tailFailed error region ending inside behind =>
      rw [ending] at stepped
      have moves :=
        movesOn_interpolation ready stepped (regions _ (shorter ending)) inside
      have read := literalOutcome_resumed literal body region ready
        (literals _ (Nat.lt_of_le_of_lt region.onward (shorter ending)))
      rw [behind] at read
      exact moves.fails (read.lower (.of_eq rfl rfl rfl))
  | @resumed region tail ending inside behind onward =>
      rw [ending] at stepped
      have moves :=
        movesOn_interpolation ready stepped (regions _ (shorter ending)) inside
      have read := literalOutcome_resumed literal body region ready
        (literals _ (Nat.lt_of_le_of_lt region.onward (shorter ending)))
      rw [behind] at read
      have comes := moves.comesTo (ComesTo.lower read (.of_eq rfl rfl rfl))
      rw [StringLiteral.lexeme_suspended] at comes
      exact comes

theorem step_of_scan {lexer : Lexer} (ready : lexer.ready = [])
    (literal : lexer.literal = none) (remaining : lexer.cursor.rest ≠ []) :
    lexer.step =
      match scan lexer.interpolations.isEmpty lexer.cursor with
      | .error error => .pulled (.failed error lexer)
      | .ok scanned => lexer.accept scanned := by
  obtain ⟨cursor, _, interpolations, elements, _, comments⟩ := lexer
  cases ready
  cases literal
  simp only [step]
  split
  · contradiction
  · rfl

/-- The lexer in front of the body of a literal that it has just found. -/
def entering (lexer : Lexer) (scanned : Scanned) (literal : StringLiteral) : Lexer :=
  { lexer.passing scanned with literal := some literal }

theorem accept_eq (lexer : Lexer) (scanned : Scanned) :
    lexer.accept scanned =
      match scanned.found with
      | .layout => .moved (lexer.passing scanned)
      | .lexeme lexeme => (lexer.passing scanned).deliver lexeme
      | .literal literal => .moved (lexer.entering scanned literal)
      | .element name =>
          .moved { lexer.passing scanned with
            elements := .opened name :: lexer.elements } := rfl

theorem step_of_scanned {lexer : Lexer} {scanned : Scanned} (ready : lexer.ready = [])
    (literal : lexer.literal = none) (remaining : lexer.cursor.rest ≠ [])
    (success : scan lexer.interpolations.isEmpty lexer.cursor = .ok scanned) :
    lexer.step =
      match scanned.found with
      | .layout => .moved (lexer.passing scanned)
      | .lexeme lexeme => (lexer.passing scanned).deliver lexeme
      | .literal literal => .moved (lexer.entering scanned literal)
      | .element name =>
          .moved { lexer.passing scanned with
            elements := .opened name :: lexer.elements } := by
  rw [step_of_scan ready literal remaining, success]
  exact lexer.accept_eq scanned

theorem restsOn_passing (lexer : Lexer) (scanned : Scanned) :
    (lexer.passing scanned).RestsOn lexer :=
  .of_eq rfl rfl rfl

theorem step_inside_finished {lexer : Lexer} {interpolation : Interpolation}
    {outer : List Interpolation} (ready : lexer.ready = [])
    (literal : lexer.literal = none)
    (interpolations : lexer.interpolations = interpolation :: outer)
    (finished : lexer.cursor.rest = []) :
    lexer.step =
      .pulled (.failed (interpolation.literal.unclosed lexer.cursor) lexer) := by
  obtain ⟨⟨offset, line, _⟩, _, _, elements, _, comments⟩ := lexer
  cases ready
  cases literal
  cases interpolations
  cases finished
  rfl

def within (lexer : Lexer) (literal : StringLiteral) (depth : Nat)
    (outer : List Interpolation) : Lexer :=
  { lexer with interpolations := { literal, depth } :: outer }

theorem deliver_inside {lexer : Lexer} {interpolation : Interpolation}
    {outer : List Interpolation} (lexeme : Lexeme)
    (interpolations : lexer.interpolations = interpolation :: outer) :
    lexer.deliver lexeme =
      match depthBehind? interpolation.depth lexeme.kind with
      | none =>
          .moved (lexer.resumed (interpolation.literal.append lexeme.raw) outer
            lexer.cursor lexer.comments)
      | some depth =>
          .moved (lexer.within (interpolation.literal.append lexeme.raw) depth outer) := by
  unfold deliver Interpolation.receive depthBehind?
  rw [interpolations]
  obtain ⟨literal, depth⟩ := interpolation
  cases lexeme.kind with
  | rightBrace =>
      cases depth with
      | zero => rfl
      | succ depth => rfl
  | _ => rfl

theorem ComesTo.movesOn {base lexer after : Lexer}
    (comes : ComesTo base lexer (.moved after)) (rests : after.RestsOn base) :
    MovesOn base lexer after := by
  obtain ⟨last, moves, stepped⟩ := comes
  exact moves.trans (.move moves.rests stepped (.stay rests))

/-- An interpolation of which a part has been read is read to its end. -/
theorem RegionOutcome.behind {lexer later : Lexer} {literal : StringLiteral}
    {outer : List Interpolation} {text : Text}
    {outcome : Except LexicalError (Piece later.cursor)}
    (moves : MovesOn { lexer with interpolations := outer } lexer later)
    (onward : later.cursor.rest.length ≤ lexer.cursor.rest.length)
    (read : later.RegionOutcome (literal.append text) outer outcome) :
    lexer.RegionOutcome literal outer (outcome.map (·.prepend text onward)) := by
  have rests := moves.rests
  have below : { later with interpolations := outer }.RestsOn
      { lexer with interpolations := outer } :=
    .of_eq rfl rests.elements rests.ready
  cases outcome with
  | error error => exact moves.fails (read.lower below)
  | ok region =>
      have further := moves.trans (read.lower below)
      have same : later.resumed ((literal.append text).append region.text) outer
          region.after region.comments =
          lexer.resumed (literal.append (text ++ region.text)) outer region.after
            region.comments := by
        simp [resumed, rests.elements, rests.ready, StringLiteral.append]
      rw [same] at further
      exact further

theorem restsOn_entering (lexer : Lexer) (scanned : Scanned) (inner : StringLiteral) :
    (lexer.entering scanned inner).RestsOn lexer :=
  .of_eq rfl rfl rfl

theorem literalOutcome_entering {lexer : Lexer} {scanned : Scanned}
    {inner : StringLiteral} (ready : lexer.ready = [])
    (reads : (lexer.entering scanned inner).ReadsLiteral) :
    (lexer.entering scanned inner).LiteralOutcome inner
      (readLiteral inner.start inner.form scanned.after
        (scanned.commentsBehind lexer.comments)) :=
  reads inner ready rfl

theorem restsOn_outer {lexer : Lexer} {interpolation : Interpolation}
    {outer : List Interpolation}
    (interpolations : lexer.interpolations = interpolation :: outer) :
    lexer.RestsOn { lexer with interpolations := outer } where
  interpolations := interpolations ▸ List.suffix_cons _ _
  elements := rfl
  ready := rfl

/-- A lexer whose scan succeeds inside of its innermost interpolation. -/
structure ScansInside (lexer : Lexer) (interpolation : Interpolation)
    (outer : List Interpolation) (scanned : Scanned) : Prop where
  ready : lexer.ready = []
  literal : lexer.literal = none
  interpolations : lexer.interpolations = interpolation :: outer
  remaining : lexer.cursor.rest ≠ []
  success : scan false lexer.cursor = .ok scanned

namespace ScansInside

variable {lexer : Lexer} {interpolation : Interpolation} {outer : List Interpolation}
  {scanned : Scanned} {lexeme : Lexeme} {inner : StringLiteral}

theorem restsOn (scans : lexer.ScansInside interpolation outer scanned) :
    lexer.RestsOn { lexer with interpolations := outer } :=
  restsOn_outer scans.interpolations

theorem shorter (scans : lexer.ScansInside interpolation outer scanned) :
    scanned.after.rest.length < lexer.cursor.rest.length :=
  scan_shorter scans.remaining scans.success

theorem step_eq (scans : lexer.ScansInside interpolation outer scanned) :
    lexer.step =
      match scanned.found with
      | .layout => .moved (lexer.passing scanned)
      | .lexeme lexeme => (lexer.passing scanned).deliver lexeme
      | .literal literal => .moved (lexer.entering scanned literal)
      | .element name =>
          .moved { lexer.passing scanned with
            elements := .opened name :: lexer.elements } := by
  -- No markup opens inside.
  have success : scan lexer.interpolations.isEmpty lexer.cursor = .ok scanned := by
    rw [scans.interpolations]
    exact scans.success
  exact step_of_scanned scans.ready scans.literal scans.remaining success

theorem step_lexeme (scans : lexer.ScansInside interpolation outer scanned)
    (found : scanned.found = .lexeme lexeme) :
    lexer.step =
      match depthBehind? interpolation.depth lexeme.kind with
      | none =>
          .moved ((lexer.passing scanned).resumed (interpolation.literal.append lexeme.raw) outer
            scanned.after (scanned.commentsBehind lexer.comments))
      | some depth =>
          .moved ((lexer.passing scanned).within (interpolation.literal.append lexeme.raw) depth
            outer) := by
  have stepped := scans.step_eq
  rw [found] at stepped
  exact stepped.trans (deliver_inside lexeme scans.interpolations)

theorem movesOn_layout (scans : lexer.ScansInside interpolation outer scanned)
    (found : scanned.found = .layout) :
    MovesOn { lexer with interpolations := outer } lexer (lexer.passing scanned) := by
  have stepped := scans.step_eq
  rw [found] at stepped
  exact .move scans.restsOn stepped (.stay ((restsOn_passing lexer scanned).trans scans.restsOn))

theorem movesOn_entering (scans : lexer.ScansInside interpolation outer scanned)
    (found : scanned.found = .literal inner) :
    MovesOn { lexer with interpolations := outer } lexer (lexer.entering scanned inner) := by
  have stepped := scans.step_eq
  rw [found] at stepped
  exact .move scans.restsOn stepped
    (.stay ((restsOn_entering lexer scanned inner).trans scans.restsOn))

theorem regionOutcome_layout (scans : lexer.ScansInside interpolation outer scanned)
    (found : scanned.found = .layout)
    (onward : scanned.after.rest.length ≤ lexer.cursor.rest.length)
    (reads : (lexer.passing scanned).ReadsRegion) :
    lexer.RegionOutcome interpolation.literal outer
      ((readRegion interpolation.literal.start interpolation.literal.form interpolation.depth
        scanned.after (scanned.commentsBehind lexer.comments)).map (·.prepend [] onward)) := by
  have read := reads interpolation outer scans.ready scans.literal scans.interpolations
  rw [← StringLiteral.append_nil interpolation.literal] at read
  exact .behind (scans.movesOn_layout found) onward read

theorem regionOutcome_last (scans : lexer.ScansInside interpolation outer scanned)
    (found : scanned.found = .lexeme lexeme)
    (closes : depthBehind? interpolation.depth lexeme.kind = none)
    (onward : scanned.after.rest.length ≤ lexer.cursor.rest.length) :
    lexer.RegionOutcome interpolation.literal outer
      (.ok
        { text := lexeme.raw
          after := scanned.after
          comments := scanned.commentsBehind lexer.comments
          onward }) := by
  have stepped := scans.step_lexeme found
  rw [closes] at stepped
  exact .move scans.restsOn stepped (.stay (.of_eq rfl rfl rfl))

theorem regionOutcome_lexeme {depth : Nat}
    (scans : lexer.ScansInside interpolation outer scanned)
    (found : scanned.found = .lexeme lexeme)
    (goes : depthBehind? interpolation.depth lexeme.kind = some depth)
    (onward : scanned.after.rest.length ≤ lexer.cursor.rest.length)
    (reads : ((lexer.passing scanned).within (interpolation.literal.append lexeme.raw) depth
      outer).ReadsRegion) :
    lexer.RegionOutcome interpolation.literal outer
      ((readRegion interpolation.literal.start interpolation.literal.form depth
        scanned.after (scanned.commentsBehind lexer.comments)).map
          (·.prepend lexeme.raw onward)) := by
  have stepped := scans.step_lexeme found
  rw [goes] at stepped
  have moves := MovesOn.move scans.restsOn stepped (.stay ⟨List.suffix_cons _ _, rfl, rfl⟩)
  exact .behind moves onward (reads _ _ scans.ready scans.literal rfl)

theorem regionOutcome_literalFailed {error : LexicalError}
    (scans : lexer.ScansInside interpolation outer scanned)
    (found : scanned.found = .literal inner)
    (reads : (lexer.entering scanned inner).ReadsLiteral)
    (inside : readLiteral inner.start inner.form scanned.after
      (scanned.commentsBehind lexer.comments) = .error error) :
    lexer.RegionOutcome interpolation.literal outer (.error error) := by
  have read := literalOutcome_entering scans.ready reads
  rw [inside] at read
  have entered := scans.movesOn_entering found
  exact entered.fails (read.lower entered.rests)

/-- A literal that can be read is delivered to the interpolation around it. -/
theorem movesOn_literal {read : Piece scanned.after}
    (scans : lexer.ScansInside interpolation outer scanned)
    (found : scanned.found = .literal inner)
    (reads : (lexer.entering scanned inner).ReadsLiteral)
    (inside : readLiteral inner.start inner.form scanned.after
      (scanned.commentsBehind lexer.comments) = .ok read) :
    MovesOn { lexer with interpolations := outer } lexer
      (((lexer.entering scanned inner).behind read.after read.comments).within
        (interpolation.literal.append (inner.start.spanTo read.after).text)
        interpolation.depth outer) := by
  have comes := literalOutcome_entering scans.ready reads
  rw [inside] at comes
  change ComesTo _ _ _ at comes
  have around : ((lexer.entering scanned inner).behind
      read.after read.comments).interpolations = interpolation :: outer :=
    scans.interpolations
  have goes : depthBehind? interpolation.depth
      (inner.lexeme read.text read.after).kind = some interpolation.depth :=
    inner.depthBehind?_kind interpolation.depth
  rw [deliver_inside _ around, goes] at comes
  have entered := scans.movesOn_entering found
  exact entered.trans
    ((comes.lower entered.rests).movesOn ⟨List.suffix_cons _ _, rfl, rfl⟩)

theorem regionOutcome_literal {read : Piece scanned.after}
    (scans : lexer.ScansInside interpolation outer scanned)
    (found : scanned.found = .literal inner)
    (enters : (lexer.entering scanned inner).ReadsLiteral)
    (inside : readLiteral inner.start inner.form scanned.after
      (scanned.commentsBehind lexer.comments) = .ok read)
    (onward : read.after.rest.length ≤ lexer.cursor.rest.length)
    (reads : (((lexer.entering scanned inner).behind read.after read.comments).within
      (interpolation.literal.append (inner.start.spanTo read.after).text)
      interpolation.depth outer).ReadsRegion) :
    lexer.RegionOutcome interpolation.literal outer
      ((readRegion interpolation.literal.start interpolation.literal.form interpolation.depth
        read.after read.comments).map
          (·.prepend (inner.start.spanTo read.after).text onward)) :=
  .behind (scans.movesOn_literal found enters inside) onward (reads _ _ scans.ready rfl rfl)

end ScansInside

/-- One call of the reader for an interpolation, given the calls it makes. -/
theorem readsRegion_of_calls {lexer : Lexer}
    (regions : ∀ inner : Lexer, inner.cursor.rest.length < lexer.cursor.rest.length →
      inner.ReadsRegion)
    (literals : ∀ later : Lexer, later.cursor.rest.length < lexer.cursor.rest.length →
      later.ReadsLiteral) :
    lexer.ReadsRegion := by
  intro interpolation outer ready literal interpolations
  have here := restsOn_outer interpolations
  have scans {scanned : Scanned} (remaining : lexer.cursor.rest ≠ [])
      (success : scan false lexer.cursor = .ok scanned) :
      lexer.ScansInside interpolation outer scanned :=
    ⟨ready, literal, interpolations, remaining, success⟩
  have call := readRegion_call interpolation.literal.start interpolation.literal.form
    interpolation.depth lexer.cursor lexer.comments
  generalize readRegion interpolation.literal.start interpolation.literal.form
    interpolation.depth lexer.cursor lexer.comments = outcome at call
  cases call with
  | endOfText finished =>
      exact ⟨lexer, lexer, .stay here,
        step_inside_finished ready literal interpolations finished⟩
  | @scanFailed error remaining failure =>
      have stepped := step_of_scan ready literal remaining
      rw [interpolations] at stepped
      change _ = match scan false lexer.cursor with | .error _ => _ | .ok _ => _ at stepped
      rw [failure] at stepped
      exact ⟨lexer, lexer, .stay here, stepped⟩
  | layout remaining success found onward =>
      have scans := scans remaining success
      exact scans.regionOutcome_layout found onward (regions _ scans.shorter)
  | last remaining success found closes onward =>
      exact (scans remaining success).regionOutcome_last found closes onward
  | lexeme remaining success found goes onward =>
      have scans := scans remaining success
      exact scans.regionOutcome_lexeme found goes onward (regions _ scans.shorter)
  | literalFailed remaining success found inside =>
      have scans := scans remaining success
      exact scans.regionOutcome_literalFailed found (literals _ scans.shorter) inside
  | @literal scanned inner read remaining success found inside onward =>
      have scans := scans remaining success
      have later := Nat.lt_of_le_of_lt read.onward scans.shorter
      exact scans.regionOutcome_literal found (literals _ scans.shorter) inside onward
        (regions _ later)

/-- The lexer reads every open literal and every interpolation like the
recursive reader. -/
theorem reads_recursively (lexer : Lexer) : lexer.ReadsLiteral ∧ lexer.ReadsRegion := by
  -- both readers call each other behind what they have read
  induction size : lexer.cursor.rest.length using Nat.strongRecOn generalizing lexer with
  | _ size ih =>
      have literals : ∀ later : Lexer,
          later.cursor.rest.length < lexer.cursor.rest.length → later.ReadsLiteral :=
        fun later shorter => (ih _ (size ▸ shorter) later rfl).1
      have regions : ∀ inner : Lexer,
          inner.cursor.rest.length < lexer.cursor.rest.length → inner.ReadsRegion :=
        fun inner shorter => (ih _ (size ▸ shorter) inner rfl).2
      exact ⟨readsLiteral_of_calls regions literals, readsRegion_of_calls regions literals⟩

end Lexer

/-- Wherever a scan enters a literal and whatever is open there, the lexer
delivers to it the literal that the recursive reader reads, or it fails with the
error of the reader; what is open stays as it is until then. -/
theorem literal_delivered_as_read {lexer : Lexer} {scanned : Scanned}
    {literal : StringLiteral} (ready : lexer.ready = [])
    (outside : lexer.literal = none) (remaining : lexer.cursor.rest ≠ [])
    (entered : scan lexer.interpolations.isEmpty lexer.cursor = .ok scanned)
    (found : scanned.found = .literal literal) :
    match readLiteral lexer.cursor literal.form scanned.after lexer.comments with
    | .ok read =>
        let delivered :=
          { lexer with cursor := read.after, comments := read.comments }.deliver
            { kind := literal.kind
              start := lexer.cursor
              stop := read.after
              literal := some read.text }
        Lexer.ComesTo lexer lexer delivered ∧ lexer.next = delivered.answer
    | .error error =>
        ∃ after, Lexer.ComesTo lexer lexer (.pulled (.failed error after)) ∧
          lexer.next = .failed error after := by
  have here : lexer.RestsOn lexer := .of_eq rfl rfl rfl
  have stepped := Lexer.step_of_scanned ready outside remaining entered
  rw [found] at stepped
  have moves : Lexer.MovesOn lexer lexer (lexer.entering scanned literal) :=
    .move here stepped (.stay (Lexer.restsOn_entering lexer scanned literal))
  have read := Lexer.literalOutcome_entering ready
    (lexer.entering scanned literal).reads_recursively.1
  obtain ⟨fresh, silent⟩ := (scan_success entered).literal_eq found
  have sink : scanned.commentsBehind lexer.comments = lexer.comments := by
    rw [Scanned.commentsBehind, silent]
  have start : literal.start = lexer.cursor := by rw [fresh]
  have value : literal.value = [] := by rw [fresh]
  rw [sink, start] at read
  have below := Lexer.restsOn_entering lexer scanned literal
  cases outcome : readLiteral lexer.cursor literal.form scanned.after lexer.comments with
  | ok piece =>
      rw [outcome] at read
      have comes := moves.comesTo (Lexer.ComesTo.lower read below)
      have lexeme : literal.lexeme piece.text piece.after =
          { kind := literal.kind
            start := lexer.cursor
            stop := piece.after
            literal := some piece.text } := by
        rw [StringLiteral.lexeme, start, value, List.nil_append]
      have target : (lexer.entering scanned literal).behind piece.after piece.comments =
          { lexer with cursor := piece.after, comments := piece.comments } := by
        rw [outside]
        rfl
      rw [lexeme, target] at comes
      exact ⟨comes, comes.next_eq⟩
  | error error =>
      rw [outcome] at read
      obtain ⟨after, comes⟩ := moves.fails (read.lower below)
      exact ⟨after, comes, comes.next_eq⟩

/-- A string in the opening tag of an element, with an interpolation that holds
another string with an interpolation, a comment and balanced braces. -/
theorem nested_literal_delivered_as_read :
    let text := "<p \"a\x7bf(\"b\x7b$c\x7d\")/*x*/ \x7bd\x7d\x7de\"".toList
    let name := (Cursor.atStart text).lexeme .xhpName 2
    let lexer : Lexer :=
      { Lexer.ofText text with
        cursor := (Cursor.atStart text).advance 3
        elements := [.opened name] }
    ∃ scanned literal read,
      scan lexer.interpolations.isEmpty lexer.cursor = .ok scanned ∧
      scanned.found = .literal literal ∧
      readLiteral lexer.cursor literal.form scanned.after lexer.comments = .ok read ∧
      read.text = "a\x7bf(\"b\x7b$c\x7d\")\x7bd\x7d\x7de".toList ∧ read.after.rest = [] ∧
      lexer.next =
        ({ lexer with cursor := read.after, comments := read.comments }.deliver
          { kind := .doubleQuotedString
            start := lexer.cursor
            stop := read.after
            literal := some read.text }).answer := by
  intro text name lexer
  have entered : scan lexer.interpolations.isEmpty lexer.cursor =
      .ok { found := .literal (opening lexer.cursor .doubleQuoted)
            after := lexer.cursor.advance 1
            comment := none } := rfl
  have evaluated : (readLiteral lexer.cursor .doubleQuoted (lexer.cursor.advance 1)
      lexer.comments).toOption.map (fun read => (read.text, read.after.rest)) =
      some ("a\x7bf(\"b\x7b$c\x7d\")\x7bd\x7d\x7de".toList, []) := by
    decide +kernel
  have delivered :=
    literal_delivered_as_read rfl rfl (List.cons_ne_nil _ _) entered rfl
  cases outcome : readLiteral lexer.cursor .doubleQuoted (lexer.cursor.advance 1)
      lexer.comments with
  | error error =>
      rw [outcome] at evaluated
      cases evaluated
  | ok read =>
      rw [outcome] at evaluated
      obtain ⟨value, rest⟩ := Prod.mk.inj (Option.some.inj evaluated)
      dsimp only [opening] at delivered
      rw [outcome] at delivered
      refine ⟨{ found := _, after := _, comment := none },
        opening lexer.cursor .doubleQuoted, read, entered, rfl, outcome, value, rest, ?_⟩
      exact delivered.2

end HackLexer
