import HackLexer.Proofs.Exhaustion
import HackLexer.Proofs.LiteralRefinement

/-!
# Strides of the lexer

Outside of literals, a stride is a step, except that a literal is read as a whole
when it is opened.  So the lexer is outside of literals again behind each stride,
and between strides only its cursor, the open elements and the ready tokens
matter.

Draining a lexer follows its strides, and what strides lead to belongs to a run.
-/

namespace HackLexer

def Step.IsFailure : Step → Prop
  | .pulled (.failed _ _) => True
  | _ => False

namespace Lexer

structure Outside (lexer : Lexer) : Prop where
  literal : lexer.literal = none
  interpolations : lexer.interpolations = []

/-- Reads a literal that has been opened in front of a cursor, and delivers it. -/
def readOpened (lexer : Lexer) (literal : StringLiteral) (cursor : Cursor) : Step :=
  match readLiteral literal.start literal.form cursor lexer.comments with
  | .error error => .pulled (.failed error lexer)
  | .ok read =>
      (lexer.behind read.after read.comments).deliver (literal.lexeme read.text read.after)

/-- Takes in the result of a scan, and reads the literal that it may have
opened. -/
def takeIn (lexer : Lexer) (scanned : Scanned) : Step :=
  match scanned.found with
  | .literal opened => lexer.readOpened opened scanned.after
  | _ => lexer.accept scanned

def stride (lexer : Lexer) : Step :=
  match lexer.ready with
  | token :: more => .pulled (.token token { lexer with ready := more })
  | [] =>
      match lexer.cursor.rest with
      | [] => .pulled lexer.finish
      | _ :: _ =>
          match scan true lexer.cursor with
          | .error error => .pulled (.failed error lexer)
          | .ok scanned => lexer.takeIn scanned

theorem stride_of_scan {lexer : Lexer} (ready : lexer.ready = [])
    (remaining : lexer.cursor.rest ≠ []) :
    lexer.stride =
      match scan true lexer.cursor with
      | .error error => .pulled (.failed error lexer)
      | .ok scanned => lexer.takeIn scanned := by
  unfold stride
  rw [ready]
  dsimp only
  split
  · rename_i finished
    exact absurd finished remaining
  · rfl

/-- The lexer moves on until it takes the step, or fails as the step does. -/
def ComesUpTo (lexer : Lexer) : Step → Prop
  | .pulled (.failed error _) => Fails lexer lexer error
  | step => ComesTo lexer lexer step

theorem comesUpTo_of_comesTo {lexer : Lexer} {step : Step} (comes : ComesTo lexer lexer step) :
    lexer.ComesUpTo step := by
  match step with
  | .pulled (.failed error after) => exact ⟨after, comes⟩
  | .pulled (.token token after) => exact comes
  | .pulled (.endOfText after) => exact comes
  | .moved after => exact comes

theorem comesUpTo_of_step {lexer : Lexer} {step : Step} (stepped : lexer.step = step) :
    lexer.ComesUpTo step :=
  comesUpTo_of_comesTo ⟨lexer, .stay (.of_eq rfl rfl rfl), stepped⟩

theorem comesUpTo_readOpened {lexer : Lexer} {scanned : Scanned} {opened : StringLiteral}
    (ready : lexer.ready = []) (silent : scanned.comment = none)
    (stepped : lexer.step = .moved (lexer.entering scanned opened)) :
    lexer.ComesUpTo (lexer.readOpened opened scanned.after) := by
  have enters : MovesOn lexer lexer (lexer.entering scanned opened) :=
    .move (.of_eq rfl rfl rfl) stepped (.stay (restsOn_entering lexer scanned opened))
  have rests := restsOn_entering lexer scanned opened
  have outcome := @literalOutcome_entering lexer scanned opened ready
    (reads_recursively _).1
  rw [Scanned.commentsBehind, silent] at outcome
  unfold readOpened
  cases read : readLiteral opened.start opened.form scanned.after lexer.comments with
  | error error =>
      rw [read] at outcome
      exact enters.fails (outcome.lower rests)
  | ok piece =>
      rw [read] at outcome
      exact comesUpTo_of_comesTo (enters.comesTo (ComesTo.lower outcome rests))

theorem comesUpTo_stride {lexer : Lexer} (outside : lexer.Outside) :
    lexer.ComesUpTo lexer.stride := by
  cases ready : lexer.ready with
  | cons token more =>
      apply comesUpTo_of_step
      simp only [step, stride, ready]
  | nil =>
      by_cases finished : lexer.cursor.rest = []
      · apply comesUpTo_of_step
        simp only [step, stride, ready, outside.literal, finished]
      · have stepped := step_of_scan ready outside.literal finished
        rw [outside.interpolations] at stepped
        change _ = match scan true lexer.cursor with | .error _ => _ | .ok _ => _ at stepped
        rw [stride_of_scan ready finished]
        cases success : scan true lexer.cursor with
        | error error =>
            rw [success] at stepped
            exact comesUpTo_of_step stepped
        | ok scanned =>
            rw [success] at stepped
            cases found : scanned.found with
            | literal opened =>
                have silent := ((scan_success success).literal_eq found).2
                have enters : lexer.step = .moved (lexer.entering scanned opened) := by
                  rw [stepped]
                  change lexer.accept scanned = _
                  rw [accept_eq, found]
                simp only [takeIn, found]
                exact comesUpTo_readOpened ready silent enters
            | _ =>
                apply comesUpTo_of_step
                rw [stepped]
                simp only [takeIn, found]

theorem MovesOn.run {base lexer last : Lexer} {text : Text} {tokens : List Token}
    (moves : MovesOn base lexer last) (run : Run text tokens lexer) : Run text tokens last := by
  induction moves with
  | stay => exact run
  | move _ step _ ih => exact ih (run.moved step)

theorem MovesOn.reaches {base lexer last : Lexer} (moves : MovesOn base lexer last) :
    lexer.cursor.Reaches last.cursor := by
  induction moves with
  | stay => exact .refl _
  | @move lexer middle last _ step _ ih =>
      have reaches := lexer.reaches_step
      rw [step] at reaches
      exact reaches.trans ih

/-- An upper bound of the steps to come. -/
def size (lexer : Lexer) : Nat :=
  lexer.potential + lexer.cursor.rest.length

theorem size_of_step_moved {lexer after : Lexer} (step : lexer.step = .moved after) :
    after.size < lexer.size := by
  have moved := step_moved step
  unfold size
  omega

theorem size_of_step_token {lexer after : Lexer} {token : Token}
    (step : lexer.step = .pulled (.token token after)) : after.size < lexer.size := by
  have fewer := step_token step
  have onward := lexer.reaches_step
  rw [step] at onward
  have shorter : after.cursor.rest.length ≤ lexer.cursor.rest.length := onward.length_rest_le
  unfold size
  omega

theorem MovesOn.size_le {base lexer last : Lexer} (moves : MovesOn base lexer last) :
    last.size ≤ lexer.size := by
  induction moves with
  | stay => exact Nat.le_refl _
  | move _ step _ ih => exact Nat.le_trans ih (Nat.le_of_lt (size_of_step_moved step))

/-- All that a lexer hands out, behind tokens that were handed out before. -/
def drainedBehind (tokens : List Token) :
    Except LexicalError (List Token × Lexer) → Except LexicalError (List Token × Lexer)
  | .error error => .error error
  | .ok (more, last) => .ok (tokens ++ more, last)

theorem drainedBehind_nil (drained : Except LexicalError (List Token × Lexer)) :
    drainedBehind [] drained = drained := by
  cases drained with
  | error error => rfl
  | ok result => rfl

theorem drainedBehind_append (first second : List Token)
    (drained : Except LexicalError (List Token × Lexer)) :
    drainedBehind (first ++ second) drained =
      drainedBehind first (drainedBehind second drained) := by
  cases drained with
  | error error => rfl
  | ok result => simp only [drainedBehind, List.append_assoc]

theorem drainedBehind_eq_ok {tokens handed : List Token} {final : Lexer}
    {drained : Except LexicalError (List Token × Lexer)}
    (success : drainedBehind tokens drained = .ok (handed, final)) :
    ∃ more, drained = .ok (more, final) ∧ handed = tokens ++ more := by
  cases drained with
  | error error => cases success
  | ok result =>
      cases success
      exact ⟨result.1, rfl, rfl⟩

section

variable {lexer after : Lexer} (outside : lexer.Outside)

include outside

theorem size_of_stride_moved (strode : lexer.stride = .moved after) : after.size < lexer.size := by
  have comes := comesUpTo_stride outside
  rw [strode] at comes
  obtain ⟨last, moves, step⟩ := comes
  exact Nat.lt_of_lt_of_le (size_of_step_moved step) moves.size_le

theorem size_of_stride_token {token : Token}
    (strode : lexer.stride = .pulled (.token token after)) : after.size < lexer.size := by
  have comes := comesUpTo_stride outside
  rw [strode] at comes
  obtain ⟨last, moves, step⟩ := comes
  exact Nat.lt_of_lt_of_le (size_of_step_token step) moves.size_le

theorem Run.stride_moved {text : Text} {tokens : List Token} (run : Run text tokens lexer)
    (strode : lexer.stride = .moved after) : Run text tokens after := by
  have comes := comesUpTo_stride outside
  rw [strode] at comes
  obtain ⟨last, moves, step⟩ := comes
  exact (moves.run run).moved step

theorem Run.stride_token {text : Text} {tokens : List Token} {token : Token}
    (run : Run text tokens lexer) (strode : lexer.stride = .pulled (.token token after)) :
    Run text (tokens ++ [token]) after := by
  have comes := comesUpTo_stride outside
  rw [strode] at comes
  obtain ⟨last, moves, step⟩ := comes
  exact (moves.run run).token step

theorem next_of_stride :
    match lexer.stride with
    | .moved after => lexer.next = after.next
    | .pulled (.failed error _) => ∃ after, lexer.next = .failed error after
    | .pulled answer => lexer.next = answer := by
  have comes := comesUpTo_stride outside
  split
  · rename_i strode
    rw [strode] at comes
    exact ComesTo.next_eq comes
  · rename_i strode
    rw [strode] at comes
    obtain ⟨after, comes⟩ := comes
    exact ⟨after, comes.next_eq⟩
  · rename_i answer successful strode
    rw [strode] at comes
    cases answer with
    | token token after => exact ComesTo.next_eq comes
    | endOfText after => exact ComesTo.next_eq comes
    | failed error after => exact absurd rfl (successful error after)

theorem drain_of_stride :
    lexer.drain =
      match lexer.stride with
      | .moved after => after.drain
      | .pulled (.failed error _) => .error error
      | .pulled (.endOfText after) => .ok ([], after)
      | .pulled (.token token after) => drainedBehind [token] after.drain := by
  have next := next_of_stride outside
  rw [drain_eq]
  cases strode : lexer.stride with
  | moved after =>
      rw [strode] at next
      dsimp only at next ⊢
      rw [drain_eq after, next]
  | pulled answer =>
      rw [strode] at next
      cases answer with
      | token token after =>
          rw [next]
          dsimp only
          cases after.drain with
          | error error => rfl
          | ok result => rfl
      | endOfText after => rw [next]
      | failed error after =>
          obtain ⟨last, failed⟩ := next
          rw [failed]

theorem drain_of_failure (failure : lexer.stride.IsFailure) :
    ∃ error, lexer.drain = .error error := by
  rw [drain_of_stride outside]
  cases strode : lexer.stride with
  | moved after =>
      rw [strode] at failure
      exact failure.elim
  | pulled answer =>
      rw [strode] at failure
      cases answer with
      | token token after => exact failure.elim
      | endOfText after => exact failure.elim
      | failed error after => exact ⟨error, rfl⟩

end

theorem takeIn_ne_endOfText (lexer after : Lexer) (scanned : Scanned) :
    lexer.takeIn scanned ≠ .pulled (.endOfText after) := by
  unfold takeIn
  split
  · unfold readOpened
    split
    · nofun
    · exact (deliver_delivery _ _).ne_endOfText
  · rw [accept_eq]
    split
    · nofun
    · exact (deliver_delivery _ _).ne_endOfText
    · nofun
    · nofun

/-- A stride that ends the text has nothing more to read. -/
theorem stride_endOfText {lexer after : Lexer}
    (strode : lexer.stride = .pulled (.endOfText after)) :
    lexer.ready = [] ∧ lexer.cursor.rest = [] := by
  cases ready : lexer.ready with
  | cons token more => simp [stride, ready] at strode
  | nil =>
      refine ⟨rfl, ?_⟩
      by_cases finished : lexer.cursor.rest = []
      · exact finished
      · rw [stride_of_scan ready finished] at strode
        split at strode
        · cases strode
        · exact absurd strode (takeIn_ne_endOfText _ _ _)

theorem Outside.handBack {lexer : Lexer} (outside : lexer.Outside) (lexemes : List Lexeme) :
    (lexer.handBack lexemes).Outside := by
  unfold Lexer.handBack
  split
  · exact ⟨outside.literal, outside.interpolations⟩
  · exact ⟨outside.literal, outside.interpolations⟩

theorem Outside.deliver {lexer : Lexer} (outside : lexer.Outside) (lexeme : Lexeme) :
    (lexer.deliver lexeme).after.Outside := by
  have delivery := deliver_delivery lexer lexeme
  generalize lexer.deliver lexeme = step at delivery
  have closed := outside.interpolations
  cases delivery with
  | within interpolations =>
      rw [closed] at interpolations
      cases interpolations
  | ended interpolations =>
      rw [closed] at interpolations
      cases interpolations
  | token => exact outside
  | collecting => exact ⟨outside.literal, closed⟩
  | @complete element outer lexemes =>
      have dropped : { lexer with elements := outer }.Outside := ⟨outside.literal, closed⟩
      exact dropped.handBack lexemes
  | comment => exact ⟨outside.literal, closed⟩
  | unclosedComment => exact outside

theorem Outside.takeIn {lexer : Lexer} (outside : lexer.Outside) (scanned : Scanned) :
    (lexer.takeIn scanned).after.Outside := by
  have passing : (lexer.passing scanned).Outside := ⟨outside.literal, outside.interpolations⟩
  unfold Lexer.takeIn
  split
  · unfold readOpened
    split
    · exact outside
    · rename_i read _
      have behind : (lexer.behind read.after read.comments).Outside :=
        ⟨rfl, outside.interpolations⟩
      exact behind.deliver _
  · rename_i noLiteral
    rw [accept_eq]
    split
    · exact passing
    · exact passing.deliver _
    · rename_i literal found
      exact absurd found (noLiteral literal)
    · exact ⟨outside.literal, outside.interpolations⟩

theorem Outside.finish {lexer : Lexer} (outside : lexer.Outside) :
    lexer.finish.after.Outside := by
  unfold Lexer.finish
  split
  · exact outside
  · split
    · exact outside
    · exact ⟨outside.literal, outside.interpolations⟩

/-- Behind a stride, the lexer is outside of literals again. -/
theorem Outside.stride {lexer : Lexer} (outside : lexer.Outside) :
    lexer.stride.after.Outside := by
  unfold Lexer.stride
  split
  · exact ⟨outside.literal, outside.interpolations⟩
  · split
    · exact outside.finish
    · split
      · exact outside
      · exact outside.takeIn _

theorem outside_ofText (text : Text) : (ofText text).Outside :=
  ⟨rfl, rfl⟩

/-- Nothing is left to read or to hand out. -/
structure Done (lexer : Lexer) : Prop extends lexer.Outside where
  ready : lexer.ready = []
  elements : lexer.elements = []
  finished : lexer.cursor.rest = []

theorem Done.drain_eq {lexer : Lexer} (done : lexer.Done) : lexer.drain = .ok ([], lexer) := by
  have stride : lexer.stride = .pulled (.endOfText lexer) := by
    simp only [stride, done.ready, done.finished, finish, done.interpolations, done.elements,
      Element.dissolve_nil]
  rw [drain_of_stride done.toOutside, stride]

end Lexer

theorem readLiteral_reaches {start : Cursor} {form : LiteralForm} {cursor : Cursor}
    {comments : Array Comment} {read : Piece cursor}
    (success : readLiteral start form cursor comments = .ok read) :
    cursor.Reaches read.after := by
  let lexer : Lexer :=
    { Lexer.ofText [] with cursor, literal := some (opening start form), comments }
  have outcome := (Lexer.reads_recursively lexer).1 _ rfl rfl
  change lexer.LiteralOutcome _ (readLiteral start form cursor comments) at outcome
  rw [success] at outcome
  obtain ⟨last, moves, step⟩ := outcome
  have onward := last.reaches_step
  rw [step] at onward
  exact moves.reaches.trans onward

end HackLexer
