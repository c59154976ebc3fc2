import HackLexer.Proofs.LiteralRefinement

/-!
# The first token of a text

In front of a text nothing is open.  So a lexeme that opens a text is handed out
at once, and a literal that has no interpolations after one more step.  Lexing
goes on behind the token with nothing open and nothing passed over.
-/

namespace HackLexer

/-- The cursor between the front of a text and what follows it. -/
def Cursor.behind (front rest : Text) : Cursor :=
  { offset := Text.byteLength front, line := Text.lineFeeds front, rest }

@[simp]
theorem Cursor.rest_behind (front rest : Text) : (behind front rest).rest = rest := rfl

theorem Cursor.advance_atStart (front rest : Text) :
    (atStart (front ++ rest)).advance front.length = .behind front rest := by
  simp [atStart, advance, behind]

theorem Cursor.advance_behind (front more rest : Text) :
    (Cursor.behind front (more ++ rest)).advance more.length = .behind (front ++ more) rest := by
  simp [behind, advance]

theorem Cursor.isPlaceOf_behind (front rest : Text) :
    (behind front rest).IsPlaceOf (front ++ rest) := by
  rw [← advance_atStart]
  exact Reaches.advance _ _

/-- The first answer about a text is a token that covers the front of the text
and has the given value, and lexing goes on behind it. -/
structure OpensWith (text : Text) (kind : TokenKind) (front value behind : Text) : Prop where
  whole : text = front ++ behind
  answer :
    (Lexer.ofText text).next =
      .token
        { kind, span := { start := 0, text := front }, line := 0, literal := some value }
        { Lexer.ofText text with cursor := .behind front behind }

/-- The first answer about a text is that what it opens with never ends. -/
def LeavesOpen (text : Text) (cause : Cause) (opener : Text) : Prop :=
  ∃ after, (Lexer.ofText text).next =
    .failed
      { cause, span := { start := 0, text := opener }, line := Text.lineFeeds text } after

theorem spanOf_atStart (front rest : Text) :
    (Cursor.atStart (front ++ rest)).spanOf front.length = { start := 0, text := front } := by
  simp [Cursor.spanOf, Cursor.atStart]

theorem Lexer.step_ofText {text : Text} (remaining : text ≠ []) :
    (Lexer.ofText text).step =
      match scan true (.atStart text) with
      | .error error => .pulled (.failed error (.ofText text))
      | .ok scanned => (Lexer.ofText text).accept scanned :=
  step_of_scan rfl rfl remaining

theorem OpensWith.of_lexeme {kind : TokenKind} {front value behind : Text}
    (nonempty : front ≠ [])
    (scanned : scan true (.atStart (front ++ behind)) =
      .ok (.ofLexeme
        { kind
          start := .atStart (front ++ behind)
          stop := .behind front behind
          literal := some value })) :
    OpensWith (front ++ behind) kind front value behind := by
  refine ⟨rfl, ?_⟩
  have stepped := Lexer.step_ofText (List.append_ne_nil_of_left_ne_nil nonempty behind)
  rw [scanned] at stepped
  rw [Lexer.next_of_pulled stepped, ← spanOf_atStart front behind, Cursor.spanOf,
    Cursor.advance_atStart]
  rfl

theorem LeavesOpen.of_scan {cause : Cause} {opener behind : Text} (nonempty : opener ≠ [])
    (scanned : scan true (.atStart (opener ++ behind)) =
      .error (.unclosed cause ((Cursor.atStart (opener ++ behind)).spanOf opener.length)
        (.atStart (opener ++ behind)))) :
    LeavesOpen (opener ++ behind) cause opener := by
  have stepped := Lexer.step_ofText (List.append_ne_nil_of_left_ne_nil nonempty behind)
  rw [scanned, spanOf_atStart, LexicalError.unclosed, (Cursor.IsPlaceOf.atStart _).line_toEnd]
    at stepped
  exact ⟨_, Lexer.next_of_pulled stepped⟩

section Literals

variable {form : LiteralForm} {opener : Text}

theorem Lexer.next_of_opener {text rest : Text} (whole : text = opener ++ rest)
    (nonempty : opener ≠ [])
    (scanned : scan true (.atStart text) =
      .ok
        { found := .literal (opening (.atStart text) form)
          after := (Cursor.atStart text).advance opener.length
          comment := none }) :
    (Lexer.ofText text).next =
      Step.answer
        { Lexer.ofText text with
          cursor := .behind opener rest
          literal := some (opening (.atStart text) form) }.step := by
  subst whole
  have stepped := step_ofText (List.append_ne_nil_of_left_ne_nil nonempty rest)
  rw [scanned, Cursor.advance_atStart] at stepped
  rw [next_of_moved stepped, next_eq_answer]

theorem OpensWith.of_literal {kind : TokenKind} {inside value behind : Text}
    (nonempty : opener ≠ [])
    (scanned : scan true (.atStart (opener ++ inside ++ behind)) =
      .ok
        { found := .literal (opening (.atStart (opener ++ inside ++ behind)) form)
          after := (Cursor.atStart (opener ++ inside ++ behind)).advance opener.length
          comment := none })
    (closed : (opening (.atStart (opener ++ inside ++ behind)) form).body (inside ++ behind) =
      { value, length := inside.length, ending := .closed })
    (sort : (opening (.atStart (opener ++ inside ++ behind)) form).kind = kind) :
    OpensWith (opener ++ inside ++ behind) kind (opener ++ inside) value behind := by
  have span : (Cursor.atStart (opener ++ inside ++ behind)).spanTo
      (.behind (opener ++ inside) behind) = { start := 0, text := opener ++ inside } := by
    rw [← Cursor.advance_atStart, ← Cursor.spanOf, spanOf_atStart]
  refine ⟨rfl, ?_⟩
  rw [Lexer.next_of_opener (List.append_assoc opener inside behind) nonempty scanned,
    Lexer.step_of_literal rfl rfl closed]
  dsimp only
  rw [Cursor.advance_behind, ← sort, ← span]
  rfl

/-- A literal whose body runs to the end of the text. -/
theorem Lexer.next_of_unended {text rest : Text} (whole : text = opener ++ rest)
    (nonempty : opener ≠ [])
    (scanned : scan true (.atStart text) =
      .ok
        { found := .literal (opening (.atStart text) form)
          after := (Cursor.atStart text).advance opener.length
          comment := none })
    (unended : ((opening (.atStart text) form).body rest).ending = .endOfText) :
    ∃ after, (Lexer.ofText text).next =
      .failed ((opening (.atStart text) form).unclosed (.behind opener rest)) after := by
  have answer := next_of_opener whole nonempty scanned
  rw [step_of_literal rfl rfl rfl] at answer
  dsimp only [Cursor.behind] at answer
  rw [unended] at answer
  exact ⟨_, answer⟩

end Literals

end HackLexer
