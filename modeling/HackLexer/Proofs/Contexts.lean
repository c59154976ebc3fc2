import HackLexer.Proofs.LexerPlacement
import HackLexer.Proofs.Lookahead

/-!
# Texts within longer texts

A context stands around a text: bytes and line feeds in front of it, and a tail
behind it.  Everything that lexing makes of a text on its own has its counterpart
inside of the context: offsets and lines are shifted, and cursors have the tail
behind their characters.

Spans are only shifted, for what stands between two cursors of the text is the
same inside of the context.
-/

namespace HackLexer

/-- What stands around a text. -/
structure Context where
  /-- Number of bytes in front of the text. -/
  bytes : Nat
  /-- Number of line feeds in front of the text. -/
  lines : Nat
  /-- The characters behind the text. -/
  tail : Text

/-- The span that starts a number of bytes later. -/
def Span.shift (bytes : Nat) (span : Span) : Span :=
  { span with start := bytes + span.start }

def Token.shift (bytes lines : Nat) (token : Token) : Token :=
  { token with span := token.span.shift bytes, line := lines + token.line }

def Comment.shift (bytes : Nat) (comment : Comment) : Comment :=
  { comment with span := comment.span.shift bytes }

def LexicalError.shift (bytes lines : Nat) (error : LexicalError) : LexicalError :=
  { error with span := error.span.shift bytes, line := lines + error.line }

section Counterparts

variable (context : Context)

def Cursor.inside (cursor : Cursor) : Cursor :=
  { offset := context.bytes + cursor.offset
    line := context.lines + cursor.line
    rest := cursor.rest ++ context.tail }

def Lexeme.inside (lexeme : Lexeme) : Lexeme :=
  { lexeme with start := lexeme.start.inside context, stop := lexeme.stop.inside context }

def StringLiteral.inside (literal : StringLiteral) : StringLiteral :=
  { literal with start := literal.start.inside context }

def Interpolation.inside (interpolation : Interpolation) : Interpolation :=
  { interpolation with literal := interpolation.literal.inside context }

def ElementPhase.inside : ElementPhase → ElementPhase
  | .openingTag => .openingTag
  | .children => .children
  | .closingTag lt slash name =>
      .closingTag (lt.inside context) (slash.inside context) (name.map (Lexeme.inside context))

def Element.inside (element : Element) : Element :=
  { name := element.name.inside context
    content := element.content.map (Lexeme.inside context)
    phase := element.phase.inside context }

def Found.inside : Found → Found
  | .layout => .layout
  | .lexeme complete => .lexeme (complete.inside context)
  | .literal opened => .literal (opened.inside context)
  | .element name => .element (name.inside context)

def Scanned.inside (scanned : Scanned) : Scanned :=
  { found := scanned.found.inside context
    after := scanned.after.inside context
    comment := scanned.comment.map (Comment.shift context.bytes) }

/-- The counterpart of an outcome of which the error, if it is one, is only
shifted. -/
def outcomeInside {Result : Type} (inside : Result → Result) :
    Except LexicalError Result → Except LexicalError Result
  | .error error => .error (error.shift context.bytes context.lines)
  | .ok result => .ok (inside result)

def Element.Receipt.inside : Element.Receipt → Element.Receipt
  | .collecting element => .collecting (element.inside context)
  | .complete lexemes => .complete (lexemes.map (Lexeme.inside context))
  | .comment lt element => .comment (lt.inside context) (element.inside context)

/-- The counterpart of a lexer, behind comments that were passed before its text
began. -/
def Lexer.inside (earlier : Array Comment) (lexer : Lexer) : Lexer :=
  { cursor := lexer.cursor.inside context
    literal := lexer.literal.map (StringLiteral.inside context)
    interpolations := lexer.interpolations.map (Interpolation.inside context)
    elements := lexer.elements.map (Element.inside context)
    ready := lexer.ready.map (Token.shift context.bytes context.lines)
    comments := earlier ++ lexer.comments.map (Comment.shift context.bytes) }

def Pulled.inside (earlier : Array Comment) : Pulled → Pulled
  | .token handed after =>
      .token (handed.shift context.bytes context.lines) (after.inside context earlier)
  | .endOfText after => .endOfText (after.inside context earlier)
  | .failed error after =>
      .failed (error.shift context.bytes context.lines) (after.inside context earlier)

def Step.inside (earlier : Array Comment) : Step → Step
  | .pulled answer => .pulled (answer.inside context earlier)
  | .moved after => .moved (after.inside context earlier)

end Counterparts

namespace Text

theorem takeBytes_append_of_le {text : Text} {bytes : Nat} (tail : Text)
    (within : bytes ≤ byteLength text) : takeBytes bytes (text ++ tail) = takeBytes bytes text := by
  induction text generalizing bytes with
  | nil =>
      obtain rfl := Nat.le_zero.mp within
      cases tail with
      | nil => rfl
      | cons first behind =>
          have size := first.utf8Size_pos
          simp only [List.nil_append, takeBytes]
          exact if_neg (Nat.not_le_of_lt size)
  | cons first rest ih =>
      rw [byteLength_cons] at within
      simp only [List.cons_append, takeBytes]
      split
      · rw [ih (by omega)]
      · rfl

end Text

namespace Cursor

variable {context : Context}

@[simp]
theorem rest_inside (cursor : Cursor) :
    (cursor.inside context).rest = cursor.rest ++ context.tail := rfl

/-- Moving over characters of a text is the same inside of a context. -/
theorem advance_inside {cursor : Cursor} {count : Nat}
    (covered : count ≤ cursor.rest.length ∨ context.tail = []) :
    (cursor.inside context).advance count = (cursor.advance count).inside context := by
  simp only [advance, inside, Cursor.mk.injEq]
  rcases covered with within | alone
  · rw [List.take_append_of_le_length within, List.drop_append_of_le_length within]
    exact ⟨Nat.add_assoc _ _ _, Nat.add_assoc _ _ _, rfl⟩
  · rw [alone, List.append_nil, List.append_nil]
    exact ⟨Nat.add_assoc _ _ _, Nat.add_assoc _ _ _, rfl⟩

theorem spanTo_inside_of_nil (alone : context.tail = []) (start stop : Cursor) :
    (start.inside context).spanTo (stop.inside context) =
      (start.spanTo stop).shift context.bytes := by
  simp only [spanTo, Span.shift, inside, alone, List.append_nil, Nat.add_sub_add_left]

theorem Reaches.spanTo_inside {start stop : Cursor} (reaches : start.Reaches stop) :
    (start.inside context).spanTo (stop.inside context) =
      (start.spanTo stop).shift context.bytes := by
  obtain ⟨moved, rest, offset, _⟩ := reaches.exists_moved
  have within : stop.offset - start.offset ≤ Text.byteLength start.rest := by
    rw [rest, Text.byteLength_append]
    omega
  simp only [spanTo, Span.shift, inside, Nat.add_sub_add_left,
    Text.takeBytes_append_of_le context.tail within]

theorem spanOf_inside {cursor : Cursor} {count : Nat}
    (covered : count ≤ cursor.rest.length ∨ context.tail = []) :
    (cursor.inside context).spanOf count = (cursor.spanOf count).shift context.bytes := by
  rw [spanOf, advance_inside covered]
  exact (Reaches.advance cursor count).spanTo_inside

theorem toEnd_inside_of_nil (alone : context.tail = []) (cursor : Cursor) :
    (cursor.inside context).toEnd = cursor.toEnd.inside context := by
  rw [toEnd, rest_inside, alone, List.append_nil]
  exact advance_inside (.inr alone)

theorem inside_injective {first second : Cursor}
    (same : first.inside context = second.inside context) : first = second := by
  simp only [inside, Cursor.mk.injEq, Nat.add_left_cancel_iff, List.append_cancel_right_eq] at same
  obtain ⟨offset, line, rest⟩ := same
  cases first
  cases second
  simp_all

end Cursor

namespace Lexeme

variable {context : Context} {lexeme : Lexeme}

theorem raw_inside (reaches : lexeme.start.Reaches lexeme.stop) :
    (lexeme.inside context).raw = lexeme.raw := by
  have span : (lexeme.inside context).span = lexeme.span.shift context.bytes :=
    reaches.spanTo_inside
  rw [raw, span]
  rfl

theorem token_inside (reaches : lexeme.start.Reaches lexeme.stop) :
    (lexeme.inside context).token = lexeme.token.shift context.bytes context.lines := by
  have span : (lexeme.inside context).span = lexeme.span.shift context.bytes :=
    reaches.spanTo_inside
  rw [token, span]
  rfl

end Lexeme

theorem LexicalError.unclosed_inside {context : Context} (alone : context.tail = [])
    (cause : Cause) (opening : Span) (cursor : Cursor) :
    LexicalError.unclosed cause (opening.shift context.bytes) (cursor.inside context) =
      (LexicalError.unclosed cause opening cursor).shift context.bytes context.lines := by
  rw [LexicalError.unclosed, Cursor.toEnd_inside_of_nil alone]
  rfl

end HackLexer
