import HackLexer.Lexer
import HackLexer.Proofs.Places

/-!
# What open elements hold

The lexemes of an open element are followed through a delivery.  They are kept
in order, and only a closing tag or a markup comment replaces some of the last
ones by a single lexeme.  The name of an element stays what it is.
-/

namespace HackLexer

namespace Element

@[simp]
theorem lexemes_opened (name : Lexeme) : (opened name).lexemes = [name] := rfl

@[simp]
theorem dissolve_cons (element : Element) (outer : List Element) :
    dissolve (element :: outer) = dissolve outer ++ element.lexemes := by
  simp [dissolve]

@[simp]
theorem lexemes_extend (element : Element) (lexemes : List Lexeme) :
    (element.extend lexemes).lexemes = element.lexemes ++ lexemes := by
  cases phase : element.phase <;> simp [extend, Element.lexemes, phase]

theorem lexemes_push_of_openingTag {element : Element} (lexeme : Lexeme)
    (phase : element.phase = .openingTag) :
    (element.push lexeme).lexemes = element.lexemes ++ [lexeme] := by
  simp [push, lexemes, phase]

theorem lexemes_push_of_children {element : Element} (lexeme : Lexeme)
    (phase : element.phase = .children) :
    (element.push lexeme).lexemes = element.lexemes ++ [lexeme] := by
  simp [push, lexemes, phase]

/-- The ways in which an element receives a lexeme. -/
inductive Received (element : Element) (lexeme : Lexeme) : Receipt → Prop where
  | tag (phase : element.phase = .openingTag) (inside : lexeme.kind ≠ .gt) :
      Received element lexeme (.collecting (element.push lexeme))
  | selfClosing (phase : element.phase = .openingTag) (last : lexeme.kind = .gt)
      (slash : element.content.head?.map Lexeme.kind = some .slash) :
      Received element lexeme (.complete (element.push lexeme).lexemes)
  | tagEnd (phase : element.phase = .openingTag) (last : lexeme.kind = .gt)
      (noSlash : element.content.head?.map Lexeme.kind ≠ some .slash) :
      Received element lexeme (.collecting { element.push lexeme with phase := .children })
  | child (phase : element.phase = .children) :
      Received element lexeme (.collecting (element.push lexeme))
  | closingTag {lt : Lexeme} {earlier : List Lexeme} (phase : element.phase = .children)
      (slash : lexeme.kind = .slash) (content : element.content = lt :: earlier)
      (opener : lt.kind = .lt) :
      Received element lexeme
        (.collecting { element with content := earlier, phase := .closingTag lt lexeme [] })
  | comment {lt bang : Lexeme} {earlier : List Lexeme} (phase : element.phase = .children)
      (decrement : lexeme.kind = .decrement) (content : element.content = bang :: lt :: earlier)
      (opener : lt.kind = .lt) (exclaimed : bang.kind = .bang) :
      Received element lexeme (.comment lt { element with content := earlier })
  | closingName {lt slash : Lexeme} {name : List Lexeme}
      (phase : element.phase = .closingTag lt slash name) (inside : lexeme.kind ≠ .gt) :
      Received element lexeme
        (.collecting { element with phase := .closingTag lt slash (lexeme :: name) })
  | closed {lt slash : Lexeme} {name : List Lexeme}
      (phase : element.phase = .closingTag lt slash name) (last : lexeme.kind = .gt) :
      Received element lexeme
        (.complete
          ({ element with phase := .children }.push (closing lt lexeme name.reverse)).lexemes)

theorem receive_received (element : Element) (lexeme : Lexeme) :
    element.Received lexeme (element.receive lexeme) := by
  unfold receive
  split
  · rename_i phase
    split
    · rename_i last
      split
      · rename_i slash
        exact .selfClosing phase last slash
      · rename_i noSlash
        exact .tagEnd phase last noSlash
    · rename_i inside
      exact .tag phase inside
  · rename_i phase
    split
    · rename_i slash content
      split
      · rename_i opener
        exact .closingTag phase slash content opener
      · exact .child phase
    · rename_i decrement content
      split
      · rename_i opener
        exact .comment phase decrement content opener.1 opener.2
      · exact .child phase
    · exact .child phase
  · rename_i phase
    split
    · rename_i last
      exact .closed phase last
    · rename_i inside
      exact .closingName phase inside

theorem received_of_receipt {element : Element} {lexeme : Lexeme} {receipt : Receipt}
    (given : element.receive lexeme = receipt) : element.Received lexeme receipt :=
  given ▸ element.receive_received lexeme

theorem lexemes_of_collecting {element after : Element} {lexeme : Lexeme}
    (receipt : element.receive lexeme = .collecting after) :
    after.lexemes = element.lexemes ++ [lexeme] := by
  cases received_of_receipt receipt with
  | tag phase => exact lexemes_push_of_openingTag lexeme phase
  | tagEnd phase => simp [push, lexemes, phase]
  | child phase => exact lexemes_push_of_children lexeme phase
  | closingTag phase slash content => simp [lexemes, phase, content]
  | closingName phase => simp [lexemes, phase]

/-- A complete element has received its last lexeme, or the lexemes of its
closing tag have been joined. -/
theorem lexemes_of_complete {element : Element} {lexeme : Lexeme}
    {result : List Lexeme} (receipt : element.receive lexeme = .complete result) :
    result = element.lexemes ++ [lexeme] ∨
      lexeme.kind = .gt ∧ ∃ front lt slash name,
        element.lexemes = front ++ lt :: slash :: name ∧
          result = front ++ [closing lt lexeme name] := by
  cases received_of_receipt receipt with
  | selfClosing phase => exact .inl (lexemes_push_of_openingTag lexeme phase)
  | @closed lt slash name phase last =>
      refine .inr ⟨last, element.name :: element.content.reverse, lt, slash,
        name.reverse, ?_, ?_⟩
      · simp [lexemes, phase]
      · simp [lexemes, push]

/-- The opener of a markup comment leaves the element, and the comment takes
its place. -/
theorem lexemes_of_comment {element after : Element} {lexeme lt : Lexeme}
    (receipt : element.receive lexeme = .comment lt after) :
    (∃ bang, element.lexemes = after.lexemes ++ [lt, bang]) ∧
      ∀ comment, (after.push comment).lexemes = after.lexemes ++ [comment] := by
  cases received_of_receipt receipt with
  | @comment _ bang earlier phase decrement content =>
      refine ⟨⟨bang, by simp [lexemes, phase, content]⟩, ?_⟩
      intro comment
      exact lexemes_push_of_children comment phase

theorem dissolve_cons_cons (child parent : Element) (outer : List Element) :
    dissolve (child :: parent :: outer) =
      dissolve (parent.extend child.lexemes :: outer) := by
  simp [dissolve_cons, lexemes_extend]

theorem name_extend (element : Element) (lexemes : List Lexeme) :
    (element.extend lexemes).name = element.name := by
  obtain ⟨name, content, phase⟩ := element
  cases phase with
  | openingTag => rfl
  | children => rfl
  | closingTag lt slash held => rfl

theorem name_of_collecting {element after : Element} {lexeme : Lexeme}
    (receipt : element.receive lexeme = .collecting after) : after.name = element.name := by
  cases received_of_receipt receipt <;> rfl

theorem name_of_comment {element after : Element} {lexeme lt : Lexeme}
    (receipt : element.receive lexeme = .comment lt after) : after.name = element.name := by
  cases received_of_receipt receipt
  rfl

end Element

theorem markupComment_ok {lt comment : Lexeme} {cursor : Cursor}
    (success : markupComment lt cursor = .ok comment) :
    comment.kind = .xhpComment ∧ comment.start = lt.start ∧
      cursor.Reaches comment.stop := by
  unfold markupComment at success
  split at success
  · rename_i count _
    cases success
    exact ⟨rfl, rfl, .advance cursor (count + 3)⟩
  · cases success

theorem markupComment_error {lt : Lexeme} {cursor : Cursor} {error : LexicalError}
    (failure : markupComment lt cursor = .error error) :
    error = .unclosed .unterminatedComment (lt.start.spanTo cursor) cursor := by
  unfold markupComment at failure
  split at failure
  · cases failure
  · cases failure
    rfl

end HackLexer
