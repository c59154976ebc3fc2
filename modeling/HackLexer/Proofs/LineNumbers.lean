import HackLexer.Proofs.LineIndex
import HackLexer.Proofs.LexerPlacement

/-!
# Line numbers

The lexer counts lines while it moves, and the line index counts them on its
own.  Both agree on the cursor, on every token and on the construct that an
error blames.
-/

namespace HackLexer

/-- The line of a place, counted and looked up. -/
def LineAgrees (source : Source) (offset line : Nat) : Prop :=
  line = Text.lineFeeds (Text.takeBytes offset source.content) ∧
    ∃ location, source.location? offset = some location ∧
      location.line = line + 1

theorem Cursor.IsPlaceOf.lineAgrees {source : Source} {cursor : Cursor}
    (place : cursor.IsPlaceOf source.content) :
    LineAgrees source cursor.offset cursor.line :=
  ⟨place.line_eq, Source.location?_line place⟩

theorem Token.PlacedIn.lineAgrees {source : Source} {limit : Cursor} {token : Token}
    (placed : token.PlacedIn source.content limit) :
    LineAgrees source token.span.start token.line := by
  obtain ⟨lexeme, lexemePlaced, same⟩ := placed
  rw [same]
  exact lexemePlaced.start.lineAgrees

theorem LexicalError.PlacedIn.lineAgrees {source : Source} {error : LexicalError}
    (placed : error.PlacedIn source.content)
    (blames : error.cause = .unknownToken ∨ error.cause = .invalidDocString) :
    LineAgrees source error.span.start error.line := by
  obtain ⟨start, stop, place, reaches, span, line⟩ := placed
  have here : error.line = start.line := by
    rcases blames with unknown | invalid
    · rw [line, unknown]
    · rw [line, invalid]
  rw [span, here]
  exact place.lineAgrees

theorem LexicalError.PlacedIn.line_last {source : Source} {error : LexicalError}
    (placed : error.PlacedIn source.content) (known : error.cause ≠ .unknownToken)
    (labelled : error.cause ≠ .invalidDocString) :
    error.line = Text.lineFeeds source.content := by
  obtain ⟨start, stop, place, reaches, span, line⟩ := placed
  rw [line]
  split
  · contradiction
  · contradiction
  · rfl

/-- What an answer of the lexer tells about lines.  A construct that the end of
the text leaves open is reported on the last line. -/
def Pulled.LinesAgree (source : Source) : Pulled → Prop
  | .token handed _ => LineAgrees source handed.span.start handed.line
  | .endOfText after => after.cursor.line + 1 = source.lineCount
  | .failed error _ =>
      match error.cause with
      | .unknownToken => LineAgrees source error.span.start error.line
      | .invalidDocString => LineAgrees source error.span.start error.line
      | .unterminatedComment => error.line = Text.lineFeeds source.content
      | .unterminatedString _ => error.line = Text.lineFeeds source.content
      | .unterminatedDocString _ => error.line = Text.lineFeeds source.content

theorem LexicalError.PlacedIn.linesAgree {source : Source} {error : LexicalError}
    (placed : error.PlacedIn source.content) (after : Lexer) :
    (Pulled.failed error after).LinesAgree source := by
  simp only [Pulled.LinesAgree]
  split
  · rename_i cause
    exact placed.lineAgrees (.inl cause)
  · rename_i cause
    exact placed.lineAgrees (.inr cause)
  · rename_i cause
    exact placed.line_last (by simp [cause]) (by simp [cause])
  · rename_i cause
    exact placed.line_last (by simp [cause]) (by simp [cause])
  · rename_i cause
    exact placed.line_last (by simp [cause]) (by simp [cause])

/-- Whatever a lexer has handed out before, its line counter and its next
answer agree with the line feeds of the text and with the line index. -/
theorem next_lines_agree {source : Source} {tokens : List Token} {lexer : Lexer}
    (run : Lexer.Run source.content tokens lexer) :
    LineAgrees source lexer.cursor.offset lexer.cursor.line ∧
      lexer.next.LinesAgree source := by
  refine ⟨run.placed.cursor.lineAgrees, ?_⟩
  obtain ⟨last, lastRun, answered⟩ := run.exists_answering
  cases answer : lexer.next with
  | token token after =>
      rw [answer] at answered
      have handed := (lastRun.token answered).placed.tokens token (by simp)
      exact handed.lineAgrees
  | endOfText after =>
      rw [answer] at answered
      obtain ⟨same, exhausted⟩ := Lexer.endOfText_step answered
      have place : after.cursor.IsPlaceOf source.content := by
        rw [same]
        exact lastRun.placed.cursor
      have finished : after.cursor.rest = [] := by
        rw [same]
        exact exhausted.finished
      rw [Pulled.LinesAgree, Source.lineCount_eq,
        (place.measures_of_rest_nil finished).2]
  | failed error after =>
      rw [answer] at answered
      exact (lastRun.error_placed answered).linesAgree after

/-- A string over two lines behind an empty line: it is on the second line. -/
theorem lines_agree_behind_feeds :
    let source : Source := { path := "a.hack", content := "\n\"a\n\";".toList }
    Lexer.Run source.content [] (.ofText source.content) ∧
      (∃ handed after, (Lexer.ofText source.content).next = .token handed after ∧
        handed.line = 1) ∧
      (Lexer.ofText source.content).next.LinesAgree source := by
  refine ⟨.start, ?_, (next_lines_agree .start).2⟩
  have lexed : (Lexer.ofText "\n\"a\n\";".toList).drain.toOption.bind
      (fun result => result.1.head?.map Token.line) = some 1 := by
    decide +kernel
  rw [Lexer.drain_eq] at lexed
  cases answer : (Lexer.ofText "\n\"a\n\";".toList).next with
  | token handed after =>
      rw [answer] at lexed
      refine ⟨handed, after, rfl, ?_⟩
      cases rest : after.drain with
      | error error =>
          simp only [rest] at lexed
          cases lexed
      | ok result =>
          simp only [rest] at lexed
          exact Option.some.inj lexed
  | endOfText after =>
      rw [answer] at lexed
      cases lexed
  | failed error after =>
      rw [answer] at lexed
      cases lexed

end HackLexer
