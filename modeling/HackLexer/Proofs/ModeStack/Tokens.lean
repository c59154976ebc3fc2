import HackLexer.Proofs.LexerRuns
import HackLexer.Proofs.ModeStack.Bodies

/-!
# Comments and tokens by byte offsets

At a place of the source, cutting out a token, recording a comment or reading a
single-quoted string by byte offsets is never stuck, and it leads to the place
that the lexer gets to by counting characters.
-/

namespace HackLexer

namespace ModeStack

theorem isPrefixOf_pair {first second : Char} {rest : Text} :
    List.isPrefixOf [first, second] rest ↔ ∃ behind, rest = first :: second :: behind := by
  rw [List.isPrefixOf_iff_prefix]
  constructor
  · rintro ⟨behind, rfl⟩
    exact ⟨behind, rfl⟩
  · rintro ⟨behind, rfl⟩
    exact ⟨behind, rfl⟩

theorem markerAfter?_eq_cuts {first second : Char} {behind : Text} (kind : TokenKind)
    (marker : Text) (opener : isPlain first ∧ isPlain second) :
    (do
      let opened ← Text.tail? (first :: second :: behind) 2
      let padding := 2 + Text.countWhile isBlank opened
      let marked ← Text.tail? (first :: second :: behind) padding
      return if marker.isPrefixOf marked then some (kind, padding + marker.length)
        else none) =
      some ((markerAfter? marker behind).map fun count => (kind, count)) := by
  have front : Text.Plain (first :: second :: behind) 2 := .cons opener.1 (.one opener.2)
  have padded := front.add (.countWhile isPlain_of_isBlank behind)
  have dropped : (first :: second :: behind).drop (2 + Text.countWhile isBlank behind) =
      behind.drop (Text.countWhile isBlank behind) := by
    rw [← List.drop_drop]
    rfl
  have cut := padded.tail?
  rw [dropped] at cut
  rw [front.tail?]
  simp only [Option.bind_eq_bind, Option.bind_some, List.drop_succ_cons, List.drop_zero, cut,
    markerAfter?]
  split
  · rfl
  · rfl

theorem suppressionMarker?_eq (rest : Text) :
    suppressionMarker? rest = some (marker? rest) := by
  unfold marker?
  split
  · rename_i behind
    have opener : isPlain '/' ∧ isPlain '/' := by decide
    exact markerAfter?_eq_cuts .unsafeExpr "UNSAFE_EXPR".toList opener
  · rename_i behind
    have opener : isPlain '/' ∧ isPlain '*' := by decide
    exact markerAfter?_eq_cuts .fixmeExpr "HH_FIXME".toList opener
  · rename_i notLine notBlock
    have noLine : ¬ List.isPrefixOf "//".toList rest := by
      intro starts
      obtain ⟨behind, rfl⟩ := isPrefixOf_pair.mp starts
      exact notLine behind rfl
    have noBlock : ¬ List.isPrefixOf "/*".toList rest := by
      intro starts
      obtain ⟨behind, rfl⟩ := isPrefixOf_pair.mp starts
      exact notBlock behind rfl
    rw [suppressionMarker?, if_neg noLine, if_neg noBlock]

theorem marker?_opener {text : Text} {kind : TokenKind} {count : Nat}
    (found : marker? text = some (kind, count)) : text.Plain 2 := by
  unfold marker? at found
  split at found
  · exact .cons (by decide) (.one (by decide))
  · exact .cons (by decide) (.one (by decide))
  · cases found

def Literal.ofOpen (literal : StringLiteral) : Literal :=
  { start := literal.start.offset
    line := literal.start.line
    value := literal.value
    form :=
      match literal.form with
      | .doubleQuoted => .doubleQuoted
      | .heredoc label atLineStart =>
          .heredoc label.text (literal.start.advance (3 + label.length)).offset atLineStart }

/-- What the scan of a lexer with a stack gives for what is found. -/
def Finding.ofFound : Found → Finding
  | .layout => .skipped
  | .lexeme lexeme => .token lexeme.token
  | .literal literal => .enter (.literal (.ofOpen literal))
  | .element name => .enter (.markup (.opened name.token))

namespace Machine

def moveTo (machine : Machine) (cursor : Cursor) : Machine :=
  { machine with cursor := cursor.offset, line := cursor.line }

def passing (machine : Machine) (scanned : Scanned) : Machine :=
  { machine.moveTo scanned.after with
    comments := scanned.commentsBehind machine.comments }

def scanned (machine : Machine) :
    Except LexicalError Scanned → Except LexicalError (Finding × Machine)
  | .error error => .error error
  | .ok scanned => .ok (.ofFound scanned.found, machine.passing scanned)

variable {source : Source} {cursor : Cursor}

theorem token?_eq (machine : Machine) {kind : TokenKind} {count : Nat}
    (place : cursor.IsPlaceOf source.content) (plain : Text.Plain cursor.rest count) :
    (machine.moveTo cursor).token? source kind count =
      some ((cursor.lexeme kind count).token, machine.moveTo (cursor.advance count)) := by
  have offset := Cursor.offset_advance_of_plain plain
  have cut := place.span?_eq (.advance cursor count)
  rw [offset] at cut
  simp only [token?, moveTo, cut, Option.bind_eq_bind, Option.bind_some, offset,
    Cursor.line_advance_of_plain plain]
  rfl

theorem countWhile_of_plain {text : Text} {count : Nat} (plain : text.Plain count) :
    Text.countWhile (· != '\n') text =
      count + Text.countWhile (· != '\n') (text.drop count) := by
  induction count generalizing text with
  | zero => simp
  | succ count ih =>
      cases text with
      | nil => simp [Text.Plain] at plain
      | cons first rest =>
          have other : first ≠ '\n' := by
            have here := plain.2 first List.mem_cons_self
            simp only [isPlain, Bool.and_eq_true, bne_iff_ne] at here
            exact here.2
          have more : Text.Plain rest count :=
            ⟨Nat.le_of_succ_le_succ plain.1, fun character member =>
              plain.2 character (List.mem_cons_of_mem _ member)⟩
          rw [Text.countWhile_cons_of_ne other, ih more, List.drop_succ_cons]
          omega

theorem recordLineComment?_eq (machine : Machine) {count : Nat}
    (place : cursor.IsPlaceOf source.content) (plain : Text.Plain cursor.rest count) :
    (machine.moveTo (cursor.advance count)).recordLineComment? source cursor.offset =
      some
        { machine.moveTo (lineComment cursor).2 with
          comments := machine.comments.push (lineComment cursor).1 } := by
  have behind := (place.advance count).tail?_eq
  have span : (lineComment cursor).1 =
      { kind := .line, span := cursor.spanTo (lineComment cursor).2 } := rfl
  have reaches : cursor.Reaches (lineComment cursor).2 := .advance cursor _
  have cut := place.span?_eq reaches
  have stop : (lineComment cursor).2 = (cursor.advance count).advance
      (Text.countWhile (· != '\n') (cursor.advance count).rest + 1) := by
    rw [lineComment_after, countWhile_of_plain plain, Cursor.advance_advance,
      Cursor.rest_advance, Nat.add_assoc]
  rw [span]
  simp only [recordLineComment?, moveTo, behind, Option.bind_eq_bind, Option.bind_some]
  rcases Text.findOffset?_feed (cursor.advance count).rest with
    ⟨line, more, rest, noFeed, length, found⟩ | ⟨noFeed, length, missing⟩
  · rw [length, Cursor.advance_line rest noFeed] at stop
    rw [stop] at cut ⊢
    simp only [found, cut, Option.bind_some]
    rfl
  · rw [length, Cursor.advance_of_length_le (Nat.le_succ _)] at stop
    have last := ((place.advance count).advance _).measures_of_rest_nil
      (Cursor.rest_toEnd (cursor.advance count))
    change (cursor.advance count).toEnd.offset = _ ∧ _ at last
    rw [stop, last.1] at cut
    rw [stop, Cursor.toEnd_line noFeed, last.1]
    simp only [missing, cut, Option.bind_some]
    rfl

theorem offset_advance_found {length : Nat} {found : Nat}
    (plain : Text.Plain (cursor.rest.drop found) length) :
    (cursor.advance (found + length)).offset =
      cursor.offset + Text.byteLength (cursor.rest.take found) + length := by
  rw [← Cursor.advance_advance, Cursor.offset_advance_of_plain plain]
  rfl

/-- The block comment from a place on, of which some characters have been
passed; its opener is at another place. -/
theorem recordBlockComment?_eq (machine : Machine) (count : Nat) {opening : Cursor}
    (place : opening.IsPlaceOf source.content) (plain : Text.Plain opening.rest 2)
    (reaches : opening.Reaches cursor) :
    (machine.moveTo (cursor.advance count)).recordBlockComment? source cursor.offset
        opening.offset =
      some
        ((blockComment opening cursor count).map fun comment =>
          { machine.moveTo comment.2 with
            comments := machine.comments.push comment.1 }) := by
  have here : cursor.IsPlaceOf source.content := Cursor.Reaches.trans place reaches
  have behind := (here.advance count).tail?_eq
  unfold blockComment
  rw [← Cursor.rest_advance]
  simp only [recordBlockComment?, moveTo, behind, Option.bind_eq_bind, Option.bind_some,
    Text.findOffset?]
  cases search : Text.find? "*/".toList (cursor.advance count).rest with
  | none =>
      have cut := place.span?_eq (.advance opening 2)
      rw [Cursor.offset_advance_of_plain plain] at cut
      have last := (reaches.thenAdvance count).toEnd_eq
      have line := (cursor.advance count).line_toEnd
      rw [last] at line
      simp only [Option.map_none, cut, Option.bind_some, ← line]
      rfl
  | some found =>
      have closes : Text.Plain ((cursor.advance count).rest.drop found) 2 :=
        .of_isPrefixOf (Text.isPrefixOf_drop_of_find? search) (isPlain_of_all (by decide))
      have stop := offset_advance_found closes
      have same : cursor.advance (count + found + 2) =
          (cursor.advance count).advance (found + 2) := by
        rw [Cursor.advance_advance, Nat.add_assoc]
      have cut := here.span?_eq (.advance cursor (count + found + 2))
      have passed := (here.advance count).slice?_eq
        (.advance (cursor.advance count) (found + 2))
      rw [same, stop] at cut
      rw [stop, Cursor.spanTo_advance] at passed
      simp only [Option.map_some, passed, cut, Option.bind_some, same, stop, Except.map]
      rfl

theorem scanMarker?_eq (machine : Machine) {kind : TokenKind} {count : Nat}
    {result : Except LexicalError Scanned} (place : cursor.IsPlaceOf source.content)
    (found : marker? cursor.rest = some (kind, count))
    (recognised : markerAt cursor = some result) :
    (machine.moveTo cursor).scanMarker? source kind count =
      some (machine.scanned result) := by
  have plain := marker?_plain found
  have reaches : cursor.Reaches (cursor.advance count) := .advance cursor count
  unfold markerAt at recognised
  rw [found] at recognised
  simp only [scanMarker?, token?_eq machine place plain, Option.bind_eq_bind,
    Option.bind_some]
  rcases marker?_kind found with rfl | rfl
  · have line := recordLineComment?_eq machine (place.advance count) (.zero _)
    rw [Cursor.advance_zero] at line
    cases recognised
    change ((machine.moveTo (cursor.advance count)).recordLineComment? source
      (cursor.advance count).offset).bind _ = _
    rw [line]
    rfl
  · have block := recordBlockComment?_eq machine 0 place (marker?_opener found) reaches
    rw [Cursor.advance_zero] at block
    cases recognised
    change ((machine.moveTo (cursor.advance count)).recordBlockComment? source
      (cursor.advance count).offset cursor.offset).bind _ = _
    rw [block]
    change _ = some (machine.scanned
      ((blockComment cursor (cursor.advance count) 0).map _))
    cases blockComment cursor (cursor.advance count) 0 with
    | error error => rfl
    | ok comment => rfl

theorem scanSingleQuoted?_eq (machine : Machine) {behind : Text}
    {result : Except LexicalError Scanned} (place : cursor.IsPlaceOf source.content)
    (rest : cursor.rest = '\'' :: behind) (recognised : quotedAt cursor = some result) :
    (machine.moveTo cursor).scanSingleQuoted? source = some (machine.scanned result) := by
  have moved : cursor.advance 1 = ⟨cursor.offset + 1, cursor.line, behind⟩ :=
    Cursor.advance_one rest
  have enough := byteLength_rest_lt_turns (place.advance 1)
  have loop := singleQuotedBody?_eq cursor.offset (place.advance 1) (.refl _) enough []
  have offset : (cursor.advance 1).offset = cursor.offset + 1 := by rw [moved]
  have line : (cursor.advance 1).line = cursor.line := by rw [moved]
  have behindQuote : (cursor.advance 1).rest = behind := by rw [moved]
  rw [Cursor.text_spanTo_self, offset, line, behindQuote] at loop
  unfold quotedAt at recognised
  rw [rest] at recognised
  simp only [scanSingleQuoted?, moveTo, loop, Option.bind_eq_bind]
  cases body : SingleQuoted.body behind with
  | none =>
      have cut := place.span?_eq (.advance cursor 1)
      rw [offset] at cut
      simp only [body, Option.some.injEq] at recognised
      subst recognised
      rw [quotedRead, cut, Cursor.toEnd_advance]
      rfl
  | some read =>
      obtain ⟨value, count⟩ := read
      have cut := place.span?_eq (.advance cursor (1 + count))
      simp only [body, Option.some.injEq] at recognised
      subst recognised
      rw [quotedRead, Cursor.advance_advance]
      simp only [Option.bind_some, cut]
      rfl

end Machine

end ModeStack

end HackLexer
