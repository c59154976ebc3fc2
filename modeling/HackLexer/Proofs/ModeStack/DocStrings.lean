import HackLexer.Proofs.ModeStack.Tokens

/-!
# Doc strings by byte offsets

The header of a doc string is plain up to its line break, so the offsets behind
its label and its quotes are places.  A nowdoc is read as a whole.
-/

namespace HackLexer

namespace ModeStack

/-- What is recognised of a doc string with the given header, if it has one. -/
def docString (cursor : Cursor) : Option DocString.Header → Except LexicalError Scanned
  | none =>
      .error { cause := .invalidDocString, span := cursor.spanOf 3, line := cursor.line }
  | some header =>
      let body := cursor.advance (header.length + header.lineBreak)
      match header.form with
      | .heredoc =>
          .ok
            { found := .literal
                { start := cursor, form := .heredoc header.label true, value := [] }
              after := body
              comment := none }
      | .nowdoc =>
          match DocString.nowdocBody header.label true body.rest with
          | none =>
              .error (.unclosed (.unterminatedDocString .nowdoc)
                (cursor.spanOf header.length) cursor)
          | some value =>
              .ok (.ofLexeme
                { kind := .nowdoc
                  start := cursor
                  stop := body.advance (value.length + header.label.length)
                  literal := some value })

theorem docStringAt_eq {cursor : Cursor} {behind : Text}
    (rest : cursor.rest = '<' :: '<' :: '<' :: behind) :
    docStringAt cursor = some (docString cursor (DocString.header? behind)) := by
  simp only [docStringAt, rest]
  cases DocString.header? behind with
  | none => rfl
  | some header =>
      obtain ⟨form, label, lineBreak⟩ := header
      cases form with
      | heredoc => rfl
      | nowdoc =>
          simp only [docString]
          cases DocString.nowdocBody label true _ with
          | none => rfl
          | some value => rfl

theorem header?_of_unquoted {behind : Text} (unquoted : behind.head? ≠ some '\'') :
    DocString.header? behind =
      match Label.ofText? behind with
      | none => none
      | some label =>
          (DocString.lineBreak? (behind.drop label.length)).map fun lineBreak =>
            { form := .heredoc, label, lineBreak } := by
  unfold DocString.header?
  split
  · exact absurd rfl unquoted
  · rfl

theorem advance_lineBreak {cursor : Cursor} {lineBreak : Nat}
    (found : DocString.lineBreak? cursor.rest = some lineBreak) :
    (cursor.advance lineBreak).offset = cursor.offset + lineBreak ∧
      (cursor.advance lineBreak).line = cursor.line + 1 := by
  unfold DocString.lineBreak? at found
  split at found
  · rename_i behind rest
    cases found
    have moved : cursor.advance 1 = ⟨cursor.offset + 1, cursor.line + 1, behind⟩ :=
      @Cursor.advance_line cursor [] behind rest List.not_mem_nil
    rw [moved]
    exact ⟨rfl, rfl⟩
  · rename_i behind rest
    cases found
    have moved : cursor.advance 2 = ⟨cursor.offset + 1 + 1, cursor.line + 1, behind⟩ :=
      @Cursor.advance_line cursor ['\r'] behind rest (by decide)
    rw [moved]
    exact ⟨rfl, rfl⟩
  · cases found

namespace Machine

variable {source : Source} {cursor : Cursor}

theorem invalidDocString?_eq (machine : Machine) {behind : Text}
    (place : cursor.IsPlaceOf source.content)
    (rest : cursor.rest = '<' :: '<' :: '<' :: behind) :
    (machine.moveTo cursor).invalidDocString? source =
      some (.error
        { cause := .invalidDocString, span := cursor.spanOf 3, line := cursor.line }) := by
  have plain : Text.Plain cursor.rest 3 := by
    rw [rest]
    exact .cons (by decide) (.cons (by decide) (.one (by decide)))
  have cut := place.span?_eq (.advance cursor 3)
  rw [Cursor.offset_advance_of_plain plain] at cut
  simp only [invalidDocString?, moveTo, cut, Option.bind_eq_bind, Option.bind_some]
  rfl

theorem scanNowdoc?_eq (machine : Machine) {start : Cursor} {label : Label} (length : Nat)
    (place : start.IsPlaceOf source.content) (reaches : start.Reaches cursor)
    (plain : ∀ character, character ∈ label.text → isPlain character) :
    (machine.moveTo cursor).scanNowdoc? source start.offset start.line
        (start.advance length).offset label.text =
      some (machine.scanned
        (match DocString.nowdocBody label true cursor.rest with
        | none =>
            .error (.unclosed (.unterminatedDocString .nowdoc) (start.spanOf length) start)
        | some value =>
            .ok (.ofLexeme
              { kind := .nowdoc
                start
                stop := cursor.advance (value.length + label.length)
                literal := some value }))) := by
  have here : cursor.IsPlaceOf source.content := Cursor.Reaches.trans place reaches
  have enough := length_rest_lt_turns here
  have loop : nowdocEnd? source label.text (turns source) cursor.offset cursor.line = _ :=
    nowdocEnd?_eq here enough
  simp only [scanNowdoc?, moveTo, loop, Option.bind_eq_bind, Option.bind_some]
  cases body : DocString.nowdocBody label true cursor.rest with
  | none =>
      have cut := place.span?_eq (.advance start length)
      simp only [cut, Option.bind_some, reaches.toEnd_eq]
      rfl
  | some value =>
      obtain ⟨behind, rest, closes⟩ := DocString.nowdocBody_some body
      have atLabel : (cursor.advance value.length).rest = behind := by
        rw [Cursor.rest_advance, rest, List.drop_left]
      rw [← atLabel] at closes
      obtain ⟨offset, line⟩ := offset_advance_label closes plain
      rw [Cursor.advance_advance] at offset line
      have taken := here.slice?_eq (.advance cursor value.length)
      rw [Cursor.spanTo_advance, rest, List.take_left] at taken
      have cut := place.span?_eq
        (reaches.thenAdvance (value.length + label.length))
      rw [offset] at cut
      simp only [taken, cut, Option.bind_some, scanned, passing, Scanned.ofLexeme, moveTo,
        offset, line]
      rfl

/-- What stands behind the label of a doc string: a line break and then the
body. -/
theorem scanHeader?_eq (machine : Machine) {behind : Text} {label : Label}
    {form : DocString} {length : Nat} (place : cursor.IsPlaceOf source.content)
    (rest : cursor.rest = '<' :: '<' :: '<' :: behind)
    (plain : Text.Plain cursor.rest length)
    (plainLabel : ∀ character, character ∈ label.text → isPlain character)
    (count : ∀ lineBreak, DocString.Header.length { form, label, lineBreak } = length) :
    (machine.moveTo cursor).scanHeader? source (form = .nowdoc) label.text
        (cursor.advance length).offset =
      some (machine.scanned
        (docString cursor
          ((DocString.lineBreak? (cursor.advance length).rest).map fun lineBreak =>
            { form, label, lineBreak }))) := by
  have header := (place.advance length).tail?_eq
  simp only [scanHeader?, header, Option.bind_eq_bind, Option.bind_some]
  cases found : DocString.lineBreak? (cursor.advance length).rest with
  | none => exact invalidDocString?_eq machine place rest
  | some lineBreak =>
      have moved := advance_lineBreak found
      rw [Cursor.advance_advance, Cursor.line_advance_of_plain plain] at moved
      have after : { machine.moveTo cursor with
          cursor := (cursor.advance length).offset + lineBreak
          line := (machine.moveTo cursor).line + 1 } =
          machine.moveTo (cursor.advance (length + lineBreak)) := by
        rw [moveTo, moveTo, moved.1, moved.2]
      dsimp only
      rw [after]
      have size := count lineBreak
      cases form with
      | heredoc =>
          simp only [Option.map_some, docString]
          rw [size]
          subst size
          rfl
      | nowdoc =>
          have body := scanNowdoc?_eq machine length place
            (.advance cursor (length + lineBreak)) plainLabel
          simp only [Option.map_some, docString]
          rw [size]
          exact body

theorem label_cut {label : Label} (place : cursor.IsPlaceOf source.content)
    (found : Label.ofText? cursor.rest = some label) :
    Text.Plain cursor.rest label.length ∧
      (∀ character, character ∈ label.text → isPlain character) ∧
      source.slice? cursor.offset (cursor.offset + label.length) = some label.text := by
  obtain ⟨plain, taken⟩ := Label.ofText?_plain found
  have cut := place.slice?_eq (.advance cursor label.length)
  rw [Cursor.offset_advance_of_plain plain, Cursor.spanTo_advance] at cut
  refine ⟨plain, Label.isPlain_of_ofText? found, ?_⟩
  rw [cut, ← taken]

theorem advance_opener {behind : Text} (rest : cursor.rest = '<' :: '<' :: '<' :: behind) :
    Text.Plain cursor.rest 3 ∧ (cursor.advance 3).rest = behind := by
  constructor
  · rw [rest]
    exact .cons (by decide) (.cons (by decide) (.one (by decide)))
  · rw [Cursor.rest_advance, rest]
    rfl

theorem scanDocString?_of_unquoted (machine : Machine) {behind : Text}
    (place : cursor.IsPlaceOf source.content)
    (rest : cursor.rest = '<' :: '<' :: '<' :: behind)
    (unquoted : behind.head? ≠ some '\'') :
    (machine.moveTo cursor).scanDocString? source =
      some (machine.scanned (docString cursor (DocString.header? behind))) := by
  obtain ⟨opener, openedRest⟩ := advance_opener rest
  have openedPlace := place.advance 3
  have opened := openedPlace.tail?_eq
  rw [Cursor.offset_advance_of_plain opener, openedRest] at opened
  have noQuote : (behind.head? == some '\'') = false := by simpa using unquoted
  simp only [scanDocString?, moveTo, opened, Option.bind_eq_bind, Option.bind_some, noQuote,
    Bool.false_eq_true, if_false, header?_of_unquoted unquoted]
  cases found : Label.ofText? behind with
  | none => exact invalidDocString?_eq machine place rest
  | some label =>
      rw [← openedRest] at found
      obtain ⟨labelPlain, characters, cut⟩ := label_cut openedPlace found
      have plain : Text.Plain cursor.rest (3 + label.length) := opener.add labelPlain
      rw [Cursor.offset_advance_of_plain opener] at cut
      have header := scanHeader?_eq machine place rest plain characters
        fun lineBreak => @rfl _ (DocString.Header.length ⟨.heredoc, label, lineBreak⟩)
      rw [Cursor.offset_advance_of_plain plain, ← Cursor.advance_advance,
        Cursor.rest_advance, openedRest, ← Nat.add_assoc] at header
      simp only [cut, Option.bind_some]
      exact header

theorem scanDocString?_of_quoted (machine : Machine) {quoted : Text}
    (place : cursor.IsPlaceOf source.content)
    (rest : cursor.rest = '<' :: '<' :: '<' :: '\'' :: quoted) :
    (machine.moveTo cursor).scanDocString? source =
      some (machine.scanned (docString cursor (DocString.header? ('\'' :: quoted)))) := by
  obtain ⟨opener, openedRest⟩ := advance_opener rest
  have opened := (place.advance 3).tail?_eq
  rw [Cursor.offset_advance_of_plain opener, openedRest] at opened
  have quotePlain : Text.Plain cursor.rest (3 + 1) := by
    refine opener.add ?_
    rw [← Cursor.rest_advance, openedRest]
    exact .one (by decide)
  have quotedPlace := place.advance 4
  have quotedRest : (cursor.advance 4).rest = quoted := by
    rw [Cursor.rest_advance, rest]
    rfl
  have behindQuote := quotedPlace.tail?_eq
  rw [Cursor.offset_advance_of_plain quotePlain, quotedRest] at behindQuote
  simp only [scanDocString?, moveTo, opened, Option.bind_eq_bind, Option.bind_some,
    List.head?_cons, BEq.rfl, if_true, behindQuote, DocString.header?]
  cases found : Label.ofText? quoted with
  | none => exact invalidDocString?_eq machine place rest
  | some label =>
      rw [← quotedRest] at found
      obtain ⟨labelPlain, characters, cut⟩ := label_cut quotedPlace found
      have labelled : Text.Plain cursor.rest (4 + label.length) := quotePlain.add labelPlain
      have behindLabel := (place.advance (4 + label.length)).tail?_eq
      rw [Cursor.offset_advance_of_plain labelled, ← Cursor.advance_advance,
        Cursor.rest_advance, quotedRest, ← Nat.add_assoc] at behindLabel
      rw [Cursor.offset_advance_of_plain quotePlain] at cut
      simp only [cut, behindLabel, Option.bind_some]
      split
      · rename_i closed
        obtain ⟨behind, dropped⟩ := List.head?_eq_some_iff.mp closed
        have plain : Text.Plain cursor.rest (4 + label.length + 1) := by
          refine labelled.add ?_
          rw [← List.drop_drop, ← Cursor.rest_advance, quotedRest, dropped]
          exact .one (by decide)
        have size : ∀ lineBreak, DocString.Header.length ⟨.nowdoc, label, lineBreak⟩ =
            4 + label.length + 1 := by
          intro lineBreak
          simp only [DocString.Header.length]
          omega
        have header := scanHeader?_eq machine place rest plain characters size
        rw [Cursor.offset_advance_of_plain plain] at header
        have headerRest : (cursor.advance (4 + label.length + 1)).rest = behind := by
          rw [← Cursor.advance_advance, ← Cursor.advance_advance, Cursor.rest_advance,
            Cursor.rest_advance, quotedRest, dropped]
          rfl
        rw [headerRest, ← Nat.add_assoc, ← Nat.add_assoc] at header
        rw [dropped]
        exact header
      · rename_i unclosed
        split
        · rename_i behind dropped
          rw [dropped] at unclosed
          exact absurd rfl unclosed
        · exact invalidDocString?_eq machine place rest

theorem scanDocString?_eq (machine : Machine) {behind : Text}
    {result : Except LexicalError Scanned} (place : cursor.IsPlaceOf source.content)
    (rest : cursor.rest = '<' :: '<' :: '<' :: behind)
    (recognised : docStringAt cursor = some result) :
    (machine.moveTo cursor).scanDocString? source = some (machine.scanned result) := by
  rw [docStringAt_eq rest] at recognised
  cases recognised
  by_cases quote : behind.head? = some '\''
  · obtain ⟨quoted, rfl⟩ := List.head?_eq_some_iff.mp quote
    exact scanDocString?_of_quoted machine place rest
  · exact scanDocString?_of_unquoted machine place rest quote

end Machine

end ModeStack

end HackLexer
