import HackLexer.Proofs.ModeStack.DocStrings

/-!
# Scans of the lexer with a stack of modes

At a place of the source, a scan by byte offsets is never stuck, and what it
finds is what `scan` finds at that place.
-/

namespace HackLexer

namespace ModeStack

namespace Machine

variable {source : Source} {cursor : Cursor}

theorem scanToken?_eq (machine : Machine) {kind : TokenKind} {count : Nat}
    (place : cursor.IsPlaceOf source.content) (plain : Text.Plain cursor.rest count) :
    (machine.moveTo cursor).scanToken? source (kind, count) =
      some (machine.scanned (.ok (.ofLexeme (cursor.lexeme kind count)))) := by
  simp only [scanToken?, token?_eq machine place plain, Option.bind_eq_bind,
    Option.bind_some]
  rfl

theorem scanWord?_eq (machine : Machine) {length : Nat}
    (place : cursor.IsPlaceOf source.content) (word : Word.length cursor.rest = length + 1) :
    ∃ kind, word? cursor.rest = some (kind, length + 1) ∧
      (machine.moveTo cursor).scanWord? source cursor.rest (length + 1) =
        some (machine.scanned (.ok (.ofLexeme (cursor.lexeme kind (length + 1))))) := by
  have plain := Word.length_plain cursor.rest
  rw [word] at plain
  simp only [scanWord?, plain.front?, token?_eq machine place plain, Option.bind_eq_bind,
    Option.bind_some, word?, word]
  cases Keyword.ofSpelling? (cursor.rest.take (length + 1)) with
  | none => exact ⟨.word, rfl, rfl⟩
  | some keyword => exact ⟨.keyword keyword, rfl, rfl⟩

/-- The recognisers of what is told by its classes of characters or its
spelling. -/
def spelledAt (markup : Bool) (cursor : Cursor) : Recognised :=
  tokenAt cursor (number? cursor.rest) <|> tokenAt cursor (word? cursor.rest) <|>
    tokenAt cursor (dollar? cursor.rest) <|> elementAt markup cursor <|>
    tokenAt cursor (punctuation? cursor.rest)

theorem elementAt_eq (markup : Bool) (cursor : Cursor) :
    elementAt markup cursor =
      (if markup then markupName? cursor.rest else none).map fun count =>
        .ok
          { found := .element (cursor.lexeme .xhpName count)
            after := cursor.advance count
            comment := none } := by
  cases markup with
  | true => rfl
  | false => rfl

theorem scanSpelled?_eq (machine : Machine) {markup : Bool} {first : Char} {behind : Text}
    (place : cursor.IsPlaceOf source.content) (rest : cursor.rest = first :: behind) :
    (machine.moveTo cursor).scanSpelled? source markup first cursor.rest =
      some (machine.scanned
        ((spelledAt markup cursor).getD (.error (unknownTokenAt cursor)))) := by
  unfold scanSpelled? spelledAt
  cases number : number? cursor.rest with
  | some found => exact scanToken?_eq machine place (number?_plain number)
  | none =>
      cases word : Word.length cursor.rest with
      | succ length =>
          obtain ⟨kind, found, scanned⟩ := scanWord?_eq machine place word
          rw [found]
          exact scanned
      | zero =>
          have noWord : word? cursor.rest = none := by
            unfold word?
            rw [word]
          rw [noWord]
          cases dollar : dollar? cursor.rest with
          | some found => exact scanToken?_eq machine place (dollar?_plain dollar)
          | none =>
              rw [elementAt_eq]
              cases name : if markup then markupName? cursor.rest else none with
              | some length =>
                  have plain := markupName?_plain (Option.ite_none_right_eq_some.mp name).2
                  simp only [token?_eq machine place plain, Option.bind_eq_bind,
                    Option.bind_some]
                  rfl
              | none =>
                  cases punctuation : punctuation? cursor.rest with
                  | some found =>
                      exact scanToken?_eq machine place (punctuation?_plain punctuation)
                  | none =>
                      have cut := place.span?_eq (.advance cursor 1)
                      have offset : (cursor.advance 1).offset =
                          cursor.offset + first.utf8Size := by
                        rw [Cursor.advance_one rest]
                      rw [offset] at cut
                      simp only [moveTo, cut, Option.bind_eq_bind, Option.bind_some]
                      rfl

theorem layoutAt_blanks {first : Char} {behind : Text}
    (rest : cursor.rest = first :: behind) (blank : isBlank first) :
    layoutAt cursor =
      some (.ok
        { found := .layout
          after := cursor.advance (Text.countWhile isBlank cursor.rest)
          comment := none }) := by
  have noFeed : first ≠ '\n' := by
    rintro rfl
    cases blank
  have some_ : Text.countWhile isBlank cursor.rest =
      Text.countWhile isBlank behind + 1 := by
    unfold Text.countWhile
    rw [rest, List.takeWhile_cons_of_pos blank, List.length_cons]
  unfold layoutAt
  split
  · rename_i more feed
    rw [rest] at feed
    cases feed
    exact absurd rfl noFeed
  · rw [some_]

theorem layoutAt_none {first : Char} {behind : Text}
    (rest : cursor.rest = first :: behind) (noBlank : ¬ isBlank first)
    (noFeed : first ≠ '\n') : layoutAt cursor = none := by
  unfold layoutAt
  split
  · rename_i more feed
    rw [rest] at feed
    cases feed
    exact absurd rfl noFeed
  · have none_ : Text.countWhile isBlank cursor.rest = 0 := by
      unfold Text.countWhile
      rw [rest, List.takeWhile_cons_of_neg noBlank, List.length_nil]
    rw [none_]

theorem commentAt_none {first : Char} {behind : Text}
    (rest : cursor.rest = first :: behind)
    (noBlock : ¬ "/*".toList.isPrefixOf cursor.rest)
    (noLine : ¬ ("//".toList.isPrefixOf cursor.rest || first == '#')) :
    commentAt cursor = none := by
  simp only [commentAt]
  split
  · rename_i more comment
    exact absurd (isPrefixOf_pair.mpr ⟨more, comment⟩) noBlock
  · rename_i more comment
    have starts : "//".toList.isPrefixOf cursor.rest := isPrefixOf_pair.mpr ⟨more, comment⟩
    rw [starts] at noLine
    exact absurd rfl noLine
  · rename_i more comment
    rw [rest] at comment
    cases comment
    simp at noLine
  · rfl

theorem quotedAt_none {first : Char} {behind : Text}
    (rest : cursor.rest = first :: behind) (noDouble : first ≠ '"')
    (noSingle : first ≠ '\'') : quotedAt cursor = none := by
  unfold quotedAt
  split
  · rename_i more quote
    rw [rest] at quote
    cases quote
    exact absurd rfl noDouble
  · rename_i more quote
    rw [rest] at quote
    cases quote
    exact absurd rfl noSingle
  · rfl

theorem docStringAt_none (noOpener : ¬ "<<<".toList.isPrefixOf cursor.rest) :
    docStringAt cursor = none := by
  unfold docStringAt
  split
  · rename_i behind rest
    rw [rest] at noOpener
    exact absurd rfl noOpener
  · rfl

theorem scan?_of_nil (machine : Machine) (markup : Bool)
    (place : cursor.IsPlaceOf source.content) (finished : cursor.rest = []) :
    (machine.moveTo cursor).scan? source markup =
      some (.ok (.finished, machine.moveTo cursor)) := by
  have here := place.tail?_eq
  rw [finished] at here
  unfold scan?
  simp only [moveTo, here, Option.bind_eq_bind, Option.bind_some]
  rfl

theorem moveTo_advance (machine : Machine) {count : Nat}
    (plain : Text.Plain cursor.rest count) :
    machine.moveTo (cursor.advance count) =
      { machine with cursor := cursor.offset + count, line := cursor.line } := by
  rw [moveTo, Cursor.offset_advance_of_plain plain, Cursor.line_advance_of_plain plain]

/-- What stands behind layout and suppression markers. -/
def unmarkedAt (markup : Bool) (cursor : Cursor) : Recognised :=
  commentAt cursor <|> quotedAt cursor <|> docStringAt cursor <|> spelledAt markup cursor

theorem lineComment_opener {first : Char} {behind : Text}
    (rest : cursor.rest = first :: behind)
    (opens : "//".toList.isPrefixOf cursor.rest || first == '#') :
    Text.Plain cursor.rest (if first = '#' then 1 else 2) ∧
      commentAt cursor =
        some (.ok
          { found := .layout
            after := (lineComment cursor).2
            comment := some (lineComment cursor).1 }) := by
  by_cases hash : first = '#'
  · subst hash
    refine ⟨?_, ?_⟩
    · rw [rest]
      exact .one (by decide)
    · simp only [commentAt, rest]
  · rw [if_neg hash]
    have starts : "//".toList.isPrefixOf cursor.rest := by simpa [hash] using opens
    obtain ⟨more, line⟩ : ∃ more, cursor.rest = '/' :: '/' :: more :=
      isPrefixOf_pair.mp starts
    refine ⟨.of_isPrefixOf starts (isPlain_of_all (by decide)), ?_⟩
    simp only [commentAt, line]

theorem scanUnmarked?_eq (machine : Machine) (markup : Bool) {first : Char} {behind : Text}
    (place : cursor.IsPlaceOf source.content) (rest : cursor.rest = first :: behind) :
    (machine.moveTo cursor).scanUnmarked? source markup first cursor.rest =
      some (machine.scanned
        ((unmarkedAt markup cursor).getD (.error (unknownTokenAt cursor)))) := by
  unfold scanUnmarked? unmarkedAt
  split
  · rename_i opens
    obtain ⟨more, block⟩ : ∃ more, cursor.rest = '/' :: '*' :: more :=
      isPrefixOf_pair.mp opens
    have opener : Text.Plain cursor.rest 2 :=
      .of_isPrefixOf opens (isPlain_of_all (by decide))
    have recorded := recordBlockComment?_eq machine 2 place opener (.refl cursor)
    rw [machine.moveTo_advance opener] at recorded
    simp only [moveTo, recorded, Option.bind_eq_bind, Option.bind_some, commentAt, block]
    cases blockComment cursor cursor 2 with
    | error error => rfl
    | ok comment => rfl
  · rename_i noBlock
    split
    · rename_i opens
      obtain ⟨opener, recognised⟩ := lineComment_opener rest opens
      have recorded := recordLineComment?_eq machine place opener
      rw [machine.moveTo_advance opener] at recorded
      rw [recognised]
      simp only [moveTo, recorded, Option.bind_eq_bind, Option.bind_some]
      rfl
    · rename_i noLine
      rw [commentAt_none rest noBlock noLine]
      split
      · rename_i quote
        subst quote
        have opener : Text.Plain cursor.rest 1 := by
          rw [rest]
          exact .one (by decide)
        simp only [quotedAt, rest]
        change _ = some (Except.ok (Finding.enter _, machine.moveTo _))
        rw [machine.moveTo_advance opener]
        rfl
      · rename_i noDouble
        split
        · rename_i quote
          subst quote
          obtain ⟨result, recognised⟩ : ∃ result, quotedAt cursor = some result := by
            simp only [quotedAt, rest]
            cases SingleQuoted.body behind with
            | none => exact ⟨_, rfl⟩
            | some read => exact ⟨_, rfl⟩
          rw [recognised]
          exact scanSingleQuoted?_eq machine place rest recognised
        · rename_i noSingle
          rw [quotedAt_none rest noDouble noSingle]
          split
          · rename_i opens
            obtain ⟨more, opened⟩ := List.isPrefixOf_iff_prefix.mp opens
            have recognised := docStringAt_eq opened.symm
            rw [recognised]
            exact scanDocString?_eq machine place opened.symm recognised
          · rename_i noOpener
            rw [docStringAt_none noOpener]
            exact scanSpelled?_eq machine place rest

theorem scan?_eq (machine : Machine) (markup : Bool)
    (place : cursor.IsPlaceOf source.content) (remaining : cursor.rest ≠ []) :
    (machine.moveTo cursor).scan? source markup =
      some (machine.scanned (scan markup cursor)) := by
  have here := place.tail?_eq
  unfold scan? scan recognise
  simp only [moveTo, here, Option.bind_eq_bind, Option.bind_some]
  split
  · rename_i finished
    exact absurd finished remaining
  · rename_i first behind rest
    split
    · rename_i blank
      have plain := Text.Plain.countWhile isPlain_of_isBlank cursor.rest
      have moved := machine.moveTo_advance plain
      rw [layoutAt_blanks rest blank]
      change _ = some (Except.ok (Finding.skipped, machine.moveTo _))
      rw [moved]
      rfl
    · rename_i noBlank
      split
      · rename_i feed
        subst feed
        have found : layoutAt cursor =
            some (.ok { found := .layout, after := cursor.advance 1, comment := none }) := by
          unfold layoutAt
          rw [rest]
          rfl
        rw [found]
        change _ = some (Except.ok (Finding.skipped, machine.moveTo _))
        rw [Cursor.advance_one rest]
        rfl
      · rename_i noFeed
        rw [layoutAt_none rest noBlank noFeed, suppressionMarker?_eq]
        simp only [Option.bind_some]
        cases marker : marker? cursor.rest with
        | some found =>
            obtain ⟨kind, count⟩ := found
            obtain ⟨result, recognised⟩ : ∃ result, markerAt cursor = some result := by
              unfold markerAt
              rw [marker]
              rcases marker?_kind marker with rfl | rfl
              · exact ⟨_, rfl⟩
              · exact ⟨_, rfl⟩
            rw [recognised]
            exact scanMarker?_eq machine place marker recognised
        | none =>
            have noMarker : markerAt cursor = none := by
              unfold markerAt
              rw [marker]
            rw [noMarker]
            exact scanUnmarked?_eq machine markup place rest

end Machine

end ModeStack

end HackLexer
