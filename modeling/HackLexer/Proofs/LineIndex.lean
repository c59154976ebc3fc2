import HackLexer.Proofs.Places

/-!
# The line index

The line index of a source lists where its lines start.  Looking up an offset
in it gives the same line as counting the line feeds in front of that offset.
-/

namespace HackLexer

@[simp]
theorem length_lineStartsFrom (offset : Nat) (text : Text) :
    (lineStartsFrom offset text).length = Text.lineFeeds text := by
  induction text generalizing offset with
  | nil => rfl
  | cons character rest induction =>
      by_cases feed : character = '\n'
      · simp [lineStartsFrom, feed, induction, Text.lineFeeds]
      · simp [lineStartsFrom, feed, induction, Text.lineFeeds]

theorem lt_of_mem_lineStartsFrom {offset start : Nat} {text : Text}
    (member : start ∈ lineStartsFrom offset text) : offset < start := by
  induction text generalizing offset with
  | nil => simp [lineStartsFrom] at member
  | cons character rest induction =>
      have size := character.utf8Size_pos
      by_cases feed : character = '\n'
      · rw [lineStartsFrom, if_pos feed] at member
        rcases List.mem_cons.mp member with here | later
        · omega
        · have bound := induction later
          omega
      · rw [lineStartsFrom, if_neg feed] at member
        have bound := induction member
        omega

/-- The lines that start in front of an offset or right at it, without the
first one. -/
theorem length_takeWhile_lineStartsFrom (offset : Nat) (front rest : Text) :
    ((lineStartsFrom offset (front ++ rest)).takeWhile
        (· ≤ offset + Text.byteLength front)).length = Text.lineFeeds front := by
  induction front generalizing offset with
  | nil =>
      cases starts : lineStartsFrom offset rest with
      | nil => simp [starts]
      | cons start later =>
          have bound := lt_of_mem_lineStartsFrom
            (starts ▸ List.mem_cons_self : start ∈ lineStartsFrom offset rest)
          have behind : ¬ start ≤ offset := Nat.not_le.mpr bound
          simp [starts, behind]
  | cons character front induction =>
      have tail := induction (offset + character.utf8Size)
      rw [Nat.add_assoc, ← Text.byteLength_cons] at tail
      by_cases feed : character = '\n'
      · have here : offset + character.utf8Size ≤
            offset + Text.byteLength (character :: front) := by
          rw [Text.byteLength_cons]
          omega
        rw [List.cons_append, lineStartsFrom, if_pos feed, List.takeWhile_cons,
          if_pos (decide_eq_true here), List.length_cons, tail]
        simp [Text.lineFeeds, feed]
      · rw [List.cons_append, lineStartsFrom, if_neg feed, tail]
        simp [Text.lineFeeds, feed]

namespace Source

theorem lineCount_eq (source : Source) :
    source.lineCount = Text.lineFeeds source.content + 1 := by
  simp [lineCount, lineStarts]

theorem line_locate {source : Source} {cursor : Cursor}
    (place : cursor.IsPlaceOf source.content) :
    (source.locate cursor.offset).line = cursor.line + 1 := by
  obtain ⟨front, whole, offset, line⟩ := place.exists_front
  have later := length_takeWhile_lineStartsFrom 0 front cursor.rest
  rw [← whole, Nat.zero_add, ← offset] at later
  simp [locate, lineStarts, later, line]

theorem location?_line {source : Source} {cursor : Cursor}
    (place : cursor.IsPlaceOf source.content) :
    ∃ location, source.location? cursor.offset = some location ∧
      location.line = cursor.line + 1 := by
  refine ⟨source.locate cursor.offset, ?_, line_locate place⟩
  rw [location?, if_pos place.isBoundary]

end Source

end HackLexer
