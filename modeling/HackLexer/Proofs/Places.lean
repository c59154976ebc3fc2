import HackLexer.Lexeme

/-!
# Places of a text

A cursor is a place of a text when it is reached from the front of that text.
What stands before a place then determines its two measures, so a place is
known by its offset alone: it is a boundary, and the spans between places are
the parts of the text that their offsets cut out.
-/

namespace HackLexer

namespace Cursor

/-- The second cursor is where the first one gets by moving forward. -/
def Reaches (start stop : Cursor) : Prop :=
  ∃ count, stop = start.advance count

/-- The cursors that are reached from the front of a text. -/
def IsPlaceOf (text : Text) (cursor : Cursor) : Prop :=
  (atStart text).Reaches cursor

namespace Reaches

theorem refl (cursor : Cursor) : cursor.Reaches cursor :=
  ⟨0, (advance_zero cursor).symm⟩

theorem advance (cursor : Cursor) (count : Nat) :
    cursor.Reaches (cursor.advance count) :=
  ⟨count, rfl⟩

theorem trans {first second third : Cursor}
    (left : first.Reaches second) (right : second.Reaches third) :
    first.Reaches third := by
  obtain ⟨near, rfl⟩ := left
  obtain ⟨far, rfl⟩ := right
  exact ⟨near + far, advance_advance first near far⟩

theorem thenAdvance {start stop : Cursor} (reaches : start.Reaches stop)
    (count : Nat) : start.Reaches (stop.advance count) :=
  reaches.trans (.advance stop count)

/-- What was moved over accounts for both measures. -/
theorem exists_moved {start stop : Cursor} (reaches : start.Reaches stop) :
    ∃ moved, start.rest = moved ++ stop.rest ∧
      stop.offset = start.offset + Text.byteLength moved ∧
      stop.line = start.line + Text.lineFeeds moved := by
  obtain ⟨count, rfl⟩ := reaches
  exact ⟨start.rest.take count, (List.take_append_drop count start.rest).symm,
    rfl, rfl⟩

theorem offset_le {start stop : Cursor} (reaches : start.Reaches stop) :
    start.offset ≤ stop.offset := by
  obtain ⟨moved, _, offset, _⟩ := reaches.exists_moved
  omega

theorem stop_spanTo {start stop : Cursor} (reaches : start.Reaches stop) :
    (start.spanTo stop).stop = stop.offset := by
  obtain ⟨count, rfl⟩ := reaches
  rw [spanTo_advance]
  rfl

end Reaches

@[simp]
theorem start_spanTo (start stop : Cursor) :
    (start.spanTo stop).start = start.offset := rfl

theorem offset_lt_advance {cursor : Cursor} {count : Nat}
    (remaining : cursor.rest ≠ []) (positive : 0 < count) :
    cursor.offset < (cursor.advance count).offset := by
  obtain ⟨first, behind, rest⟩ := List.exists_cons_of_ne_nil remaining
  obtain ⟨fewer, rfl⟩ := Nat.exists_eq_succ_of_ne_zero (Nat.ne_of_gt positive)
  have size := first.utf8Size_pos
  simp only [advance, rest, List.take_succ_cons, Text.byteLength_cons]
  omega

theorem advance_of_rest_nil {cursor : Cursor} (finished : cursor.rest = [])
    (count : Nat) : cursor.advance count = cursor := by
  cases cursor
  simp_all [advance]

theorem reaches_toEnd (cursor : Cursor) : cursor.Reaches cursor.toEnd :=
  .advance cursor _

@[simp]
theorem rest_toEnd (cursor : Cursor) : cursor.toEnd.rest = [] := by
  simp [toEnd]

namespace IsPlaceOf

theorem exists_front {text : Text} {cursor : Cursor}
    (place : cursor.IsPlaceOf text) :
    ∃ front, text = front ++ cursor.rest ∧
      cursor.offset = Text.byteLength front ∧
      cursor.line = Text.lineFeeds front := by
  obtain ⟨front, rest, offset, line⟩ := Reaches.exists_moved place
  exact ⟨front, rest, by simpa [atStart] using offset,
    by simpa [atStart] using line⟩

theorem atStart (text : Text) : (atStart text).IsPlaceOf text :=
  .refl _

theorem isBoundary {text : Text} {cursor : Cursor}
    (place : cursor.IsPlaceOf text) :
    Text.isBoundary text cursor.offset = true := by
  obtain ⟨front, whole, offset, _⟩ := place.exists_front
  rw [whole, offset]
  simp [Text.isBoundary]

theorem offset_le_byteLength {text : Text} {cursor : Cursor}
    (place : cursor.IsPlaceOf text) :
    cursor.offset ≤ Text.byteLength text := by
  obtain ⟨front, whole, offset, _⟩ := place.exists_front
  rw [whole, offset, Text.byteLength_append]
  omega

/-- The offset of a place tells what follows it. -/
theorem dropBytes_offset {text : Text} {cursor : Cursor}
    (place : cursor.IsPlaceOf text) :
    Text.dropBytes cursor.offset text = cursor.rest := by
  obtain ⟨front, whole, offset, _⟩ := place.exists_front
  rw [whole, offset, Text.dropBytes_append]

theorem line_eq {text : Text} {cursor : Cursor}
    (place : cursor.IsPlaceOf text) :
    cursor.line = Text.lineFeeds (Text.takeBytes cursor.offset text) := by
  obtain ⟨front, whole, offset, line⟩ := place.exists_front
  rw [line, whole, offset, Text.takeBytes_append]

/-- A place with nothing behind it has the whole text in front of it. -/
theorem measures_of_rest_nil {text : Text} {cursor : Cursor}
    (place : cursor.IsPlaceOf text) (finished : cursor.rest = []) :
    cursor.offset = Text.byteLength text ∧
      cursor.line = Text.lineFeeds text := by
  obtain ⟨front, whole, offset, line⟩ := place.exists_front
  rw [finished, List.append_nil] at whole
  rw [whole]
  exact ⟨offset, line⟩

theorem line_toEnd {text : Text} {cursor : Cursor}
    (place : cursor.IsPlaceOf text) :
    cursor.toEnd.line = Text.lineFeeds text :=
  (measures_of_rest_nil (Reaches.trans place cursor.reaches_toEnd)
    cursor.rest_toEnd).2

/-- Cutting a text at two places gives the span between them. -/
theorem span?_eq {source : Source} {start stop : Cursor}
    (place : start.IsPlaceOf source.content) (reaches : start.Reaches stop) :
    source.span? start.offset stop.offset = some (start.spanTo stop) := by
  have later : stop.IsPlaceOf source.content := Reaches.trans place reaches
  have inside : start.offset ≤ stop.offset ∧
      Text.isBoundary source.content start.offset = true ∧
      Text.isBoundary source.content stop.offset = true :=
    ⟨reaches.offset_le, place.isBoundary, later.isBoundary⟩
  rw [Source.span?, if_pos inside, Text.slice, place.dropBytes_offset]
  rfl

end IsPlaceOf

end Cursor

end HackLexer
