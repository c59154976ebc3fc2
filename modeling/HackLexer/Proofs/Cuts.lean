import HackLexer.Proofs.Bytes
import HackLexer.Proofs.Places
import HackLexer.Proofs.PlainCharacters

/-!
# Cuts at byte offsets

Cutting a text at a byte offset succeeds at boundaries only.  The offset of a
place is one, so cuts at places give what stands between them; what is found at
a place has an offset that is again one of a place.
-/

namespace HackLexer

namespace Text

/-- The text from a byte offset on. -/
def tail? (text : Text) (offset : Nat) : Option Text :=
  if isBoundary text offset then some (dropBytes offset text) else none

/-- The text up to a byte offset. -/
def front? (text : Text) (offset : Nat) : Option Text :=
  if isBoundary text offset then some (takeBytes offset text) else none

/-- The byte offset of the first occurrence of a pattern. -/
def findOffset? (pattern text : Text) : Option Nat :=
  (find? pattern text).map fun count => byteLength (text.take count)

end Text

/-- The text between two byte offsets. -/
def Source.slice? (source : Source) (start stop : Nat) : Option Text :=
  (source.span? start stop).map Span.text

/-- The number of lines behind a character. -/
def lineBehind (line : Nat) (character : Char) : Nat :=
  if character = '\n' then line + 1 else line

namespace Text

theorem tail?_byteLength_take (text : Text) (count : Nat) :
    text.tail? (byteLength (text.take count)) = some (text.drop count) := by
  have cut := dropBytes_append (text.take count) (text.drop count)
  have boundary := takeBytes_append (text.take count) (text.drop count)
  rw [List.take_append_drop] at cut boundary
  simp [tail?, isBoundary, cut, boundary]

theorem front?_byteLength_take (text : Text) (count : Nat) :
    text.front? (byteLength (text.take count)) = some (text.take count) := by
  have boundary := takeBytes_append (text.take count) (text.drop count)
  rw [List.take_append_drop] at boundary
  simp [front?, isBoundary, boundary]

theorem Plain.tail? {text : Text} {count : Nat} (plain : text.Plain count) :
    text.tail? count = some (text.drop count) := by
  have cut := text.tail?_byteLength_take count
  rwa [plain.byteLength_take] at cut

theorem Plain.front? {text : Text} {count : Nat} (plain : text.Plain count) :
    text.front? count = some (text.take count) := by
  have cut := text.front?_byteLength_take count
  rwa [plain.byteLength_take] at cut

end Text

namespace Cursor

theorem advance_one {cursor : Cursor} {first : Char} {behind : Text}
    (rest : cursor.rest = first :: behind) :
    cursor.advance 1 =
      { offset := cursor.offset + first.utf8Size
        line := lineBehind cursor.line first
        rest := behind } := by
  unfold advance lineBehind
  rw [rest]
  by_cases feed : first = '\n'
  · simp [feed, Text.lineFeeds]
  · simp [feed, Text.lineFeeds]

namespace IsPlaceOf

theorem tail?_eq {text : Text} {cursor : Cursor} (place : cursor.IsPlaceOf text) :
    text.tail? cursor.offset = some cursor.rest := by
  rw [Text.tail?, if_pos place.isBoundary, place.dropBytes_offset]

theorem slice?_eq {source : Source} {start stop : Cursor}
    (place : start.IsPlaceOf source.content) (reaches : start.Reaches stop) :
    source.slice? start.offset stop.offset = some (start.spanTo stop).text := by
  rw [Source.slice?, place.span?_eq reaches]
  rfl

theorem advance {text : Text} {cursor : Cursor} (place : cursor.IsPlaceOf text)
    (count : Nat) : (cursor.advance count).IsPlaceOf text :=
  Reaches.thenAdvance place count

end IsPlaceOf

end Cursor

theorem Text.length_le_byteLength (text : Text) : text.length ≤ text.byteLength := by
  induction text with
  | nil => exact Nat.le_refl 0
  | cons first rest ih =>
      have size := first.utf8Size_pos
      rw [Text.byteLength_cons, List.length_cons]
      omega

theorem Cursor.Reaches.text_spanTo_advance {start stop : Cursor}
    (reaches : start.Reaches stop) (count : Nat) :
    (start.spanTo (stop.advance count)).text =
      (start.spanTo stop).text ++ stop.rest.take count := by
  obtain ⟨moved, rfl⟩ := reaches
  rw [advance_advance, spanTo_advance, spanTo_advance]
  exact List.take_add

theorem Cursor.IsPlaceOf.getElem?_bytes {text : Text} {cursor : Cursor}
    (place : cursor.IsPlaceOf text) (index : Nat) :
    (Text.bytes text)[cursor.offset + index]? = (Text.bytes cursor.rest)[index]? := by
  obtain ⟨front, whole, offset, _⟩ := place.exists_front
  rw [offset, whole]
  exact Text.getElem?_bytes_of_append front cursor.rest index

theorem Cursor.text_spanTo_self (cursor : Cursor) : (cursor.spanTo cursor).text = [] := by
  have moved := cursor.spanTo_advance 0
  rw [Cursor.advance_zero] at moved
  rw [moved]
  rfl

namespace Text

theorem countWhile_cons_of_ne {first : Char} {rest : Text} (other : first ≠ '\n') :
    countWhile (· != '\n') (first :: rest) = countWhile (· != '\n') rest + 1 := by
  unfold countWhile
  rw [List.takeWhile_cons_of_pos (by simpa using other), List.length_cons]

/-- A text either has a first line that a line feed ends, or no line feed. -/
theorem findFrom_feed (text : Text) (index : Nat) :
    (∃ line behind, text = line ++ '\n' :: behind ∧ '\n' ∉ line ∧
      countWhile (· != '\n') text = line.length ∧
      findFrom ['\n'] index text = some (index + line.length)) ∨
    ('\n' ∉ text ∧ countWhile (· != '\n') text = text.length ∧
      findFrom ['\n'] index text = none) := by
  induction text generalizing index with
  | nil => exact .inr ⟨List.not_mem_nil, rfl, rfl⟩
  | cons first rest ih =>
      by_cases feed : first = '\n'
      · subst feed
        exact .inl ⟨[], rest, rfl, List.not_mem_nil, rfl, rfl⟩
      · have next : findFrom ['\n'] index (first :: rest) =
            findFrom ['\n'] (index + 1) rest := by
          rw [findFrom, if_neg (by simpa using Ne.symm feed)]
        rw [next, countWhile_cons_of_ne feed]
        rcases ih (index + 1) with
          ⟨line, behind, rfl, noFeed, count, found⟩ | ⟨noFeed, count, missing⟩
        · refine .inl ⟨first :: line, behind, rfl, ?_, ?_, ?_⟩
          · simpa [Ne.symm feed] using noFeed
          · rw [count, List.length_cons]
          · rw [found, List.length_cons]
            congr 1
            omega
        · refine .inr ⟨?_, ?_, missing⟩
          · simpa [Ne.symm feed] using noFeed
          · rw [count, List.length_cons]

theorem countWhile_of_noFeed {text : Text} (noFeed : '\n' ∉ text) :
    countWhile (· != '\n') text = text.length := by
  rcases findFrom_feed text 0 with ⟨line, behind, whole, _⟩ | ⟨_, count, _⟩
  · rw [whole] at noFeed
    simp at noFeed
  · exact count

theorem findOffset?_feed (text : Text) :
    (∃ line behind, text = line ++ '\n' :: behind ∧ '\n' ∉ line ∧
      countWhile (· != '\n') text = line.length ∧
      findOffset? ['\n'] text = some (byteLength line)) ∨
    ('\n' ∉ text ∧ countWhile (· != '\n') text = text.length ∧
      findOffset? ['\n'] text = none) := by
  rcases findFrom_feed text 0 with
    ⟨line, behind, whole, noFeed, count, found⟩ | ⟨noFeed, count, missing⟩
  · refine .inl ⟨line, behind, whole, noFeed, count, ?_⟩
    rw [findOffset?, find?, found, Nat.zero_add, Option.map_some, whole, List.take_left]
  · refine .inr ⟨noFeed, count, ?_⟩
    rw [findOffset?, find?, missing]
    rfl

theorem findFrom_some {pattern text : Text} {index found : Nat}
    (search : findFrom pattern index text = some found) :
    index ≤ found ∧ pattern.isPrefixOf (text.drop (found - index)) := by
  induction text generalizing index with
  | nil =>
      rw [findFrom] at search
      split at search
      · rename_i starts
        cases search
        rw [Nat.sub_self]
        exact ⟨Nat.le_refl _, starts⟩
      · cases search
  | cons first rest ih =>
      rw [findFrom] at search
      split at search
      · rename_i starts
        cases search
        rw [Nat.sub_self]
        exact ⟨Nat.le_refl _, starts⟩
      · obtain ⟨bound, starts⟩ := ih search
        obtain ⟨more, rfl⟩ := Nat.exists_eq_add_of_le bound
        rw [Nat.add_sub_cancel_left] at starts
        rw [Nat.add_assoc, Nat.add_sub_cancel_left, Nat.add_comm 1 more]
        exact ⟨Nat.le_add_right _ _, starts⟩

theorem isPrefixOf_drop_of_find? {pattern text : Text} {count : Nat}
    (search : find? pattern text = some count) :
    pattern.isPrefixOf (text.drop count) :=
  (findFrom_some search).2

theorem lineFeeds_of_notMem {text : Text} (noFeed : '\n' ∉ text) : lineFeeds text = 0 :=
  List.count_eq_zero.mpr noFeed

end Text

theorem Cursor.advance_line {cursor : Cursor} {line behind : Text}
    (rest : cursor.rest = line ++ '\n' :: behind) (noFeed : '\n' ∉ line) :
    cursor.advance (line.length + 1) =
      ⟨cursor.offset + Text.byteLength line + 1, cursor.line + 1, behind⟩ := by
  have taken : cursor.rest.take (line.length + 1) = line ++ ['\n'] := by
    rw [rest, List.take_add, List.take_left, List.drop_left]
    rfl
  have dropped : cursor.rest.drop (line.length + 1) = behind := by
    rw [rest, ← List.drop_drop, List.drop_left]
    rfl
  have size : Text.byteLength ['\n'] = 1 := rfl
  have feeds : Text.lineFeeds ['\n'] = 1 := rfl
  rw [advance, taken, dropped, Text.byteLength_append, Text.lineFeeds_append,
    Text.lineFeeds_of_notMem noFeed, size, feeds, Nat.add_assoc, Nat.zero_add]

theorem Cursor.advance_of_length_le {cursor : Cursor} {count : Nat}
    (past : cursor.rest.length ≤ count) : cursor.advance count = cursor.toEnd := by
  rw [toEnd, advance, advance, List.take_of_length_le past, List.drop_of_length_le past,
    List.take_length, List.drop_length]

theorem Cursor.toEnd_advance (cursor : Cursor) (count : Nat) :
    (cursor.advance count).toEnd = cursor.toEnd := by
  rw [toEnd, advance_advance]
  apply advance_of_length_le
  rw [rest_advance, List.length_drop]
  omega

theorem Cursor.Reaches.toEnd_eq {start stop : Cursor} (reaches : start.Reaches stop) :
    stop.toEnd = start.toEnd := by
  obtain ⟨count, rfl⟩ := reaches
  exact start.toEnd_advance count

theorem Cursor.line_toEnd (cursor : Cursor) :
    cursor.toEnd.line = cursor.line + Text.lineFeeds cursor.rest := by
  rw [toEnd, advance, List.take_length]

theorem Cursor.toEnd_line {cursor : Cursor} (noFeed : '\n' ∉ cursor.rest) :
    cursor.toEnd.line = cursor.line := by
  rw [line_toEnd, Text.lineFeeds_of_notMem noFeed]
  rfl

end HackLexer
