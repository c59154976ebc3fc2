import HackLexer.Source.Span

/-!
# Cursors

A cursor is a place in a source text: what stands in front of it is measured in
bytes and line feeds, and what follows it is at hand.  Cursors only move by
`advance`, which keeps the two measures right.
-/

namespace HackLexer

/-- A place in a source text. -/
structure Cursor where
  /-- Number of bytes in front of the cursor. -/
  offset : Nat
  /-- Number of line feeds in front of the cursor. -/
  line : Nat
  /-- The characters from the cursor on. -/
  rest : Text
  deriving DecidableEq, Repr

namespace Cursor

def atStart (text : Text) : Cursor :=
  { offset := 0, line := 0, rest := text }

/-- Moves a cursor over the given number of characters. -/
def advance (cursor : Cursor) (count : Nat) : Cursor :=
  { offset := cursor.offset + Text.byteLength (cursor.rest.take count)
    line := cursor.line + Text.lineFeeds (cursor.rest.take count)
    rest := cursor.rest.drop count }

def toEnd (cursor : Cursor) : Cursor :=
  cursor.advance cursor.rest.length

def spanTo (start stop : Cursor) : Span :=
  { start := start.offset, text := Text.takeBytes (stop.offset - start.offset) start.rest }

/-- The span of the next characters. -/
def spanOf (cursor : Cursor) (count : Nat) : Span :=
  cursor.spanTo (cursor.advance count)

@[simp]
theorem advance_zero (cursor : Cursor) : cursor.advance 0 = cursor := by
  simp [advance]

@[simp]
theorem rest_advance (cursor : Cursor) (count : Nat) :
    (cursor.advance count).rest = cursor.rest.drop count := rfl

theorem advance_advance (cursor : Cursor) (first second : Nat) :
    (cursor.advance first).advance second = cursor.advance (first + second) := by
  simp [advance, List.take_add, Nat.add_assoc]

theorem length_rest_advance_lt {cursor : Cursor} {count : Nat}
    (remaining : cursor.rest ≠ []) (positive : 0 < count) :
    (cursor.advance count).rest.length < cursor.rest.length := by
  have nonempty := List.length_pos_iff.mpr remaining
  simp
  omega

@[simp]
theorem spanTo_advance (cursor : Cursor) (count : Nat) :
    cursor.spanTo (cursor.advance count) =
      { start := cursor.offset, text := cursor.rest.take count } := by
  have whole := Text.takeBytes_append (cursor.rest.take count) (cursor.rest.drop count)
  rw [List.take_append_drop] at whole
  simp [spanTo, advance, whole]

end Cursor

end HackLexer
