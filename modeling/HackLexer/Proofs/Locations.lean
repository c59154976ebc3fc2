import HackLexer.Proofs.Lines

/-!
# Locations

The location of an offset is the line that the offset stands in and the number of
characters between the start of that line and the offset.  It is found exactly for
the offsets between characters, tells them apart, and grows with them.

The main statement is `location?_faithful`.
-/

namespace HackLexer

/-- The order of locations: by their lines, then by their columns. -/
def Location.Before (left right : Location) : Prop :=
  left.line < right.line ∨ left.line = right.line ∧ left.column < right.column

theorem Location.Before.ne {left right : Location} (before : left.Before right) :
    left ≠ right := by
  rintro rfl
  rcases before with line | ⟨_, column⟩
  · exact Nat.lt_irrefl _ line
  · exact Nat.lt_irrefl _ column

/-- In an increasing list the entries up to a bound stand in front of all
others. -/
theorem le_iff_lt_length_takeWhile {entries : List Nat} (increasing : entries.Pairwise (· < ·))
    {bound index entry : Nat} (found : entries[index]? = some entry) :
    entry ≤ bound ↔ index < (entries.takeWhile (· ≤ bound)).length := by
  induction entries generalizing index with
  | nil => cases found
  | cons first rest ih =>
      obtain ⟨later, increasing⟩ := List.pairwise_cons.mp increasing
      by_cases within : first ≤ bound
      · rw [List.takeWhile_cons_of_pos (by simpa using within), List.length_cons]
        cases index with
        | zero =>
            cases found
            exact iff_of_true within (Nat.succ_pos _)
        | succ index =>
            rw [List.getElem?_cons_succ] at found
            rw [ih increasing found, Nat.succ_lt_succ_iff]
      · rw [List.takeWhile_cons_of_neg (by simpa using within), List.length_nil]
        refine iff_of_false ?_ (Nat.not_lt_zero _)
        cases index with
        | zero =>
            cases found
            exact within
        | succ index =>
            rw [List.getElem?_cons_succ] at found
            have behind := later entry (List.mem_of_getElem? found)
            omega

theorem Text.takeBytes_append_dropBytes (bytes : Nat) (text : Text) :
    takeBytes bytes text ++ dropBytes bytes text = text := by
  induction text generalizing bytes with
  | nil => rfl
  | cons character rest ih =>
      rw [takeBytes, dropBytes]
      split
      · rw [List.cons_append, ih]
      · rfl

/-- A boundary is where a text falls into two texts. -/
theorem Text.isBoundary_iff (text : Text) (offset : Nat) :
    isBoundary text offset ↔
      ∃ front behind, text = front ++ behind ∧ offset = byteLength front := by
  constructor
  · intro boundary
    exact ⟨_, _, (takeBytes_append_dropBytes offset text).symm, (eq_of_beq boundary).symm⟩
  · rintro ⟨front, behind, rfl, rfl⟩
    simp [isBoundary]

/-- Of two fronts of a text the one with fewer bytes is a front of the other. -/
theorem Text.append_of_byteLength_le {left right leftBehind rightBehind : Text}
    (same : left ++ leftBehind = right ++ rightBehind)
    (shorter : byteLength left ≤ byteLength right) : ∃ more, right = left ++ more := by
  rcases List.append_eq_append_iff.mp same with ⟨more, whole, _⟩ | ⟨more, whole, _⟩
  · exact ⟨more, whole⟩
  · have none : more = [] := by
      cases more with
      | nil => rfl
      | cons character rest =>
          have size := character.utf8Size_pos
          rw [whole, byteLength_append, byteLength_cons] at shorter
          omega
    exact ⟨[], by rw [whole, none, List.append_nil, List.append_nil]⟩

theorem Text.append_of_byteLength_lt {left right leftBehind rightBehind : Text}
    (same : left ++ leftBehind = right ++ rightBehind)
    (shorter : byteLength left < byteLength right) :
    ∃ first more, right = left ++ first :: more := by
  obtain ⟨more, whole⟩ := append_of_byteLength_le same (Nat.le_of_lt shorter)
  cases more with
  | nil =>
      rw [whole, List.append_nil] at shorter
      exact absurd shorter (Nat.lt_irrefl _)
  | cons first more => exact ⟨first, more, whole⟩

namespace Source

variable {source : Source}

/-- The characters in front of an offset are ended lines and a part of the next
one. -/
theorem location?_of_lines {lines : List Text} {inside behind : Text}
    (front : source.content.FrontLines lines (inside ++ behind)) (noFeed : '\n' ∉ inside) :
    source.location? (Text.byteLength (Text.ended lines ++ inside)) =
      some { line := lines.length + 1, column := inside.length + 1 } := by
  have whole : source.content = (Text.ended lines ++ inside) ++ behind := by
    rw [List.append_assoc]
    exact front.whole
  have boundary : Text.isBoundary source.content (Text.byteLength (Text.ended lines ++ inside)) :=
    (Text.isBoundary_iff _ _).mpr ⟨_, behind, whole, rfl⟩
  have feeds : Text.lineFeeds (Text.ended lines ++ inside) = lines.length :=
    Text.FrontLines.lineFeeds_eq ⟨rfl, front.unbroken⟩ noFeed
  have line := length_takeWhile_lineStartsFrom 0 (Text.ended lines ++ inside) behind
  rw [← whole, feeds, Nat.zero_add] at line
  have inLine := Text.slice_append (Text.ended lines) inside behind
  rw [← front.whole, ← Text.byteLength_append] at inLine
  rw [location?, if_pos boundary, locate, lineStarts, List.takeWhile_cons_of_pos (by simp),
    List.length_cons, line, lineStart?_of_lines front, Option.getD_some, inLine]

theorem location?_some {offset : Nat} {location : Location}
    (found : source.location? offset = some location) :
    Text.isBoundary source.content offset ∧ location = source.locate offset := by
  rw [location?] at found
  split at found
  · cases found
    exact ⟨by assumption, rfl⟩
  · cases found

theorem exists_lines_of_location? {offset : Nat} {location : Location}
    (found : source.location? offset = some location) :
    ∃ lines inside behind, source.content.FrontLines lines (inside ++ behind) ∧
      '\n' ∉ inside ∧ offset = Text.byteLength (Text.ended lines ++ inside) ∧
      location = { line := lines.length + 1, column := inside.length + 1 } := by
  obtain ⟨front, behind, whole, rfl⟩ := (Text.isBoundary_iff _ _).mp (location?_some found).1
  obtain ⟨lines, inside, frontLines, noFeed⟩ := front.exists_lines
  have lined : source.content.FrontLines lines (inside ++ behind) :=
    ⟨by rw [whole, frontLines.whole, List.append_assoc], frontLines.unbroken⟩
  have here := location?_of_lines lined noFeed
  rw [← frontLines.whole, found] at here
  exact ⟨lines, inside, behind, lined, noFeed, by rw [frontLines.whole], Option.some.inj here⟩

/-- The location of an offset comes before those of all later ones. -/
theorem location?_before {left right : Nat} {first second : Location} (earlier : left < right)
    (leftFound : source.location? left = some first)
    (rightFound : source.location? right = some second) : first.Before second := by
  obtain ⟨lines, inside, behind, front, noFeed, rfl, rfl⟩ := exists_lines_of_location? leftFound
  obtain ⟨laterLines, laterInside, laterBehind, laterFront, laterNoFeed, rfl, rfl⟩ :=
    exists_lines_of_location? rightFound
  have same : (Text.ended lines ++ inside) ++ behind =
      (Text.ended laterLines ++ laterInside) ++ laterBehind := by
    rw [List.append_assoc, List.append_assoc, ← front.whole, ← laterFront.whole]
  obtain ⟨next, further, whole⟩ := Text.append_of_byteLength_lt same earlier
  generalize more_eq : next :: further = more at whole
  by_cases feed : '\n' ∈ more
  · -- The later offset has a line feed more in front of it.
    have feeds := congrArg Text.lineFeeds whole
    have counted := Text.FrontLines.lineFeeds_eq ⟨rfl, front.unbroken⟩ noFeed
    have laterCounted := Text.FrontLines.lineFeeds_eq ⟨rfl, laterFront.unbroken⟩ laterNoFeed
    have positive : 0 < Text.lineFeeds more := List.count_pos_iff.mpr feed
    rw [laterCounted, Text.lineFeeds_append, counted] at feeds
    left
    simp only
    omega
  · -- Both offsets stand in the same line.
    have split : inside ++ behind = (inside ++ more) ++ laterBehind := by
      rw [whole, List.append_assoc, List.append_assoc, List.append_assoc] at same
      rw [List.append_assoc]
      exact List.append_cancel_left same
    have here := location?_of_lines (split ▸ front) (by simp [noFeed, feed])
    rw [← List.append_assoc, ← whole, rightFound] at here
    have column : 0 < more.length := by simp [← more_eq]
    right
    rw [Option.some.inj here]
    refine ⟨rfl, ?_⟩
    simp only [List.length_append]
    omega

end Source

/-- An offset has a location exactly if it stands between two characters or at an
end of the text.  The line is the last one that starts in front of the offset or
right at it, and the column counts the characters between the two, none of which
is a line feed.  Different offsets have different locations, in their order. -/
theorem location?_faithful (source : Source) :
    (∀ offset, (source.location? offset).isSome ↔
      ∃ front behind, source.content = front ++ behind ∧ offset = Text.byteLength front) ∧
    (∀ offset location, source.location? offset = some location →
      1 ≤ location.line ∧ location.line ≤ source.lineCount ∧
      (∀ index start, source.lineStarts[index]? = some start →
        (start ≤ offset ↔ index < location.line)) ∧
      ∃ front inside behind, source.content = front ++ (inside ++ behind) ∧
        source.lineStart? location.line = some (Text.byteLength front) ∧ '\n' ∉ inside ∧
        location.column = inside.length + 1 ∧
        offset = Text.byteLength front + Text.byteLength inside) ∧
    (∀ left right location, source.location? left = some location →
      source.location? right = some location → left = right) ∧
    ∀ left right first second, left < right → source.location? left = some first →
      source.location? right = some second → first.Before second := by
  refine ⟨?_, ?_, ?_, fun _ _ _ _ => Source.location?_before⟩
  · intro offset
    rw [← Text.isBoundary_iff, Source.location?]
    split <;> simp_all
  · intro offset location found
    have line : location.line = (source.lineStarts.takeWhile (· ≤ offset)).length :=
      congrArg Location.line (Source.location?_some found).2
    have start := fun index start =>
      @le_iff_lt_length_takeWhile _ source.pairwise_lineStarts offset index start
    rw [← line] at start
    obtain ⟨lines, inside, behind, front, noFeed, offset_eq, rfl⟩ :=
      Source.exists_lines_of_location? found
    have lineStart := Source.lineStart?_of_lines front
    have bounds := (source.lineStart?_isSome_iff _).mp (Option.isSome_of_mem lineStart)
    exact ⟨bounds.1, bounds.2, start, Text.ended lines, inside, behind, front.whole, lineStart,
      noFeed, rfl, by rw [offset_eq, Text.byteLength_append]⟩
  · intro left right location leftFound rightFound
    rcases Nat.lt_trichotomy left right with earlier | same | later
    · exact absurd rfl (Source.location?_before earlier leftFound rightFound).ne
    · exact same
    · exact absurd rfl (Source.location?_before later rightFound leftFound).ne

/-- A character of two bytes in front of a line break and a tab behind it: the
offset inside of the character has no location, those behind it have. -/
theorem locations_around_line_break :
    let source : Source := { path := "a.hack", content := "a\u00e9\n\tb".toList }
    source.location? 2 = none ∧
      source.location? 3 = some { line := 1, column := 3 } ∧
      source.location? 5 = some { line := 2, column := 2 } ∧
      (∃ front behind, source.content = front ++ behind ∧ 3 = Text.byteLength front) ∧
      (∃ front inside behind, source.content = front ++ (inside ++ behind) ∧
        source.lineStart? 2 = some (Text.byteLength front) ∧ '\n' ∉ inside ∧
        2 = inside.length + 1 ∧ 5 = Text.byteLength front + Text.byteLength inside) ∧
      Location.Before { line := 1, column := 3 } { line := 2, column := 2 } := by
  intro source
  obtain ⟨boundaries, places, _, ordered⟩ := location?_faithful source
  have first : source.location? 3 = some { line := 1, column := 3 } := by decide
  have second : source.location? 5 = some { line := 2, column := 2 } := by decide
  refine ⟨by decide, first, second, ?_, ?_, ordered 3 5 _ _ (by decide) first second⟩
  · exact (boundaries 3).mp (by rw [first]; rfl)
  · exact (places 5 _ second).2.2.2

end HackLexer
