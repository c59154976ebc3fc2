import HackLexer.Proofs.Grammar.Matchers
import HackLexer.Proofs.PassedComments

/-!
# The look of comments

A line comment is the rest of its line, a block comment goes on to the first `*/`,
and both start with their opener or right behind a suppression marker.  A scan is
followed once, for the comment that it passes over.
-/

namespace HackLexer

/-- A text ends with a closer that occurs in it nowhere else. -/
structure Text.EndsAtFirst (text closer : Text) : Prop where
  ends : closer <:+ text
  first : ∀ earlier later, text = earlier ++ closer ++ later → later = []

def Text.EndsWithMarker (opener name : String) (text : Text) : Prop :=
  ∃ earlier marker, text = earlier ++ marker ∧ marker ∈ Grammar.marker opener name

/-- What a line comment looks like, given the text in front of it and that behind it. -/
structure IsLineComment (front content behind : Text) : Prop where
  opens : "//".toList <+: content ∨ "#".toList <+: content ∨
    front.EndsWithMarker "//" "UNSAFE_EXPR"
  oneLine : ∀ line later, content = line ++ '\n' :: later → later = []
  ends : content.getLast? = some '\n' ∨ behind = []

/-- What a block comment looks like, given the text in front of it. -/
inductive IsBlockComment (front : Text) : Text → Prop where
  | whole {inside : Text} (closed : inside.EndsAtFirst "*/".toList) :
      IsBlockComment front ("/*".toList ++ inside)
  | marked {content : Text} (marked : front.EndsWithMarker "/*" "HH_FIXME")
      (closed : content.EndsAtFirst "*/".toList) : IsBlockComment front content

/-- A comment is a part of the text and looks like a comment there. -/
def Comment.HarvestedFrom (text : Text) (comment : Comment) : Prop :=
  ∃ front behind, text = front ++ comment.span.text ++ behind ∧
    comment.span.start = Text.byteLength front ∧
    match comment.kind with
    | .line => IsLineComment front comment.span.text behind
    | .block => IsBlockComment front comment.span.text

namespace Text

theorem EndsAtFirst.refl (closer : Text) : closer.EndsAtFirst closer where
  ends := List.suffix_refl closer
  first := by
    intro earlier later whole
    have lengths := congrArg List.length whole
    simp only [List.length_append] at lengths
    exact List.eq_nil_of_length_eq_zero (by omega)

theorem EndsAtFirst.cons {closer text : Text} {first : Char} (closed : text.EndsAtFirst closer)
    (later : ¬ closer <+: first :: text) : EndsAtFirst (first :: text) closer where
  ends := List.suffix_cons_iff.mpr (.inr closed.ends)
  first := by
    intro earlier behind whole
    cases earlier with
    | nil => exact absurd ⟨behind, whole.symm⟩ later
    | cons character earlier => exact closed.first earlier behind (List.cons.inj whole).2

theorem endsAtFirst_of_isPrefixOf {closer text : Text} (starts : closer.isPrefixOf text = true) :
    EndsAtFirst (text.take closer.length) closer := by
  rw [← List.prefix_iff_eq_take.mp (List.isPrefixOf_iff_prefix.mp starts)]
  exact .refl closer

theorem endsAtFirst_of_findFrom {closer text : Text} {index count : Nat}
    (search : findFrom closer index text = some (index + count)) :
    EndsAtFirst (text.take (count + closer.length)) closer := by
  induction text generalizing index count with
  | nil =>
      rw [findFrom] at search
      split at search
      · rename_i starts
        have atOnce : count = 0 := by simpa using search
        rw [atOnce, Nat.zero_add]
        exact endsAtFirst_of_isPrefixOf starts
      · cases search
  | cons first rest ih =>
      rw [findFrom] at search
      split at search
      · rename_i starts
        have atOnce : count = 0 := by simpa using search
        rw [atOnce, Nat.zero_add]
        exact endsAtFirst_of_isPrefixOf starts
      · rename_i starts
        obtain ⟨fewer, rfl⟩ : ∃ fewer, count = fewer + 1 :=
          Nat.exists_eq_add_of_le' (Nat.le_of_add_le_add_left (findFrom_some search).1)
        rw [Nat.add_right_comm, List.take_succ_cons]
        rw [Nat.add_comm fewer 1, ← Nat.add_assoc] at search
        apply (ih search).cons
        intro early
        apply starts
        exact List.isPrefixOf_iff_prefix.mpr
          (early.trans (List.cons_prefix_cons.mpr ⟨rfl, List.take_prefix _ _⟩))

theorem endsAtFirst_of_find? {closer text : Text} {count : Nat}
    (search : find? closer text = some count) :
    EndsAtFirst (text.take (count + closer.length)) closer := by
  apply @endsAtFirst_of_findFrom closer text 0
  rw [Nat.zero_add]
  exact search

end Text

/-- An opener on the first line stands in front of its line feed. -/
theorem prefix_take_line {opener text : Text} (starts : opener <+: text)
    (noFeed : '\n' ∉ opener) :
    opener <+: text.take (Text.countWhile (· != '\n') text + 1) := by
  refine List.prefix_take_iff.mpr ⟨starts, ?_⟩
  obtain ⟨behind, rfl⟩ := starts
  have passes : ∀ character ∈ opener, (character != '\n') = true := by
    intro character member
    simp only [bne_iff_ne, ne_eq]
    rintro rfl
    exact noFeed member
  unfold Text.countWhile
  rw [List.takeWhile_append_of_pos passes, List.length_append]
  omega

section

variable {text front : Text} {start : Cursor} (whole : text = front ++ start.rest)
  (offset : start.offset = Text.byteLength front)

include whole offset

theorem harvested_of_advance {kind : CommentKind} {count : Nat}
    (looks : match kind with
      | .line => IsLineComment front (start.rest.take count) (start.rest.drop count)
      | .block => IsBlockComment front (start.rest.take count)) :
    Comment.HarvestedFrom text { kind, span := start.spanTo (start.advance count) } := by
  refine ⟨front, start.rest.drop count, ?_, offset, ?_⟩
  · rw [Cursor.spanTo_advance, List.append_assoc, List.take_append_drop]
    exact whole
  · rw [Cursor.spanTo_advance]
    exact looks

/-- The rest of a line is a line comment, if it opens like one. -/
theorem lineComment_harvested
    (opens : "//".toList <+: start.rest ∨ "#".toList <+: start.rest ∨
      front.EndsWithMarker "//" "UNSAFE_EXPR") :
    (lineComment start).1.HarvestedFrom text := by
  have ends := lineComment_ends start
  unfold lineComment at ends
  dsimp only at ends
  rw [Cursor.spanTo_advance] at ends
  apply @harvested_of_advance text front start whole offset .line
  refine ⟨?_, ?_, ends⟩
  · rcases opens with slashes | hash | marked
    · exact .inl (prefix_take_line slashes (by decide))
    · exact .inr (.inl (prefix_take_line hash (by decide)))
    · exact .inr (.inr marked)
  · intro line later content
    rcases Text.findFrom_feed start.rest 0 with ⟨_, _, _, _, count, found⟩ | ⟨noFeed, _⟩
    · rw [count] at content
      have first := (Text.endsAtFirst_of_findFrom found).first line later
      exact first (by rw [List.append_assoc]; exact content)
    · have feed : '\n' ∈ line ++ '\n' :: later := List.mem_append_right line List.mem_cons_self
      rw [← content] at feed
      exact absurd (List.mem_of_mem_take feed) noFeed

/-- A block comment that has been closed looks like one, if it opens like one. -/
theorem blockComment_harvested {opening : Cursor} {skipped : Nat} {result : Comment × Cursor}
    (closed : blockComment opening start skipped = .ok result)
    (opens : skipped = 2 ∧ "/*".toList <+: start.rest ∨
      skipped = 0 ∧ front.EndsWithMarker "/*" "HH_FIXME") :
    result.1.HarvestedFrom text := by
  unfold blockComment at closed
  split at closed
  · rename_i count search
    cases closed
    have first := Text.endsAtFirst_of_find? search
    apply @harvested_of_advance text front start whole offset .block
    change IsBlockComment front (start.rest.take (skipped + count + 2))
    rcases opens with ⟨rfl, behind, rest⟩ | ⟨rfl, marked⟩
    · have taken : start.rest.take (2 + count + 2) = "/*".toList ++ behind.take (count + 2) := by
        rw [← rest, Nat.add_assoc]
        exact @List.take_length_add_append Char "/*".toList behind (count + 2)
      rw [← rest] at first
      rw [taken]
      exact .whole first
    · refine .marked marked ?_
      rw [Nat.zero_add]
      exact first
  · cases closed

end

section

variable {markup : Bool} {text : Text} {cursor : Cursor} {scanned : Scanned} {comment : Comment}

theorem marker?_ends {front : Text} {kind : TokenKind} {count : Nat}
    (marker : marker? cursor.rest = some (kind, count)) :
    kind = .unsafeExpr ∧ (front ++ cursor.rest.take count).EndsWithMarker "//" "UNSAFE_EXPR" ∨
    kind = .fixmeExpr ∧ (front ++ cursor.rest.take count).EndsWithMarker "/*" "HH_FIXME" := by
  have spelled := (marker?_mem marker).1
  rcases marker?_kind marker with rfl | rfl
  · exact .inl ⟨rfl, front, _, rfl, spelled⟩
  · exact .inr ⟨rfl, front, _, rfl, spelled⟩

/-- A comment that a scan passes over looks like a comment. -/
theorem scan_harvests (place : cursor.IsPlaceOf text) (success : scan markup cursor = .ok scanned)
    (passed : scanned.comment = some comment) : comment.HarvestedFrom text := by
  obtain ⟨front, whole, offset, _⟩ := place.exists_front
  have closedBlock {start : Cursor} {found : Found} {skipped : Nat}
      (closed : (blockComment cursor start skipped).map (.beforeComment found) = .ok scanned)
      (looks : ∀ result, blockComment cursor start skipped = .ok result →
        result.1.HarvestedFrom text) : comment.HarvestedFrom text := by
    cases block : blockComment cursor start skipped with
    | error error =>
        rw [block] at closed
        cases closed
    | ok result =>
        rw [block] at closed
        cases closed
        cases passed
        exact looks result block
  rcases scan_commented success passed with marker | commented
  · rw [markerAt_eq] at marker
    obtain ⟨⟨kind, count⟩, found, marker⟩ := Option.map_eq_some_iff.mp marker
    have behind : text = (front ++ cursor.rest.take count) ++ (cursor.advance count).rest := by
      rw [Cursor.rest_advance, List.append_assoc, List.take_append_drop]
      exact whole
    have there : (cursor.advance count).offset =
        Text.byteLength (front ++ cursor.rest.take count) := by
      rw [Text.byteLength_append, ← offset]
      rfl
    unfold markedAt at marker
    rcases @marker?_ends cursor front kind count found with ⟨rfl, marked⟩ | ⟨rfl, marked⟩
    · cases marker
      cases passed
      exact lineComment_harvested behind there (.inr (.inr marked))
    · exact closedBlock marker fun result closed =>
        blockComment_harvested behind there closed (.inr ⟨rfl, marked⟩)
  · simp only [commentAt] at commented
    split at commented
    · rename_i inside rest
      exact closedBlock (Option.some.inj commented) fun result closed =>
        blockComment_harvested whole offset closed (.inl ⟨rfl, inside, rest.symm⟩)
    · rename_i inside rest
      cases commented
      cases passed
      exact lineComment_harvested whole offset (.inl ⟨inside, rest.symm⟩)
    · rename_i inside rest
      cases commented
      cases passed
      exact lineComment_harvested whole offset (.inr (.inl ⟨inside, rest.symm⟩))
    · cases commented

end

end HackLexer
