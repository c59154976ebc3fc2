import HackLexer.Proofs.Bytes
import HackLexer.Proofs.LineIndex

/-!
# The lines of a text

A text is a number of lines that a line feed ends, and a last line without one.
The line index lists how many bytes stand in front of each of them, and the lines
that are cut out along it make up the text.

The main statement is `line_index_partitions`.
-/

namespace HackLexer

def Text.ended (lines : List Text) : Text :=
  lines.flatMap (· ++ ['\n'])

/-- A text is its only line, or a line and a line feed in front of further
lines. -/
@[elab_as_elim]
theorem Text.lineInduction {motive : Text → Prop}
    (last : ∀ text : Text, '\n' ∉ text → text.splitOn '\n' = [text] → motive text)
    (line : ∀ first rest : Text, '\n' ∉ first →
      (first ++ '\n' :: rest).splitOn '\n' = first :: rest.splitOn '\n' →
      motive rest → motive (first ++ '\n' :: rest))
    (text : Text) : motive text := by
  induction size : text.length using Nat.strongRecOn generalizing text with
  | ind count ih =>
      by_cases feed : '\n' ∈ text
      · obtain ⟨first, rest, rfl, noFeed⟩ := List.eq_append_cons_of_mem feed
        have shorter : rest.length < count := by
          rw [← size, List.length_append, List.length_cons]
          omega
        exact line first rest noFeed (List.splitOn_append_cons_self_of_not_mem noFeed rest)
          (ih _ shorter rest rfl)
      · exact last text feed (List.splitOn_eq_singleton feed)

namespace Text

theorem ended_cons (line : Text) (lines : List Text) :
    ended (line :: lines) = (line ++ ['\n']) ++ ended lines := by
  simp [ended]

theorem ended_append (front back : List Text) :
    ended (front ++ back) = ended front ++ ended back := by
  simp [ended]

/-- A text starts with the given lines, which line feeds end, and goes on as
given. -/
structure FrontLines (text : Text) (lines : List Text) (behind : Text) : Prop where
  whole : text = ended lines ++ behind
  unbroken : ∀ line ∈ lines, '\n' ∉ line

theorem exists_lines (text : Text) :
    ∃ lines last, text.FrontLines lines last ∧ '\n' ∉ last := by
  induction text using lineInduction with
  | last text noFeed => exact ⟨[], text, ⟨rfl, by simp⟩, noFeed⟩
  | line first rest noFeed _ ih =>
      obtain ⟨lines, last, front, lastLine⟩ := ih
      refine ⟨first :: lines, last, ⟨?_, ?_⟩, lastLine⟩
      · rw [ended_cons, front.whole]
        simp
      · intro line member
        rcases List.mem_cons.mp member with rfl | later
        · exact noFeed
        · exact front.unbroken line later

theorem lineFeeds_ended {lines : List Text} (unbroken : ∀ line ∈ lines, '\n' ∉ line) :
    lineFeeds (ended lines) = lines.length := by
  induction lines with
  | nil => rfl
  | cons line lines ih =>
      have noFeed : lineFeeds line = 0 :=
        List.count_eq_zero.mpr (unbroken line List.mem_cons_self)
      have later := ih fun other member => unbroken other (List.mem_cons_of_mem _ member)
      rw [ended_cons, lineFeeds_append, lineFeeds_append, noFeed, later, List.length_cons]
      simp [lineFeeds, Nat.add_comm]

namespace FrontLines

variable {text behind : Text} {lines : List Text}

theorem take (front : text.FrontLines lines behind) (count : Nat) :
    text.FrontLines (lines.take count) (ended (lines.drop count) ++ behind) where
  whole := by
    rw [front.whole, ← List.append_assoc, ← ended_append, List.take_append_drop]
  unbroken line member := front.unbroken line (List.mem_of_mem_take member)

theorem snoc {line : Text} (front : text.FrontLines lines (line ++ '\n' :: behind))
    (noFeed : '\n' ∉ line) : text.FrontLines (lines ++ [line]) behind where
  whole := by
    rw [front.whole, ended_append, ended_cons]
    simp [ended]
  unbroken other member := by
    rcases List.mem_append.mp member with earlier | last
    · exact front.unbroken other earlier
    · exact List.mem_singleton.mp last ▸ noFeed

theorem lineFeeds_eq (front : text.FrontLines lines behind) (noFeed : '\n' ∉ behind) :
    lineFeeds text = lines.length := by
  have none : lineFeeds behind = 0 := List.count_eq_zero.mpr noFeed
  rw [front.whole, lineFeeds_append, lineFeeds_ended front.unbroken, none, Nat.add_zero]

end FrontLines

/-- The part of a text between what stands in front of it and what follows. -/
theorem slice_append (front inside behind : Text) :
    slice (front ++ (inside ++ behind)) (byteLength front)
      (byteLength front + byteLength inside) = inside := by
  rw [slice, dropBytes_append, Nat.add_sub_cancel_left, takeBytes_append]

end Text

theorem pairwise_lineStartsFrom (offset : Nat) (text : Text) :
    (lineStartsFrom offset text).Pairwise (· < ·) := by
  induction text generalizing offset with
  | nil => exact .nil
  | cons character rest ih =>
      rw [lineStartsFrom]
      split
      · exact .cons (fun _ => lt_of_mem_lineStartsFrom) (ih _)
      · exact ih _

/-- The first line of a text ends where the next one starts. -/
theorem lineStartsFrom_line (offset : Nat) {line : Text} (rest : Text) (noFeed : '\n' ∉ line) :
    lineStartsFrom offset (line ++ '\n' :: rest) =
      (offset + Text.byteLength (line ++ ['\n'])) ::
        lineStartsFrom (offset + Text.byteLength (line ++ ['\n'])) rest := by
  induction line generalizing offset with
  | nil => simp [lineStartsFrom]
  | cons character line ih =>
      obtain ⟨other, noFeed⟩ := not_or.mp (mt List.mem_cons.mpr noFeed)
      rw [List.cons_append, lineStartsFrom, if_neg (Ne.symm other), ih _ noFeed]
      simp [Nat.add_assoc]

theorem getElem?_lineStartsFrom (offset : Nat) {lines : List Text} (behind : Text)
    (unbroken : ∀ line ∈ lines, '\n' ∉ line) :
    (offset :: lineStartsFrom offset (Text.ended lines ++ behind))[lines.length]? =
      some (offset + Text.byteLength (Text.ended lines)) := by
  induction lines generalizing offset with
  | nil => rfl
  | cons line lines ih =>
      have later := ih (offset + Text.byteLength (line ++ ['\n']))
        fun other member => unbroken other (List.mem_cons_of_mem _ member)
      have text : Text.ended (line :: lines) ++ behind =
          line ++ '\n' :: (Text.ended lines ++ behind) := by
        simp [Text.ended_cons]
      rw [List.length_cons, List.getElem?_cons_succ, text,
        lineStartsFrom_line offset _ (unbroken line List.mem_cons_self), later,
        Text.ended_cons, Text.byteLength_append (line ++ ['\n']), Nat.add_assoc]

namespace Source

variable {source : Source} {before : List Text} {behind : Text}

theorem lineStart?_of_lines (front : source.content.FrontLines before behind) :
    source.lineStart? (before.length + 1) = some (Text.byteLength (Text.ended before)) := by
  have start := getElem?_lineStartsFrom 0 behind front.unbroken
  rw [← front.whole, Nat.zero_add] at start
  exact start

theorem pairwise_lineStarts (source : Source) : source.lineStarts.Pairwise (· < ·) :=
  .cons (fun _ => lt_of_mem_lineStartsFrom) (pairwise_lineStartsFrom 0 source.content)

theorem lineStart?_isSome_iff (source : Source) (number : Nat) :
    (source.lineStart? number).isSome ↔ 1 ≤ number ∧ number ≤ source.lineCount := by
  cases number with
  | zero => simp [lineStart?]
  | succ number =>
      simp only [lineStart?, isSome_getElem?, lineCount]
      omega

theorem line?_isSome (source : Source) (number : Nat) :
    (source.line? number).isSome = (source.lineStart? number).isSome := by
  unfold line?
  split
  · rename_i missing
    rw [missing]
    rfl
  · rename_i found
    rw [found]
    rfl

theorem line?_of_line {line : Text}
    (front : source.content.FrontLines before (line ++ '\n' :: behind)) (noFeed : '\n' ∉ line) :
    source.line? (before.length + 1) = some (line ++ ['\n']) := by
  have next := lineStart?_of_lines (front.snoc noFeed)
  rw [List.length_append, List.length_singleton] at next
  have part := Text.slice_append (Text.ended before) (line ++ ['\n']) behind
  rw [List.append_assoc, List.singleton_append, ← front.whole] at part
  have stop : Text.byteLength (Text.ended (before ++ [line])) =
      Text.byteLength (Text.ended before) + Text.byteLength (line ++ ['\n']) := by
    simp [Text.ended]
  simp only [line?, lineStart?_of_lines front, next, Option.getD_some, stop, part]

theorem line?_of_last (front : source.content.FrontLines before behind)
    (noFeed : '\n' ∉ behind) : source.line? (before.length + 1) = some behind := by
  have next : source.lineStart? (before.length + 1 + 1) = none := by
    rw [← Option.not_isSome_iff_eq_none, lineStart?_isSome_iff, lineCount_eq,
      front.lineFeeds_eq noFeed]
    omega
  have part := Text.slice_append (Text.ended before) behind []
  rw [List.append_nil, ← front.whole] at part
  have stop : Text.byteLength source.content =
      Text.byteLength (Text.ended before) + Text.byteLength behind := by
    rw [front.whole, Text.byteLength_append]
  simp only [line?, lineStart?_of_lines front, next, Option.getD_none, stop, part]

theorem line?_eq_getElem? {lines : List Text} {last : Text}
    (front : source.content.FrontLines lines last) (noFeed : '\n' ∉ last) (index : Nat) :
    source.line? (index + 1) = (lines.map (· ++ ['\n']) ++ [last])[index]? := by
  rcases Nat.lt_trichotomy index lines.length with inside | atEnd | beyond
  · have taken := front.take index
    have size : (lines.take index).length = index := List.length_take_of_le (Nat.le_of_lt inside)
    rw [List.drop_eq_getElem_cons inside, Text.ended_cons, List.append_assoc, List.append_assoc]
      at taken
    have line := line?_of_line taken (front.unbroken _ (List.getElem_mem inside))
    rw [size] at line
    rw [line, List.getElem?_append_left (by simpa using inside)]
    simp [inside]
  · rw [atEnd, line?_of_last front noFeed]
    simp
  · have missing : source.line? (index + 1) = none := by
      rw [← Option.not_isSome_iff_eq_none, line?_isSome, lineStart?_isSome_iff, lineCount_eq,
        front.lineFeeds_eq noFeed]
      omega
    rw [missing, List.getElem?_eq_none]
    rw [List.length_append, List.length_map, List.length_singleton]
    omega

end Source

theorem map_range_getD (lines : List Text) :
    (List.range lines.length).map (fun index => lines[index]?.getD []) = lines := by
  apply List.ext_getElem
  · simp
  · intro index _ inside
    simp [inside]

/-- The only byte of a line feed is found in no other character. -/
theorem Text.count_bytes_feed (text : Text) : (bytes text).count 10 = lineFeeds text := by
  induction text with
  | nil => rfl
  | cons character rest ih =>
      rw [bytes_cons, List.count_append, ih, lineFeeds, lineFeeds, List.count_cons, Nat.add_comm]
      congr 1
      by_cases feed : character = '\n'
      · subst feed
        rfl
      · rw [if_neg (by simpa using feed), List.count_eq_zero]
        intro member
        obtain ⟨_, code⟩ := eq_of_mem_utf8EncodeChar member (by decide)
        exact feed (Char.toNat_inj.mp code)

/-- The line index starts with zero, increases, and has one entry more than the
text has bytes of line feeds.  Exactly the numbers from one on up to its length
have a line, and these lines make up the text; all but the last one end with
their only line feed, and the last one has none. -/
theorem line_index_partitions (source : Source) :
    source.lineStarts.Pairwise (· < ·) ∧ source.lineStarts.head? = some 0 ∧
    source.lineStarts.length = (Text.bytes source.content).count 10 + 1 ∧
    source.lineCount ≤ Text.byteLength source.content + 1 ∧
    (∀ number, (source.line? number).isSome ↔ 1 ≤ number ∧ number ≤ source.lineCount) ∧
    ((List.range source.lineCount).flatMap fun index => (source.line? (index + 1)).getD []) =
      source.content ∧
    (∀ number line, number < source.lineCount → source.line? number = some line →
      ∃ inside, line = inside ++ ['\n'] ∧ '\n' ∉ inside) ∧
    ∃ last, source.line? source.lineCount = some last ∧ '\n' ∉ last := by
  obtain ⟨lines, last, front, noFeed⟩ := source.content.exists_lines
  have count : source.lineCount = lines.length + 1 := by
    rw [Source.lineCount_eq, front.lineFeeds_eq noFeed]
  have table := Source.line?_eq_getElem? front noFeed
  refine ⟨source.pairwise_lineStarts, rfl, ?_, ?_, ?_, ?_, ?_, last, ?_, noFeed⟩
  · rw [Text.count_bytes_feed]
    exact source.lineCount_eq
  · rw [source.lineCount_eq, ← Text.count_bytes_feed, ← Text.length_bytes]
    exact Nat.succ_le_succ List.count_le_length
  · intro number
    rw [Source.line?_isSome, Source.lineStart?_isSome_iff]
  · have size : lines.length + 1 = (lines.map (· ++ ['\n']) ++ [last]).length := by simp
    simp only [table]
    rw [count, size, List.flatMap_def, map_range_getD, front.whole]
    simp [Text.ended, List.flatMap_def]
  · intro number line before found
    have some := (source.lineStart?_isSome_iff number).mp
      (by rw [← Source.line?_isSome, found]; rfl)
    obtain ⟨index, rfl⟩ := Nat.exists_eq_add_of_le' some.1
    have inside : index < lines.length := by omega
    rw [table, List.getElem?_append_left (by simpa using inside), List.getElem?_map,
      List.getElem?_eq_getElem inside] at found
    exact ⟨lines[index], (Option.some.inj found).symm, front.unbroken _ (List.getElem_mem inside)⟩
  · rw [count]
    exact Source.line?_of_last front noFeed

/-- An empty line behind a line that a carriage return and a line feed end, and a
last line without an end. -/
theorem empty_line_indexed :
    let source : Source := { path := "a.hack", content := "a\r\n\nb".toList }
    source.lineStarts = [0, 3, 4] ∧ source.line? 2 = some ['\n'] ∧ source.line? 4 = none ∧
      (∃ inside, ['\n'] = inside ++ ['\n'] ∧ '\n' ∉ inside) ∧
      (∃ last, source.line? source.lineCount = some last ∧ '\n' ∉ last) ∧
      ((List.range 3).flatMap fun index => (source.line? (index + 1)).getD []) =
        source.content := by
  intro source
  obtain ⟨_, _, _, _, _, whole, ended, last⟩ := line_index_partitions source
  have second : source.line? 2 = some ['\n'] := by decide
  exact ⟨by decide, second, by decide, ended 2 _ (by decide) second, last, whole⟩

end HackLexer
