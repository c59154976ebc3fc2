import HackLexer.Proofs.Concatenation
import HackLexer.Proofs.HandedOut
import HackLexer.Proofs.LayoutGaps.Separators

/-!
# Layout and comments between tokens

A gap between tokens is filled with layout characters and whole comments.  The lexer
passes over all of it, wherever it is outside of the bodies of literals, and records
the comments.
-/

namespace HackLexer

/-- A comment from its opener to its end, without a suppression marker. -/
inductive WholeComment : CommentKind → Text → Prop where
  | line {opener body : Text} (opens : opener = "//".toList ∨ opener = "#".toList)
      (inLine : '\n' ∉ body) (unmarked : marker? (opener ++ body ++ "\n".toList) = none) :
      WholeComment .line (opener ++ body ++ "\n".toList)
  | block {body : Text} (inside : ¬ "*/".toList <:+: body ++ ['*'])
      (unmarked : marker? ("/*".toList ++ body ++ "*/".toList) = none) :
      WholeComment .block ("/*".toList ++ body ++ "*/".toList)

/-- A text of layout and whole comments that starts at an offset, with its comments. -/
inductive Fills : Nat → Text → List Comment → Prop where
  | nothing (offset : Nat) : Fills offset [] []
  | layout {offset : Nat} {first : Char} {behind : Text} {comments : List Comment}
      (layout : isLayout first) (more : Fills (offset + first.utf8Size) behind comments) :
      Fills offset (first :: behind) comments
  | comment {offset : Nat} {kind : CommentKind} {text behind : Text} {comments : List Comment}
      (whole : WholeComment kind text)
      (more : Fills (offset + Text.byteLength text) behind comments) :
      Fills offset (text ++ behind) ({ kind, span := ⟨offset, text⟩ } :: comments)

theorem Fills.of_layouts (offset : Nat) {layouts : Text}
    (layout : ∀ character, character ∈ layouts → isLayout character) : Fills offset layouts [] := by
  induction layouts generalizing offset with
  | nil => exact .nothing offset
  | cons first more ih =>
      exact .layout (layout first List.mem_cons_self)
        (ih _ fun character member => layout character (List.mem_cons_of_mem _ member))

/-- A text with layout between two parts of it, and what stands between them instead. -/
structure LayoutGap where
  front : Text
  old : Text
  new : Text
  back : Text
  /-- The comments of the new text. -/
  comments : List Comment
  nonempty : old ≠ []
  layout : ∀ character, character ∈ old → isLayout character
  separates : new.Separates
  fills : Fills (Text.byteLength front) new comments

namespace LayoutGap

def original (gap : LayoutGap) : Text :=
  gap.front ++ gap.old ++ gap.back

def changed (gap : LayoutGap) : Text :=
  gap.front ++ gap.new ++ gap.back

/-- The offset at which the gap starts. -/
def start (gap : LayoutGap) : Nat :=
  Text.byteLength gap.front

/-- The offset at which the gap ends in the original text. -/
def stop (gap : LayoutGap) : Nat :=
  Text.byteLength gap.front + Text.byteLength gap.old

theorem start_lt_stop (gap : LayoutGap) : gap.start < gap.stop := by
  have positive := List.length_pos_iff.mpr gap.nonempty
  have bytes := Text.length_le_byteLength gap.old
  unfold start stop
  omega

end LayoutGap

/-- A marker does not go over a character that it cannot contain. -/
theorem markerAfter?_append_of_notMem {marker : Text} {first : Char}
    (absent : first ∉ marker) (solid : isBlank first = false) (text behind : Text) :
    markerAfter? marker (text ++ first :: behind) = markerAfter? marker text := by
  have counted := Text.countWhile_append isBlank text (first :: behind)
  rw [Text.countWhile_cons, solid] at counted
  have blanks : Text.countWhile isBlank (text ++ first :: behind) = Text.countWhile isBlank text := by
    rw [counted]
    split
    · rename_i whole
      exact whole.symm
    · rfl
  simp only [markerAfter?, blanks,
    List.drop_append_of_le_length (Text.countWhile_le isBlank text),
    isPrefixOf_append_of_notMem absent]

/-- What follows a whole comment makes no marker of it. -/
theorem WholeComment.marker?_append {kind : CommentKind} {text : Text}
    (whole : WholeComment kind text) (behind : Text) : marker? (text ++ behind) = none := by
  cases whole with
  | @line opener body opens inLine unmarked =>
      rcases opens with rfl | rfl
      · have same (more : Text) := @markerAfter?_append_of_notMem "UNSAFE_EXPR".toList '\n'
          (by decide) (by decide) body more
        have split (more : Text) : "//".toList ++ body ++ "\n".toList ++ more =
            '/' :: '/' :: (body ++ '\n' :: more) := by simp
        rw [← List.append_nil (_ ++ "\n".toList), split, marker?, same] at unmarked
        rw [split, marker?, same, unmarked]
      · simp [marker?]
  | @block body inside unmarked =>
      have same (more : Text) := @markerAfter?_append_of_notMem "HH_FIXME".toList '*'
        (by decide) (by decide) body more
      have split (more : Text) : "/*".toList ++ body ++ "*/".toList ++ more =
          '/' :: '*' :: (body ++ '*' :: '/' :: more) := by simp
      rw [← List.append_nil (_ ++ "*/".toList), split, marker?, same] at unmarked
      rw [split, marker?, same, unmarked]

theorem WholeComment.ne_nil {kind : CommentKind} {text : Text} (whole : WholeComment kind text) :
    text ≠ [] := by
  cases whole <;> simp

/-- The first end of a block comment is the one behind its body. -/
theorem findFrom_closer {body : Text} (inside : ¬ "*/".toList <:+: body ++ ['*']) (index : Nat)
    (behind : Text) :
    Text.findFrom "*/".toList index (body ++ '*' :: '/' :: behind) = some (index + body.length) := by
  induction body generalizing index with
  | nil => simp [Text.findFrom]
  | cons first rest ih =>
      have later : ¬ "*/".toList <:+: rest ++ ['*'] := fun found =>
        inside (found.trans (List.suffix_cons first _).isInfix)
      have elsewhere : "*/".toList.isPrefixOf (first :: rest ++ '*' :: '/' :: behind) = false := by
        rw [← Bool.not_eq_true, List.isPrefixOf_iff_prefix]
        intro starts
        apply inside
        have front : "*/".toList <+: first :: rest ++ ['*'] := by
          apply List.prefix_of_prefix_length_le starts
          · exact ⟨'/' :: behind, by simp⟩
          · simp
        exact front.isInfix
      rw [List.cons_append] at elsewhere ⊢
      rw [Text.findFrom, elsewhere, ih later]
      simp
      omega

section Scanning

variable {cursor : Cursor} {markup : Bool}

theorem lineComment_eq {line behind : Text} (rest : cursor.rest = line ++ '\n' :: behind)
    (inLine : '\n' ∉ line) :
    lineComment cursor =
      ({ kind := .line, span := ⟨cursor.offset, line ++ ['\n']⟩ },
        cursor.advance (line ++ ['\n']).length) := by
  have counted : Text.countWhile (· != '\n') cursor.rest = line.length := by
    rw [rest, Text.countWhile_append, if_pos (Text.countWhile_of_noFeed inLine),
      Text.countWhile_cons]
    rfl
  have taken : cursor.rest.take (line.length + 1) = line ++ ['\n'] := by
    rw [rest, List.take_length_add_append]
    rfl
  unfold lineComment
  dsimp only
  rw [counted, Cursor.spanTo_advance, taken, List.length_append]
  rfl

theorem blockComment_eq {body behind : Text} (inside : ¬ "*/".toList <:+: body ++ ['*'])
    (rest : cursor.rest = "/*".toList ++ body ++ "*/".toList ++ behind) :
    blockComment cursor cursor 2 =
      .ok ({ kind := .block, span := ⟨cursor.offset, "/*".toList ++ body ++ "*/".toList⟩ },
        cursor.advance ("/*".toList ++ body ++ "*/".toList).length) := by
  have found : Text.find? "*/".toList (cursor.rest.drop 2) = some body.length := by
    have split : cursor.rest.drop 2 = body ++ '*' :: '/' :: behind := by
      rw [rest]
      simp
    rw [split, Text.find?, findFrom_closer inside, Nat.zero_add]
  have length : ("/*".toList ++ body ++ "*/".toList).length = 2 + body.length + 2 := by
    simp
    omega
  have taken : cursor.rest.take (2 + body.length + 2) = "/*".toList ++ body ++ "*/".toList := by
    rw [← length, rest, List.take_left]
  unfold blockComment
  rw [found]
  dsimp only
  rw [Cursor.spanTo_advance, taken, length]

theorem scan_wholeComment {kind : CommentKind} {text behind : Text}
    (whole : WholeComment kind text) (rest : cursor.rest = text ++ behind) :
    scan markup cursor =
      .ok
        { found := .layout
          after := cursor.advance text.length
          comment := some { kind, span := ⟨cursor.offset, text⟩ } } := by
  have unmarked : markerAt cursor = none := by
    rw [markerAt_eq, rest, whole.marker?_append]
    rfl
  unfold scan recognise
  rw [unmarked]
  cases whole with
  | @line opener body opens inLine _ =>
      have split : cursor.rest = opener ++ body ++ '\n' :: behind := by
        rw [rest]
        simp
      have noFeed : '\n' ∉ opener ++ body := by
        rcases opens with rfl | rfl
        · simpa using inLine
        · simpa using inLine
      have comment := lineComment_eq split noFeed
      rcases opens with rfl | rfl
      · have front : cursor.rest = '/' :: '/' :: (body ++ '\n' :: behind) := split
        rw [ModeStack.Machine.layoutAt_none front (by decide) (by decide), commentAt_slash front,
          if_neg (by decide), if_pos rfl, comment]
        rfl
      · have front : cursor.rest = '#' :: (body ++ '\n' :: behind) := split
        rw [ModeStack.Machine.layoutAt_none front (by decide) (by decide), commentAt_hash front,
          comment]
        rfl
  | @block body inside _ =>
      have front : cursor.rest = '/' :: '*' :: (body ++ "*/".toList ++ behind) := rest
      have comment := blockComment_eq inside rest
      rw [ModeStack.Machine.layoutAt_none front (by decide) (by decide), commentAt_slash front,
        if_pos rfl, comment]
      rfl

theorem scan_blank {first : Char} {behind : Text} (rest : cursor.rest = first :: behind)
    (blank : isBlank first) :
    scan markup cursor =
      .ok
        { found := .layout
          after := cursor.advance (Text.countWhile isBlank behind + 1)
          comment := none } := by
  have noFeed : first ≠ '\n' := by
    rintro rfl
    cases blank
  have counted : Text.countWhile isBlank cursor.rest = Text.countWhile isBlank behind + 1 := by
    rw [rest, Text.countWhile_cons, if_pos blank]
  unfold scan recognise
  rw [layoutAt_of_ne rest noFeed, blanks?, counted, if_neg (Nat.succ_ne_zero _)]
  rfl

end Scanning

namespace Lexer

section

variable {lexer : Lexer} (ready : lexer.ready = []) (literal : lexer.literal = none)

include ready literal

theorem drain_of_scanned {scanned : Scanned} (remaining : lexer.cursor.rest ≠ [])
    (success : scan lexer.interpolations.isEmpty lexer.cursor = .ok scanned)
    (found : scanned.found = .layout) : lexer.drain = (lexer.passing scanned).drain := by
  apply drain_of_moved
  rw [step_of_scanned ready literal remaining success, found]

/-- Layout may be passed over one character after the other. -/
theorem drain_of_layout {first : Char} {behind : Text} (rest : lexer.cursor.rest = first :: behind)
    (layout : isLayout first) :
    lexer.drain = { lexer with cursor := lexer.cursor.advance 1 }.drain := by
  have remaining : lexer.cursor.rest ≠ [] := by
    rw [rest]
    exact List.cons_ne_nil _ _
  have cases : isBlank first ∨ first = '\n' := by simpa [isLayout] using layout
  rcases cases with blank | rfl
  · -- A scan takes all blanks at once.  Behind the first of them it takes the others.
    rw [drain_of_scanned ready literal remaining (scan_blank rest blank) rfl]
    cases behind with
    | nil => rfl
    | cons second further =>
        cases more : isBlank second with
        | false =>
            rw [Text.countWhile_cons, more]
            rfl
        | true =>
            have next : { lexer with cursor := lexer.cursor.advance 1 }.cursor.rest =
                second :: further := by simp [rest]
            rw [@drain_of_scanned { lexer with cursor := lexer.cursor.advance 1 } ready literal _
              (by rw [next]; exact List.cons_ne_nil _ _) (scan_blank next more) rfl]
            simp only [Lexer.passing, Scanned.commentsBehind, Cursor.advance_advance,
              Text.countWhile_cons, more, if_true]
            rw [Nat.add_comm 1]
  · exact drain_of_scanned ready literal remaining (scan_feed rest) rfl

end

/-- Layout and whole comments are passed over, and the comments are recorded. -/
theorem drain_of_fills {lexer : Lexer} {text behind : Text} {comments : List Comment}
    (ready : lexer.ready = []) (literal : lexer.literal = none)
    (rest : lexer.cursor.rest = text ++ behind)
    (fills : Fills lexer.cursor.offset text comments) :
    lexer.drain =
      { lexer with
        cursor := lexer.cursor.advance text.length
        comments := lexer.comments ++ comments.toArray }.drain := by
  generalize here : lexer.cursor.offset = offset at fills
  induction fills generalizing lexer with
  | nothing => simp
  | @layout offset first more comments layout _ ih =>
      have next : { lexer with cursor := lexer.cursor.advance 1 }.cursor.rest = more ++ behind := by
        simp [rest]
      have moved : { lexer with cursor := lexer.cursor.advance 1 }.cursor.offset =
          offset + first.utf8Size := by
        simp [Cursor.advance, rest, here]
      rw [drain_of_layout ready literal rest layout,
        @ih { lexer with cursor := lexer.cursor.advance 1 } ready literal next moved]
      simp only [Cursor.advance_advance, List.length_cons, Nat.add_comm 1]
  | @comment offset kind text more comments whole _ ih =>
      have split : lexer.cursor.rest = text ++ (more ++ behind) := by
        rw [rest, List.append_assoc]
      have remaining : lexer.cursor.rest ≠ [] := by
        rw [split]
        exact List.append_ne_nil_of_left_ne_nil whole.ne_nil _
      let comment : Comment := { kind, span := ⟨lexer.cursor.offset, text⟩ }
      let next : Lexer :=
        { lexer with
          cursor := lexer.cursor.advance text.length
          comments := lexer.comments.push comment }
      have passes : lexer.drain = next.drain :=
        drain_of_scanned ready literal remaining (scan_wholeComment whole split) rfl
      have behindComment : next.cursor.rest = more ++ behind := by
        simp [next, split]
      have moved : next.cursor.offset = offset + Text.byteLength text := by
        simp [next, Cursor.advance, split, here]
      rw [passes, @ih next ready literal behindComment moved]
      simp only [next, comment, here, Cursor.advance_advance, List.length_append]
      simp

theorem drain_of_layouts {lexer : Lexer} {layouts behind : Text} (ready : lexer.ready = [])
    (literal : lexer.literal = none) (rest : lexer.cursor.rest = layouts ++ behind)
    (layout : ∀ character, character ∈ layouts → isLayout character) :
    lexer.drain = { lexer with cursor := lexer.cursor.advance layouts.length }.drain := by
  have passes := drain_of_fills ready literal rest (.of_layouts _ layout)
  rwa [Array.append_empty] at passes

end Lexer

end HackLexer
