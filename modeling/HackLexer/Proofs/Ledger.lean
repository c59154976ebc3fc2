import HackLexer.Proofs.Bytes
import HackLexer.Proofs.ScanOutcomes

/-!
# Ledgers of a text

A ledger lists tokens and comments that account for all bytes of a text in
front of a limit: the tokens are in order and do not overlap, a comment lies
between tokens or inside a token that may enclose comments, and the bytes
outside of both are layout.

Accounting is kept by four moves: passing over layout, adding a token or a
comment at the limit, and joining the last tokens into one that reaches at
least up to the limit.
-/

namespace HackLexer

namespace Span

/-- The span ends where the other one starts, or earlier. -/
def Before (earlier later : Span) : Prop :=
  earlier.stop ≤ later.start

/-- The span is a part of the other one. -/
def Within (inner outer : Span) : Prop :=
  outer.start ≤ inner.start ∧ inner.stop ≤ outer.stop

/-- The byte at an offset belongs to the span. -/
def Covers (span : Span) (offset : Nat) : Prop :=
  span.start ≤ offset ∧ offset < span.stop

theorem start_le_stop (span : Span) : span.start ≤ span.stop :=
  Nat.le_add_right _ _

end Span

/-- Tokens of these kinds may have comments inside: their characters are joined
from what the lexer passes over or reads as tokens. -/
def TokenKind.enclosesComments : TokenKind → Bool
  | .doubleQuotedString => true
  | .heredoc => true
  | .xhpClosing => true
  | .xhpComment => true
  | _ => false

theorem TokenKind.mem_of_enclosesComments {kind : TokenKind}
    (encloses : kind.enclosesComments = true) :
    kind ∈ [.doubleQuotedString, .heredoc, .xhpClosing, .xhpComment] := by
  unfold enclosesComments at encloses
  split at encloses
  · exact List.mem_cons_self
  · simp
  · simp
  · simp
  · cases encloses

/-- Space, tab, carriage return, form feed and line feed as bytes. -/
def layoutBytes : List UInt8 :=
  [0x20, 0x09, 0x0d, 0x0c, 0x0a]

/-- The tokens and comments account for the bytes in front of a limit. -/
structure Accounted (text : Text) (limit : Nat) (tokens : List Token)
    (comments : List Comment) : Prop where
  nonempty : ∀ token, token ∈ tokens → token.span.start < token.span.stop
  ordered : tokens.Pairwise fun earlier later => earlier.span.Before later.span
  bounded : ∀ token, token ∈ tokens → token.span.stop ≤ limit
  /-- A comment without characters stands at the end of the text. -/
  filled : ∀ comment, comment ∈ comments →
    comment.span.start < comment.span.stop ∨
      comment.span.stop = Text.byteLength text
  inOrder : comments.Pairwise fun earlier later =>
    earlier.span.start < later.span.start ∧ earlier.span.Before later.span
  behind : ∀ comment, comment ∈ comments → comment.span.stop ≤ limit
  separate : ∀ comment, comment ∈ comments →
    (∀ token, token ∈ tokens →
      comment.span.Before token.span ∨ token.span.Before comment.span) ∨
    ∃ token, token ∈ tokens ∧ comment.span.Within token.span ∧
      token.kind.enclosesComments = true
  gaps : ∀ offset byte, offset < limit → (Text.bytes text)[offset]? = some byte →
    (∀ token, token ∈ tokens → ¬ token.span.Covers offset) →
    (∀ comment, comment ∈ comments → ¬ comment.span.Covers offset) →
    byte ∈ layoutBytes

namespace Accounted

theorem nil (text : Text) : Accounted text 0 [] [] where
  nonempty := by simp
  ordered := .nil
  bounded := by simp
  filled := by simp
  inOrder := .nil
  behind := by simp
  separate := by simp
  gaps := by
    intro offset byte below
    omega

theorem pass {text : Text} {limit further : Nat} {tokens : List Token}
    {comments : List Comment} (accounted : Accounted text limit tokens comments)
    (later : limit ≤ further)
    (layout : ∀ offset byte, limit ≤ offset → offset < further →
      (Text.bytes text)[offset]? = some byte → byte ∈ layoutBytes) :
    Accounted text further tokens comments := by
  refine { accounted with bounded := ?_, behind := ?_, gaps := ?_ }
  · intro token member
    exact Nat.le_trans (accounted.bounded token member) later
  · intro comment member
    exact Nat.le_trans (accounted.behind comment member) later
  · intro offset byte below found outside between
    by_cases old : offset < limit
    · exact accounted.gaps offset byte old found outside between
    · exact layout offset byte (Nat.le_of_not_lt old) below found

theorem addToken {text : Text} {limit further : Nat} {tokens : List Token}
    {comments : List Comment} {token : Token}
    (accounted : Accounted text limit tokens comments)
    (start : token.span.start = limit) (stop : token.span.stop = further)
    (filled : limit < further) :
    Accounted text further (tokens ++ [token]) comments where
  nonempty := by
    intro each member
    rcases List.mem_append.mp member with old | new
    · exact accounted.nonempty each old
    · rw [List.mem_singleton.mp new, start, stop]
      exact filled
  ordered := by
    rw [List.pairwise_append]
    refine ⟨accounted.ordered, List.pairwise_singleton _ _, ?_⟩
    intro earlier old later new
    have bound := accounted.bounded earlier old
    rw [List.mem_singleton.mp new, Span.Before, start]
    exact bound
  bounded := by
    intro each member
    rcases List.mem_append.mp member with old | new
    · have bound := accounted.bounded each old
      omega
    · rw [List.mem_singleton.mp new]
      exact Nat.le_of_eq stop
  filled := accounted.filled
  inOrder := accounted.inOrder
  behind := by
    intro comment member
    have bound := accounted.behind comment member
    omega
  separate := by
    intro comment member
    have bound := accounted.behind comment member
    rcases accounted.separate comment member with apart | ⟨outer, old, within⟩
    · left
      intro each eachMember
      rcases List.mem_append.mp eachMember with old | new
      · exact apart each old
      · left
        rw [List.mem_singleton.mp new, Span.Before, start]
        exact bound
    · right
      exact ⟨outer, List.mem_append_left _ old, within⟩
  gaps := by
    intro offset byte below found outside between
    apply accounted.gaps offset byte _ found _ between
    · have notNew := outside token (by simp)
      unfold Span.Covers at notNew
      omega
    · intro each old
      exact outside each (List.mem_append_left _ old)

/-- Earlier comments start before anything that is added at a place in front of
the end of the text. -/
theorem start_lt_limit {text : Text} {limit : Nat} {tokens : List Token}
    {comments : List Comment} (accounted : Accounted text limit tokens comments)
    (inside : limit < Text.byteLength text) {comment : Comment}
    (member : comment ∈ comments) : comment.span.start < limit := by
  have bound := accounted.behind comment member
  rcases accounted.filled comment member with filled | atEnd
  · omega
  · omega

theorem addComment {text : Text} {limit further : Nat} {tokens : List Token}
    {comments : List Comment} {comment : Comment}
    (accounted : Accounted text limit tokens comments)
    (start : comment.span.start = limit) (stop : comment.span.stop = further)
    (filled : limit < further ∨ further = Text.byteLength text)
    (strict : ∀ earlier, earlier ∈ comments → earlier.span.start < limit) :
    Accounted text further tokens (comments ++ [comment]) where
  nonempty := accounted.nonempty
  ordered := accounted.ordered
  bounded := by
    intro token member
    have bound := accounted.bounded token member
    have forward := comment.span.start_le_stop
    omega
  filled := by
    intro each member
    rcases List.mem_append.mp member with old | new
    · exact accounted.filled each old
    · rw [List.mem_singleton.mp new, start, stop]
      exact filled
  inOrder := by
    rw [List.pairwise_append]
    refine ⟨accounted.inOrder, List.pairwise_singleton _ _, ?_⟩
    intro earlier old later new
    have bound := accounted.behind earlier old
    rw [List.mem_singleton.mp new, Span.Before, start]
    exact ⟨strict earlier old, bound⟩
  behind := by
    intro each member
    have forward := comment.span.start_le_stop
    rcases List.mem_append.mp member with old | new
    · have bound := accounted.behind each old
      omega
    · rw [List.mem_singleton.mp new]
      exact Nat.le_of_eq stop
  separate := by
    intro each member
    rcases List.mem_append.mp member with old | new
    · exact accounted.separate each old
    · left
      intro token tokenMember
      right
      rw [List.mem_singleton.mp new, Span.Before, start]
      exact accounted.bounded token tokenMember
  gaps := by
    intro offset byte below found outside between
    apply accounted.gaps offset byte _ found outside
    · intro each old
      exact between each (List.mem_append_left _ old)
    · have notNew := between comment (by simp)
      unfold Span.Covers at notNew
      omega

section Join

variable {text : Text} {limit : Nat} {before run : List Token} {first : Token}
  {comments : List Comment} (accounted : Accounted text limit (before ++ first :: run) comments)

include accounted

theorem start_le_of_mem {token : Token} (member : token ∈ first :: run) :
    first.span.start ≤ token.span.start := by
  have filled := accounted.nonempty first (by simp)
  have ordered := (List.pairwise_append.mp accounted.ordered).2.1
  rcases List.mem_cons.mp member with same | inRun
  · exact Nat.le_of_eq (congrArg (·.span.start) same.symm)
  · have order := (List.pairwise_cons.mp ordered).1 token inRun
    unfold Span.Before at order
    omega

variable {joined : Token} (start : joined.span.start = first.span.start)

include start

theorem separate_of_join (onward : limit ≤ joined.span.stop)
    (encloses : joined.kind.enclosesComments = true) {comment : Comment}
    (member : comment ∈ comments) :
    (∀ token, token ∈ before ++ [joined] →
      comment.span.Before token.span ∨ token.span.Before comment.span) ∨
    ∃ token, token ∈ before ++ [joined] ∧ comment.span.Within token.span ∧
      token.kind.enclosesComments = true := by
  have filled := accounted.nonempty first (by simp)
  have bound := accounted.behind comment member
  rcases accounted.separate comment member with
    apart | ⟨outer, outerMember, within, mayEnclose⟩
  · rcases apart first (by simp) with ahead | past
    · left
      intro token tokenMember
      rcases List.mem_append.mp tokenMember with old | new
      · exact apart token (List.mem_append_left _ old)
      · left
        rw [List.mem_singleton.mp new, Span.Before, start]
        exact ahead
    · right
      refine ⟨joined, by simp, ⟨?_, by omega⟩, encloses⟩
      unfold Span.Before at past
      omega
  · right
    rcases List.mem_append.mp outerMember with old | inside
    · exact ⟨outer, List.mem_append_left _ old, within, mayEnclose⟩
    · have order := accounted.start_le_of_mem inside
      unfold Span.Within at within
      exact ⟨joined, by simp, ⟨by omega, by omega⟩, encloses⟩

theorem gaps_of_join {offset : Nat} {byte : UInt8} (below : offset < joined.span.stop)
    (found : (Text.bytes text)[offset]? = some byte)
    (outside : ∀ token, token ∈ before ++ [joined] → ¬ token.span.Covers offset)
    (between : ∀ comment, comment ∈ comments → ¬ comment.span.Covers offset) :
    byte ∈ layoutBytes := by
  have filled := accounted.nonempty first (by simp)
  have bound := accounted.bounded first (by simp)
  have notJoined := outside joined (by simp)
  unfold Span.Covers at notJoined
  apply accounted.gaps offset byte (by omega) found _ between
  intro token member
  rcases List.mem_append.mp member with old | inside
  · exact outside token (List.mem_append_left _ old)
  · have order := accounted.start_le_of_mem inside
    unfold Span.Covers
    omega

end Join

/-- The last tokens may be joined into one, together with all bytes up to its
end, if that one may enclose comments. -/
theorem join {text : Text} {limit further : Nat} {before run : List Token}
    {first : Token} {comments : List Comment}
    (accounted : Accounted text limit (before ++ first :: run) comments)
    (joined : Token) (start : joined.span.start = first.span.start)
    (stop : joined.span.stop = further) (onward : limit ≤ further)
    (encloses : joined.kind.enclosesComments = true) :
    Accounted text further (before ++ [joined]) comments := by
  subst stop
  have firstFilled := accounted.nonempty first (by simp)
  have firstBound := accounted.bounded first (by simp)
  obtain ⟨beforeOrdered, _, across⟩ := List.pairwise_append.mp accounted.ordered
  refine
    { nonempty := ?_, ordered := ?_, bounded := ?_, filled := accounted.filled,
      inOrder := accounted.inOrder, behind := ?_,
      separate := fun _ => accounted.separate_of_join start onward encloses,
      gaps := fun _ _ => accounted.gaps_of_join start }
  · intro token member
    rcases List.mem_append.mp member with old | new
    · exact accounted.nonempty token (List.mem_append_left _ old)
    · rw [List.mem_singleton.mp new]
      omega
  · rw [List.pairwise_append]
    refine ⟨beforeOrdered, List.pairwise_singleton _ _, ?_⟩
    intro earlier old token new
    have order := across earlier old first List.mem_cons_self
    rw [List.mem_singleton.mp new, Span.Before, start]
    exact order
  · intro token member
    rcases List.mem_append.mp member with old | new
    · exact Nat.le_trans (accounted.bounded token (List.mem_append_left _ old)) onward
    · exact Nat.le_of_eq (congrArg (·.span.stop) (List.mem_singleton.mp new))
  · intro comment member
    exact Nat.le_trans (accounted.behind comment member) onward

theorem strictlyOrdered {text : Text} {limit : Nat} {tokens : List Token}
    {comments : List Comment} (accounted : Accounted text limit tokens comments) :
    tokens.Pairwise fun earlier later =>
      earlier.span.start < later.span.start ∧ earlier.span.Before later.span := by
  apply accounted.ordered.imp_of_mem
  intro earlier later earlierMember _ order
  have filled := accounted.nonempty earlier earlierMember
  exact ⟨Nat.lt_of_lt_of_le filled order, order⟩

theorem eq_or_before {tokens : List Token} {left right : Token}
    (ordered : tokens.Pairwise fun earlier later => earlier.span.Before later.span)
    (leftMember : left ∈ tokens) (rightMember : right ∈ tokens) :
    left = right ∨ left.span.Before right.span ∨ right.span.Before left.span := by
  induction ordered with
  | nil => cases leftMember
  | @cons first rest front _ ih =>
      rcases List.mem_cons.mp leftMember with rfl | leftInRest
      · rcases List.mem_cons.mp rightMember with rfl | rightInRest
        · exact .inl rfl
        · exact .inr (.inl (front right rightInRest))
      · rcases List.mem_cons.mp rightMember with rfl | rightInRest
        · exact .inr (.inr (front left leftInRest))
        · exact ih leftInRest rightInRest

theorem unique_outer {text : Text} {limit : Nat} {tokens : List Token}
    {comments : List Comment} (accounted : Accounted text limit tokens comments)
    (whole : limit = Text.byteLength text) {comment : Comment} {left right : Token}
    (member : comment ∈ comments) (leftMember : left ∈ tokens)
    (rightMember : right ∈ tokens) (inLeft : comment.span.Within left.span)
    (inRight : comment.span.Within right.span) : left = right := by
  have forward := comment.span.start_le_stop
  have filled := accounted.filled comment member
  have leftFilled := accounted.nonempty left leftMember
  have rightFilled := accounted.nonempty right rightMember
  have leftBound := accounted.bounded left leftMember
  have rightBound := accounted.bounded right rightMember
  unfold Span.Within at inLeft inRight
  rcases eq_or_before accounted.ordered leftMember rightMember with
    same | ahead | past
  · exact same
  · unfold Span.Before at ahead
    omega
  · unfold Span.Before at past
    omega

end Accounted

end HackLexer
