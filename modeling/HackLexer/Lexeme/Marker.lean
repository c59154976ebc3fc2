import HackLexer.Lexeme.Character
import HackLexer.Token.Kind

/-!
# Suppression markers

A comment may open with a marker that tells a checker to keep quiet:
`UNSAFE_EXPR` in a line comment and `HH_FIXME` in a block comment.  Only blanks
may stand in front of the marker.
-/

namespace HackLexer

/-- Length of a comment opener of two characters, blanks and the given marker,
if that is how a text goes on behind the opener. -/
def markerAfter? (marker behind : Text) : Option Nat :=
  let blanks := Text.countWhile isBlank behind
  if marker.isPrefixOf (behind.drop blanks) then
    some (2 + blanks + marker.length)
  else
    none

/-- The suppression marker at the front of a text: its kind and its length,
comment opener included. -/
def marker? : Text → Option (TokenKind × Nat)
  | '/' :: '/' :: behind =>
      (markerAfter? "UNSAFE_EXPR".toList behind).map fun count => (.unsafeExpr, count)
  | '/' :: '*' :: behind =>
      (markerAfter? "HH_FIXME".toList behind).map fun count => (.fixmeExpr, count)
  | _ => none

theorem markerAfter?_positive {marker behind : Text} {count : Nat}
    (found : markerAfter? marker behind = some count) : 0 < count := by
  unfold markerAfter? at found
  simp only [Option.ite_none_right_eq_some, Option.some.injEq] at found
  omega

theorem marker?_positive {text : Text} {kind : TokenKind} {count : Nat}
    (found : marker? text = some (kind, count)) : 0 < count := by
  unfold marker? at found
  split at found
  · obtain ⟨length, here, same⟩ := Option.map_eq_some_iff.mp found
    simp only [Prod.mk.injEq] at same
    exact same.2 ▸ markerAfter?_positive here
  · obtain ⟨length, here, same⟩ := Option.map_eq_some_iff.mp found
    simp only [Prod.mk.injEq] at same
    exact same.2 ▸ markerAfter?_positive here
  · simp at found

end HackLexer
