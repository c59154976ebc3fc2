import HackLexer.Source

/-!
# Spans

A span is a part of a source text: the byte offset where it starts and the
characters it covers.  Its end follows from the two.
-/

namespace HackLexer

/-- A contiguous part of a source text. -/
structure Span where
  start : Nat
  text : Text
  deriving DecidableEq, Repr

namespace Span

/-- The byte offset right behind the span. -/
def stop (span : Span) : Nat :=
  span.start + Text.byteLength span.text

/-- Spans are ordered by their starts, then by their ends. -/
def compare (left right : Span) : Ordering :=
  (Ord.compare left.start right.start).then (Ord.compare left.stop right.stop)

def inspect (span : Span) : Text :=
  "Span \x7b start: ".toList ++ Text.decimal span.start ++
    ", end: ".toList ++ Text.decimal span.stop ++
    ", content: ".toList ++ Text.quote span.text ++ " \x7d".toList

end Span

/-- The span between two offsets of a source file; both must be boundaries, in
order. -/
def Source.span? (source : Source) (start stop : Nat) : Option Span :=
  if start ≤ stop ∧ Text.isBoundary source.content start ∧ Text.isBoundary source.content stop then
    some { start, text := Text.slice source.content start stop }
  else
    none

end HackLexer
