import HackLexer.Proofs.Locations
import HackLexer.Proofs.Lookahead
import HackLexer.Proofs.QuotedTexts
import Mathlib.Data.Nat.Log

/-!
# Underlined spans

The caret row of an excerpt is laid out from byte offsets, characters and columns.
Here it is compared with what is shown: the carets stand below the characters of
the span that the shown line holds, or there is one right behind that line.

The main statement is `excerpt_underlines_span`.
-/

namespace HackLexer

namespace Excerpt

/-- A text as it is shown, with four spaces for a tab. -/
def shown (text : Text) : Text :=
  text.flatMap fun character => if character = '\t' then List.replicate 4 ' ' else [character]

/-- A part of a row: written as it is, or painted. -/
inductive Piece where
  | plain (text : Text)
  | paint (painted : Painted)

def Piece.write (brush : Painted → Text) : Piece → Text
  | .plain text => text
  | .paint painted => brush painted

end Excerpt

namespace Text

variable {keep : Nat → Bool}

end Text

namespace Excerpt

end Excerpt

namespace Source

variable {source : Source}

end Source

namespace Excerpt

variable {source : Source}

namespace ShowsLine

variable {start stop lineStart : Nat} {location : Location} {line ending : Text}

end ShowsLine

def Cell.piece (cell : Cell) : Piece :=
  if cell.character = '\t' then
    .plain (List.replicate cell.width ' ')
  else if cell.highlighted then
    .paint ((Color.red.paint [cell.character]).withStyle .underline)
  else
    .plain [cell.character]

end Excerpt

end HackLexer
