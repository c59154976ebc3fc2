import HackLexer.Source.Span
import HackLexer.Text.Painted

/-!
# Excerpts

An excerpt shows where a span starts: the place, the line of the source with
the spanned characters painted, and a row of carets below them.  Only the line
on which the span starts is shown.

Rows are written with a brush, which says what becomes of painted texts:
`Painted.render` gives the codes for a terminal, `Painted.text` the bare rows.
-/

namespace HackLexer

namespace Excerpt

/-- Number of columns that a number takes in decimal: its integer logarithm to
base ten and one more, and one for zero. -/
def numberWidth (number : Nat) : Nat :=
  if number < 10 then 1 else numberWidth (number / 10) + 1

/-- A character of the shown line and whether it belongs to the span. -/
structure Cell where
  character : Char
  highlighted : Bool
  deriving DecidableEq, Repr

/-- The cells of a line whose first character has the given byte index; the
bytes from `first` to before `limit` are highlighted. -/
def cells (first limit : Nat) : Nat → Text → List Cell
  | _, [] => []
  | index, character :: rest =>
      { character, highlighted := first ≤ index && index < limit } ::
        cells first limit (index + character.utf8Size) rest

namespace Cell

/-- Number of columns that a cell takes: a tab is shown as four spaces. -/
def width (cell : Cell) : Nat :=
  if cell.character = '\t' then 4 else 1

/-- The cell as it stands in the source row; a tab is never painted. -/
def write (brush : Painted → Text) (cell : Cell) : Text :=
  if cell.character = '\t' then
    List.replicate cell.width ' '
  else if cell.highlighted then
    brush ((Color.red.paint [cell.character]).withStyle .underline)
  else
    [cell.character]

/-- What stands below the cell. -/
def mark (cell : Cell) : Text :=
  List.replicate cell.width (if cell.highlighted then '^' else ' ')

end Cell

/-- The first line of a span, laid out for showing. -/
structure Layout where
  location : Location
  row : List Cell
  /-- Whether the span starts behind the last shown character. -/
  pastEnd : Bool

/-- Lays out the first line of a span without its line ending.  The highlighted
part stops at the end of that line and has at least one byte. -/
def layout (source : Source) (span : Span) : Layout :=
  let location := source.locate span.start
  let lineStart := (source.lineStart? location.line).getD 0
  let line := Text.trimEnd (fun character => character == '\n' || character == '\r')
    ((source.line? location.line).getD [])
  let first := span.start - lineStart
  let limit := max (min (span.stop - lineStart) (Text.byteLength line)) (first + 1)
  { location
    row := cells first limit 0 line
    pastEnd := Text.byteLength line ≤ first }

namespace Layout

/-- The row of carets; a span behind the line has one caret right after it. -/
def underline (layout : Layout) : Text :=
  Text.trimEnd (· == ' ')
    (layout.row.flatMap Cell.mark ++ if layout.pastEnd then ['^'] else [])

def number (layout : Layout) : Text :=
  Text.decimal layout.location.line

/-- Blanks as wide as the number of the shown line. -/
def margin (layout : Layout) : Text :=
  List.replicate (numberWidth layout.location.line) ' '

end Layout

/-- A text in bold cyan, as everything around the source is written. -/
def frame (text : Text) : Painted :=
  (Color.cyan.paint text).withStyle .bold

/-- The bar between line numbers and source. -/
def gutter : Painted :=
  frame "┃".toList

def placeRow (brush : Painted → Text) (path : String) (layout : Layout) : Text :=
  layout.margin ++ [' '] ++ brush (frame "-->".toList) ++ [' '] ++ path.toList ++ [':'] ++
    layout.number ++ [':'] ++ Text.decimal layout.location.column

def emptyRow (brush : Painted → Text) (layout : Layout) : Text :=
  layout.margin ++ [' '] ++ brush gutter

def sourceRow (brush : Painted → Text) (layout : Layout) : Text :=
  brush (frame layout.number) ++ [' '] ++ brush gutter ++ [' '] ++
    layout.row.flatMap (Cell.write brush)

/-- The row below the source, with the help text behind the carets. -/
def underlineRow (brush : Painted → Text) (layout : Layout) (help : Option Text) : Text :=
  layout.margin ++ [' '] ++ brush gutter ++ [' '] ++
    brush (Color.red.paint layout.underline) ++
    match help with
    | none => []
    | some help => [' '] ++ brush (Style.bold.paint "help".toList) ++ ": ".toList ++ help

def rows (brush : Painted → Text) (source : Source) (span : Span) (help : Option Text) :
    List Text :=
  let layout := layout source span
  [placeRow brush source.path layout, emptyRow brush layout, sourceRow brush layout,
    underlineRow brush layout help]

/-- The excerpt of a span with an optional help text, as a terminal shows it. -/
def render (source : Source) (span : Span) (help : Option Text) : Text :=
  (rows Painted.render source span help).flatMap (· ++ ['\n'])

end Excerpt

end HackLexer
