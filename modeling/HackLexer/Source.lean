import HackLexer.Text.Quoted
import HackLexer.Text.Utf8

/-!
# Source files

A source file is a text with the path under which it is shown.  It is loaded by
mapping the bytes of a file into memory; a file without bytes cannot be mapped
and is an empty text.

The line index of a source file lists the byte offsets at which its lines start;
lines and columns are derived from that index.
-/

namespace HackLexer

/-- The complete text of one file. -/
structure Source where
  path : String
  content : Text

/-- Why a source file cannot be loaded. -/
inductive LoadFault where
  /-- The file is not mapped into memory, for the given reason. -/
  | unmapped (reason : Text)
  /-- The bytes are not the encoding of a text. -/
  | misencoded (fault : Utf8.Fault)
  deriving DecidableEq, Repr

def LoadFault.message : LoadFault → Text
  | .unmapped reason => reason
  | .misencoded fault => fault.message

/-- A place in a source file, with line and column counted from one. -/
structure Location where
  line : Nat
  column : Nat
  deriving DecidableEq, Repr

/-- The offsets behind the line feeds of a text that itself starts at the given
offset. -/
def lineStartsFrom : Nat → Text → List Nat
  | _, [] => []
  | offset, character :: rest =>
      if character = '\n' then
        (offset + character.utf8Size) :: lineStartsFrom (offset + character.utf8Size) rest
      else
        lineStartsFrom (offset + character.utf8Size) rest

namespace Source

/-- Loads a source file by mapping a file with the given bytes into memory. -/
def load (map : List UInt8 → Except Text (List UInt8)) (path : String) (file : List UInt8) :
    Except LoadFault Source :=
  if file.isEmpty then
    .ok { path, content := [] }
  else
    match map file with
    | .error reason => .error (.unmapped reason)
    | .ok bytes =>
        match Utf8.decode bytes with
        | .ok content => .ok { path, content }
        | .error fault => .error (.misencoded fault)

/-- Loads a source file whose bytes are in memory already. -/
def ofBytes (path : String) (bytes : List UInt8) : Except LoadFault Source :=
  load .ok path bytes

def lineStarts (source : Source) : List Nat :=
  0 :: lineStartsFrom 0 source.content

/-- Number of lines; a text that ends in a line feed has an empty last line. -/
def lineCount (source : Source) : Nat :=
  source.lineStarts.length

def lineStart? (source : Source) : Nat → Option Nat
  | 0 => none
  | line + 1 => source.lineStarts[line]?

/-- A line together with the line feed that ends it. -/
def line? (source : Source) (line : Nat) : Option Text :=
  match source.lineStart? line with
  | none => none
  | some start =>
      let stop := (source.lineStart? (line + 1)).getD (Text.byteLength source.content)
      some (Text.slice source.content start stop)

/-- The last line that starts at or before an offset, and the column that the
characters between the two make. -/
def locate (source : Source) (offset : Nat) : Location :=
  let line := (source.lineStarts.takeWhile (· ≤ offset)).length
  let start := (source.lineStart? line).getD 0
  { line, column := (Text.slice source.content start offset).length + 1 }

/-- The location of an offset; an offset inside a character or past the end has
none. -/
def location? (source : Source) (offset : Nat) : Option Location :=
  if Text.isBoundary source.content offset then
    some (source.locate offset)
  else
    none

def inspect (source : Source) : Text :=
  "SourceFile \x7b full_path: ".toList ++ Text.quote source.path.toList ++
    ", line_starts: [".toList ++
    List.intercalate ", ".toList (source.lineStarts.map Text.decimal) ++ "] \x7d".toList

end Source

end HackLexer
