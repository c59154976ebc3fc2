/-!
# Command-line arguments

The command takes one file and two flags.  Arguments are read from left to
right; behind `--` every argument is a file.

An empty file name is only refused when the next known option has been read or
when the arguments end, so a fault that needs no known option comes first.
-/

namespace HackLexer

/-- What the command is asked to do. -/
structure Arguments where
  file : String
  /-- Whether comments are printed. -/
  comments : Bool
  /-- Whether byte ranges are printed. -/
  offsets : Bool
  deriving DecidableEq, Repr

/-- Why the command does not run. -/
inductive ArgumentFault where
  /-- Help was asked for. -/
  | help
  /-- No file is given. -/
  | missingFile
  /-- The file name is empty. -/
  | emptyFile
  /-- An option is unknown, or a second file is given. -/
  | unknown
  /-- A flag is given twice. -/
  | repeated
  /-- An option that takes no value has one. -/
  | unexpectedValue
  deriving DecidableEq, Repr

def ArgumentFault.exit : ArgumentFault → Nat
  | .help => 0
  | _ => 2

namespace Arguments

inductive Flag where
  | comments
  | offsets
  | help
  deriving DecidableEq, Repr

/-- The long options without their dashes. -/
def Flag.ofLong? (name : List Char) : Option Flag :=
  if name = "comments".toList then some .comments
  else if name = "offsets".toList then some .offsets
  else if name = "help".toList then some .help
  else none

/-- What one argument means. -/
inductive Item where
  | file (name : String)
  | flag (flag : Flag)
  /-- A known long option with a value behind an equals sign. -/
  | assigned (flag : Flag)
  /-- Everything behind is a file. -/
  | separator
  | unknown
  deriving DecidableEq, Repr

/-- What an argument in front of `--` means. -/
def Item.ofArgument (argument : String) : Item :=
  match argument.toList with
  | ['-', '-'] => .separator
  | '-' :: '-' :: long =>
      let name := long.takeWhile (· != '=')
      match Flag.ofLong? name with
      | none => .unknown
      | some known => if name.length = long.length then .flag known else .assigned known
  | '-' :: 'h' :: _ => .flag .help
  | '-' :: _ :: _ => .unknown
  | _ => .file argument

/-- What has been read so far. -/
structure Draft where
  file : Option String
  comments : Bool
  offsets : Bool
  deriving DecidableEq, Repr

namespace Draft

/-- Takes a file name; there is only one. -/
def withFile (draft : Draft) (name : String) : Except ArgumentFault Draft :=
  match draft.file with
  | none => .ok { draft with file := some name }
  | some _ => .error .unknown

/-- Takes a flag, which settles whether the file name in front of it is
empty. -/
def withFlag (draft : Draft) (flag : Flag) : Except ArgumentFault Draft :=
  if draft.file = some "" then
    .error .emptyFile
  else
    match flag with
    | .help => .error .help
    | .comments =>
        if draft.comments then .error .repeated else .ok { draft with comments := true }
    | .offsets =>
        if draft.offsets then .error .repeated else .ok { draft with offsets := true }

/-- The arguments after all of them have been read. -/
def complete (draft : Draft) : Except ArgumentFault Arguments :=
  match draft.file with
  | none => .error .missingFile
  | some file =>
      if file = "" then
        .error .emptyFile
      else
        .ok { file, comments := draft.comments, offsets := draft.offsets }

end Draft

/-- Reads arguments that are all files. -/
def readFiles (draft : Draft) : List String → Except ArgumentFault Arguments
  | [] => draft.complete
  | argument :: rest =>
      match draft.withFile argument with
      | .error fault => .error fault
      | .ok draft => readFiles draft rest

/-- Reads arguments in front of `--`. -/
def read (draft : Draft) : List String → Except ArgumentFault Arguments
  | [] => draft.complete
  | argument :: rest =>
      match Item.ofArgument argument with
      | .separator => readFiles draft rest
      | .unknown => .error .unknown
      | .assigned _ => .error .unexpectedValue
      | .file name =>
          match draft.withFile name with
          | .error fault => .error fault
          | .ok draft => read draft rest
      | .flag flag =>
          match draft.withFlag flag with
          | .error fault => .error fault
          | .ok draft => read draft rest

def parse (arguments : List String) : Except ArgumentFault Arguments :=
  read { file := none, comments := false, offsets := false } arguments

end Arguments

end HackLexer
