import HackLexer.Text

/-!
# Directories

A finite tree of named files, as far as opening a file by a path needs it.  A
path is followed part by part; an empty part or a single dot stays where it is,
and nothing lies below a file.
-/

namespace HackLexer

/-- Why a file cannot be opened. -/
inductive OpenFault where
  | notFound
  | notADirectory
  deriving DecidableEq, Repr

def OpenFault.message : OpenFault → String
  | .notFound => "No such file or directory (os error 2)"
  | .notADirectory => "Not a directory (os error 20)"

/-- Files by their names, which may have several parts. -/
structure Directory where
  files : List (String × List UInt8)

namespace Directory

/-- The parts of a path between its slashes. -/
def parts : Text → List Text
  | [] => [[]]
  | character :: rest =>
      if character = '/' then
        [] :: parts rest
      else
        match parts rest with
        | [] => [[character]]
        | first :: more => (character :: first) :: more

/-- The bytes of the file whose name has the given parts. -/
def file? (directory : Directory) (place : List Text) : Option (List UInt8) :=
  (directory.files.find? fun file => parts file.1.toList == place).map (·.2)

/-- Follows the parts of a path from a place in the directory. -/
def follow (directory : Directory) (place : List Text) :
    List Text → Except OpenFault (List UInt8)
  | [] =>
      match directory.file? place with
      | some bytes => .ok bytes
      | none => .error .notFound
  | part :: rest =>
      if (directory.file? place).isSome then
        .error .notADirectory
      else if part = [] ∨ part = ['.'] then
        follow directory place rest
      else
        follow directory (place ++ [part]) rest

/-- Opens the file that a path names; a path from the root leads out of the
directory. -/
def openFile (directory : Directory) (path : String) : Except OpenFault (List UInt8) :=
  match path.toList with
  | '/' :: _ => .error .notFound
  | relative => directory.follow [] (parts relative)

end Directory

end HackLexer
