import HackLexer.CommandLine

/-!
# The command

Reads the file named on the command line and prints its token dump.
-/

namespace HackLexer

def usage : String :=
  "Dumps the tokens of a Hack/PHP source file.\n\n" ++
    "Usage: [OPTIONS] <FILE>\n\n" ++
    "Options:\n" ++
    "      --comments  Also prints the comments of the file\n" ++
    "      --offsets   Prints the byte range of every token and comment\n" ++
    "  -h, --help      Print help\n"

def ArgumentFault.message : ArgumentFault → String
  | .help => usage
  | .missingFile => "error: a FILE is required\n"
  | .emptyFile => "error: the FILE must not be empty\n"
  | .unknown => "error: unexpected argument\n"
  | .repeated => "error: a flag cannot be used multiple times\n"
  | .unexpectedValue => "error: unexpected value for a flag\n"

/-- The number by which the system knows a failure, which may be given negated. -/
def systemCode (code : UInt32) : UInt32 :=
  if code < 0x80000000 then code else 0 - code

def openFailure (failure : IO.Error) : String :=
  match failure with
  | .noFileOrDirectory .. => OpenFault.notFound.message
  | .inappropriateType _ code _ =>
      if systemCode code = 20 then OpenFault.notADirectory.message else failure.toString
  | _ => failure.toString

def openFile (path : String) : IO (Except Text (List UInt8)) := do
  try
    let bytes ← IO.FS.readBinFile path
    return .ok bytes.toList
  catch failure =>
    return .error (openFailure failure).toList

def runCommand (arguments : List String) : IO UInt32 := do
  match Arguments.parse arguments with
  | .error .help =>
      IO.print usage
      return ArgumentFault.help.exit.toUInt32
  | .error fault =>
      IO.eprint fault.message
      return fault.exit.toUInt32
  | .ok arguments =>
      let outcome := CommandLine.outcome Text.isUnprintable arguments (← openFile arguments.file)
      IO.print (String.ofList outcome.stdout)
      IO.eprint (String.ofList outcome.stderr)
      return outcome.exit.toUInt32

end HackLexer

def main (arguments : List String) : IO UInt32 :=
  HackLexer.runCommand arguments
