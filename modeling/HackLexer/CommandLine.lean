import HackLexer.CommandLine.Arguments
import HackLexer.CommandLine.Directory
import HackLexer.Tokenized

/-!
# The token dump

The command lexes one file and prints one line for each token and, if asked, one
for each comment.  The fields of a line are separated by tabs; texts are quoted,
so they contain neither tabs nor line feeds.  Which characters are hidden in a
quoted text is left open here.  Failures are reported on the error stream only.
-/

namespace HackLexer

/-- What a run of the command leaves behind. -/
structure Outcome where
  exit : Nat
  stdout : Text
  stderr : Text
  deriving DecidableEq, Repr

namespace CommandLine

/-- The byte range of a span as a field of a line, if ranges are asked for. -/
def rangeField (offsets : Bool) (span : Span) : Text :=
  if offsets then
    ['\t'] ++ Text.decimal span.start ++ "..".toList ++ Text.decimal span.stop
  else
    []

def tokenLine (hidden : Char → Bool) (offsets : Bool) (token : Token) : Text :=
  Text.decimal token.line ++ ['\t'] ++ token.kind.name.toList ++ ['\t'] ++
    Text.quoteHiding hidden token.text ++ rangeField offsets token.span

def commentLine (hidden : Char → Bool) (offsets : Bool) (comment : Comment) : Text :=
  comment.kind.name.toList ++ ['\t'] ++ Text.quoteHiding hidden comment.text ++
    rangeField offsets comment.span

def dump (hidden : Char → Bool) (arguments : Arguments) (tokenized : Tokenized) : List Text :=
  tokenized.tokens.map (tokenLine hidden arguments.offsets) ++
    if arguments.comments then
      tokenized.comments.map (commentLine hidden arguments.offsets)
    else
      []

def fileFailure (file : String) (reason : Text) : Outcome :=
  { exit := 1
    stdout := []
    stderr := errorMessage (file.toList ++ ": ".toList ++ reason) ++ ['\n'] }

/-- The outcome for a file that has been opened or not. -/
def outcome (hidden : Char → Bool) (arguments : Arguments)
    (opened : Except Text (List UInt8)) : Outcome :=
  match opened with
  | .error reason => fileFailure arguments.file reason
  | .ok bytes =>
      match Source.ofBytes arguments.file bytes with
      | .error fault => fileFailure arguments.file fault.message
      | .ok source =>
          match tokenize source.content with
          | .error error =>
              { exit := 1, stdout := [], stderr := error.render source ++ ['\n'] }
          | .ok tokenized =>
              { exit := 0
                stdout := (dump hidden arguments tokenized).flatMap (· ++ ['\n'])
                stderr := [] }

def runIn (directory : Directory) (arguments : List String) : Except ArgumentFault Outcome :=
  match Arguments.parse arguments with
  | .error fault => .error fault
  | .ok arguments =>
      .ok (outcome Text.isUnprintable arguments
        ((directory.openFile arguments.file).mapError fun fault => fault.message.toList))

end CommandLine

end HackLexer
