import HackLexer.Tokenized

/-!
# Batches of sources

Several source files are lexed in turn, and their errors are collected.
-/

namespace HackLexer

namespace Batch

/-- An error together with the source file it was found in. -/
structure Diagnostic where
  source : Source
  error : LexicalError

/-- How far a batch has come after one of its files. -/
structure Progress where
  /-- Number of tokens of the file, if it could be lexed. -/
  tokens : Option Nat
  /-- Number of comments of the file, if it could be lexed. -/
  comments : Option Nat
  /-- Whether no error has been found so far. -/
  clean : Bool
  /-- The messages of all errors found so far. -/
  messages : List String

/-- The progress after a file, given what came of it and all errors so far. -/
def progress (outcome : Except LexicalError Tokenized) (found : List Diagnostic) : Progress :=
  { tokens := outcome.toOption.map (·.tokens.length)
    comments := outcome.toOption.map (·.comments.length)
    clean := found.isEmpty
    messages := found.map (·.error.cause.message) }

/-- Lexes the sources after errors have already been found; gives the progress
after each file and all errors. -/
def runAfter (found : List Diagnostic) : List Source → List Progress × List Diagnostic
  | [] => ([], found)
  | source :: sources =>
      let outcome := tokenize source.content
      let found :=
        match outcome with
        | .ok _ => found
        | .error error => found ++ [{ source, error }]
      let later := runAfter found sources
      (progress outcome found :: later.1, later.2)

def run (sources : List Source) : List Progress × List Diagnostic :=
  runAfter [] sources

end Batch

end HackLexer
