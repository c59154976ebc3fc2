import HackLexer.Lexer.Next

/-!
# Lexing sessions

A session drives a lexer over one text by requests and collects the replies.
A failure ends the session.
-/

namespace HackLexer

namespace Session

/-- What can be asked of a session. -/
inductive Request where
  /-- The next token. -/
  | next
  /-- All tokens up to the end of the text. -/
  | drain
  /-- The comments passed over so far. -/
  | comments
  /-- The comments passed over so far, and a new start. -/
  | takeComments
  /-- A new start. -/
  | restart
  deriving DecidableEq, Repr

/-- What a session replies.  Replies about tokens tell how many comments have
been passed over. -/
inductive Reply where
  | token (token : Token) (count : Nat)
  | endOfText (count : Nat)
  | failed (error : LexicalError) (count : Nat)
  | comments (comments : List Comment)
  /-- A new start on a text of the given number of bytes. -/
  | restarted (bytes : Nat)
  deriving DecidableEq, Repr

def Reply.ofPulled : Pulled → Reply
  | .token found after => .token found after.comments.size
  | .endOfText after => .endOfText after.comments.size
  | .failed error after => .failed error after.comments.size

/-- The lexer with which a session goes on after an answer; after a failure
there is none. -/
def continuation? : Pulled → Option Lexer
  | .token _ after => some after
  | .endOfText after => some after
  | .failed _ _ => none

def replies (text : Text) : Lexer → List Request → List Reply
  | _, [] => []
  | lexer, .next :: requests =>
      .ofPulled lexer.next ::
        match continuation? lexer.next with
        | none => []
        | some after => replies text after requests
  | lexer, .drain :: requests =>
      lexer.answers.map .ofPulled ++
        match lexer.answers.getLast?.bind continuation? with
        | none => []
        | some after => replies text after requests
  | lexer, .comments :: requests =>
      .comments lexer.comments.toList :: replies text lexer requests
  | lexer, .takeComments :: requests =>
      .comments lexer.comments.toList :: replies text (.ofText text) requests
  | _, .restart :: requests =>
      .restarted (Text.byteLength text) :: replies text (.ofText text) requests

def run (text : Text) (requests : List Request) : List Reply :=
  replies text (.ofText text) requests

end Session

end HackLexer
