import HackLexer.Lexer.Scan
import HackLexer.Markup.Element

/-!
# The state of the lexer

The lexer reads one source text.  Markup elements may be open around the
cursor, and inside them literals that interpolations interrupt; an interpolation
always belongs to a literal, and no element is open inside a literal.  Lexemes go
to the innermost open interpolation, else to the innermost open element, else
they are handed out as tokens.
-/

namespace HackLexer

/-- The state of a lexer. -/
structure Lexer where
  cursor : Cursor
  /-- The literal whose body is read next. -/
  literal : Option StringLiteral
  /-- The open interpolations, innermost first. -/
  interpolations : List Interpolation
  /-- The open markup elements, innermost first. -/
  elements : List Element
  /-- Tokens that are handed out before anything else is read. -/
  ready : List Token
  /-- The comments passed over so far, in order. -/
  comments : Array Comment

/-- What asking a lexer for a token gives, with the lexer as it is left. -/
inductive Pulled where
  | token (token : Token) (after : Lexer)
  | endOfText (after : Lexer)
  | failed (error : LexicalError) (after : Lexer)

/-- What one step of a lexer gives. -/
inductive Step where
  /-- The question for a token is answered. -/
  | pulled (pulled : Pulled)
  /-- The lexer has moved on and no token is ready yet. -/
  | moved (after : Lexer)

namespace Lexer

def ofText (text : Text) : Lexer :=
  { cursor := .atStart text
    literal := none
    interpolations := []
    elements := []
    ready := []
    comments := #[] }

/-- Gives the lexemes of a complete element to the element around it; without
one they become ready tokens. -/
def handBack (lexer : Lexer) (lexemes : List Lexeme) : Lexer :=
  match lexer.elements with
  | [] => { lexer with ready := lexer.ready ++ lexemes.map Lexeme.token }
  | parent :: outer => { lexer with elements := parent.extend lexemes :: outer }

/-- Delivers a lexeme that ends at the cursor to what is open around it. -/
def deliver (lexer : Lexer) (lexeme : Lexeme) : Step :=
  match lexer.interpolations with
  | interpolation :: outer =>
      match interpolation.receive lexeme with
      | .within interpolation =>
          .moved { lexer with interpolations := interpolation :: outer }
      | .ended literal =>
          .moved { lexer with literal := some literal, interpolations := outer }
  | [] =>
      match lexer.elements with
      | [] => .pulled (.token lexeme.token lexer)
      | element :: outer =>
          match element.receive lexeme with
          | .collecting element => .moved { lexer with elements := element :: outer }
          | .complete lexemes => .moved ({ lexer with elements := outer }.handBack lexemes)
          | .comment lt element =>
              match markupComment lt lexer.cursor with
              | .error error => .pulled (.failed error lexer)
              | .ok comment =>
                  .moved
                    { lexer with
                      cursor := comment.stop
                      elements := element.push comment :: outer }

def accept (lexer : Lexer) (scanned : Scanned) : Step :=
  let moved : Lexer :=
    { lexer with
      cursor := scanned.after
      comments :=
        match scanned.comment with
        | none => lexer.comments
        | some comment => lexer.comments.push comment }
  match scanned.found with
  | .layout => .moved moved
  | .lexeme lexeme => moved.deliver lexeme
  | .literal literal => .moved { moved with literal := some literal }
  | .element name => .moved { moved with elements := .opened name :: moved.elements }

/-- Ends the lexing at the end of the text.  An open literal is an error, while
open elements dissolve. -/
def finish (lexer : Lexer) : Pulled :=
  match lexer.interpolations with
  | interpolation :: _ => .failed (interpolation.literal.unclosed lexer.cursor) lexer
  | [] =>
      match Element.dissolve lexer.elements with
      | [] => .endOfText lexer
      | lexeme :: more =>
          .token lexeme.token { lexer with elements := [], ready := more.map Lexeme.token }

/-- One step: hands out a ready token, reads on in a literal, or scans.  Inside
an interpolation no markup element opens. -/
def step (lexer : Lexer) : Step :=
  match lexer.ready with
  | token :: more => .pulled (.token token { lexer with ready := more })
  | [] =>
      match lexer.literal with
      | some literal =>
          match literal.read lexer.cursor with
          | .closed lexeme =>
              { lexer with cursor := lexeme.stop, literal := none }.deliver lexeme
          | .interpolation literal after =>
              .moved
                { lexer with
                  cursor := after
                  literal := none
                  interpolations := { literal, depth := 0 } :: lexer.interpolations }
          | .unclosed error => .pulled (.failed error lexer)
      | none =>
          match lexer.cursor.rest with
          | [] => .pulled lexer.finish
          | _ :: _ =>
              match scan lexer.interpolations.isEmpty lexer.cursor with
              | .error error => .pulled (.failed error lexer)
              | .ok scanned => lexer.accept scanned

end Lexer

end HackLexer
