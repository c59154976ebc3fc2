import HackLexer.Lexeme
import HackLexer.LexicalError

/-!
# Markup elements

The lexemes of a markup element are collected while the element is open.  In its
opening tag they are taken as they come.  Among its children `</` begins the
closing tag and `<!--` a markup comment; each of the two becomes one lexeme.  A
complete element gives its lexemes to the element around it, and an element that
the end of the text leaves open dissolves into the plain lexemes it was made of.
-/

namespace HackLexer

/-- How far an element has been read. -/
inductive ElementPhase where
  /-- Before the `>` of the opening tag. -/
  | openingTag
  /-- Behind the opening tag. -/
  | children
  /-- Behind the `<` and `/` of the closing tag, whose further lexemes are held
  back, latest first. -/
  | closingTag (lt slash : Lexeme) (name : List Lexeme)
  deriving DecidableEq, Repr

/-- A markup element under construction. -/
structure Element where
  /-- The lexeme that opens the element. -/
  name : Lexeme
  /-- The lexemes behind the name, latest first. -/
  content : List Lexeme
  phase : ElementPhase
  deriving DecidableEq, Repr

namespace Element

/-- An element of which only the name has been read. -/
def opened (name : Lexeme) : Element :=
  { name, content := [], phase := .openingTag }

def push (element : Element) (lexeme : Lexeme) : Element :=
  { element with content := lexeme :: element.content }

/-- The lexemes of the element and the ones its phase holds back, in order. -/
def lexemes (element : Element) : List Lexeme :=
  element.name :: element.content.reverse ++
    match element.phase with
    | .openingTag => []
    | .children => []
    | .closingTag lt slash name => lt :: slash :: name.reverse

/-- Adds the lexemes of an element inside this one. -/
def extend (element : Element) (lexemes : List Lexeme) : Element :=
  match element.phase with
  | .closingTag lt slash name =>
      { element with phase := .closingTag lt slash (lexemes.reverse ++ name) }
  | _ => { element with content := lexemes.reverse ++ element.content }

/-- The lexeme of a closing tag from its `<` to its `>`; the value is made of
the characters of the lexemes between. -/
def closing (lt gt : Lexeme) (name : List Lexeme) : Lexeme :=
  { kind := .xhpClosing
    start := lt.start
    stop := gt.stop
    literal := some (name.flatMap Lexeme.raw) }

/-- What becomes of an element when it receives a lexeme. -/
inductive Receipt where
  /-- It stays open. -/
  | collecting (element : Element)
  /-- It is complete and has these lexemes. -/
  | complete (lexemes : List Lexeme)
  /-- A markup comment begins, and this is its `<`. -/
  | comment (lt : Lexeme) (element : Element)

def receive (element : Element) (lexeme : Lexeme) : Receipt :=
  match element.phase with
  | .openingTag =>
      if lexeme.kind = .gt then
        if element.content.head?.map Lexeme.kind = some .slash then
          .complete (element.push lexeme).lexemes
        else
          .collecting { element.push lexeme with phase := .children }
      else
        .collecting (element.push lexeme)
  | .children =>
      match lexeme.kind, element.content with
      | .slash, lt :: earlier =>
          if lt.kind = .lt then
            .collecting
              { element with content := earlier, phase := .closingTag lt lexeme [] }
          else
            .collecting (element.push lexeme)
      | .decrement, bang :: lt :: earlier =>
          if lt.kind = .lt ∧ bang.kind = .bang then
            .comment lt { element with content := earlier }
          else
            .collecting (element.push lexeme)
      | _, _ => .collecting (element.push lexeme)
  | .closingTag lt slash name =>
      if lexeme.kind = .gt then
        .complete
          ({ element with phase := .children }.push (closing lt lexeme name.reverse)).lexemes
      else
        .collecting { element with phase := .closingTag lt slash (lexeme :: name) }

/-- The lexemes into which nested open elements dissolve, in order.  The innermost
element is given first. -/
def dissolve (elements : List Element) : List Lexeme :=
  elements.reverse.flatMap lexemes

end Element

/-- The lexeme of a markup comment whose `<!--` ends at the given cursor; its
value is what stands before `-->`. -/
def markupComment (lt : Lexeme) (cursor : Cursor) : Except LexicalError Lexeme :=
  match Text.find? "-->".toList cursor.rest with
  | some count =>
      .ok
        { kind := .xhpComment
          start := lt.start
          stop := cursor.advance (count + 3)
          literal := some (cursor.rest.take count) }
  | none => .error (.unclosed .unterminatedComment (lt.start.spanTo cursor) cursor)

end HackLexer
