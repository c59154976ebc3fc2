import HackLexer.Lexer
import HackLexer.Proofs.Cuts

/-!
# A lexer over byte offsets with one stack of modes

The state of this lexer is a byte offset, a line and one stack on which open
literals, interpolations and elements may stand in any order.  Whatever it takes
from the source it cuts out at byte offsets.  An operation whose operands are
not in its domain gives no result at all: a cut between the bytes of a
character or behind the end, a pop from an empty list, a brace count that would
fall below zero, a mode that meets a token it has no use for, or a loop that
takes more turns than the source has bytes.  A lexer that meets one of them is
stuck.

Nothing in the types keeps this lexer from getting stuck.
-/

namespace HackLexer

namespace ModeStack

/-- The forms of open literals.  A heredoc keeps the offset behind its label. -/
inductive Form where
  | doubleQuoted
  | heredoc (label : Text) (headerEnd : Nat) (atLineStart : Bool)
  deriving DecidableEq

/-- A literal whose body is being read. -/
structure Literal where
  start : Nat
  line : Nat
  value : Text
  form : Form
  deriving DecidableEq

/-- How far an element has been read. -/
inductive Phase where
  | openingTag
  | children
  | closingTag (lt slash : Token) (name : List Token)
  /-- The closing tag has become a token. -/
  | closed
  deriving DecidableEq

/-- An element under construction, with its tokens in order. -/
structure Markup where
  tokens : List Token
  phase : Phase
  deriving DecidableEq

/-- What can stand on the stack. -/
inductive Mode where
  | literal (literal : Literal)
  /-- An interpolation with the text of its tokens so far. -/
  | interpolation (text : Text) (depth : Nat)
  | markup (markup : Markup)
  deriving DecidableEq

/-- The state of the lexer. -/
structure Machine where
  cursor : Nat
  line : Nat
  /-- The modes, innermost first. -/
  modes : List Mode
  pending : List Token
  comments : Array Comment
  deriving DecidableEq

/-- What a scan gives. -/
inductive Finding where
  | token (token : Token)
  | skipped
  | enter (mode : Mode)
  | finished

/-- What an element says to a token. -/
inductive Progress where
  | pending (markup : Markup)
  /-- A markup comment begins, and this is its `<`. -/
  | comment (lt : Token) (markup : Markup)
  | complete (markup : Markup)

/-- What one pass through the loop of the lexer gives. -/
inductive Pass where
  | moved (after : Machine)
  | token (token : Token) (after : Machine)
  | endOfText (after : Machine)
  | failed (error : LexicalError)

/-- The characters of a token, cut out of the source. -/
def raw? (source : Source) (token : Token) : Option Text :=
  source.slice? token.span.start token.span.stop

def decrement? : Nat → Option Nat
  | 0 => none
  | count + 1 => some count

/-- Whether a line closes a doc string with the given label. -/
def isTerminator (line label : Text) : Bool :=
  label.isPrefixOf line && !(line.drop label.length).head?.any isAlphanumeric

/-- More turns than any loop over a source takes. -/
def turns (source : Source) : Nat :=
  Text.byteLength source.content + 1

/-- A suppression marker at the front of a text.  The texts behind the opener
and behind the blanks are cut out. -/
def suppressionMarker? (rest : Text) : Option (Option (TokenKind × Nat)) :=
  let search (kind : TokenKind) (marker : Text) : Option (Option (TokenKind × Nat)) := do
    let behind ← rest.tail? 2
    let padding := 2 + Text.countWhile isBlank behind
    let marked ← rest.tail? padding
    return if marker.isPrefixOf marked then some (kind, padding + marker.length) else none
  if "//".toList.isPrefixOf rest then
    search .unsafeExpr "UNSAFE_EXPR".toList
  else if "/*".toList.isPrefixOf rest then
    search .fixmeExpr "HH_FIXME".toList
  else
    some none

/-- The error about a literal that the end of the text leaves open. -/
def Literal.unterminated? (literal : Literal) (source : Source) (line : Nat) :
    Option LexicalError :=
  match literal.form with
  | .doubleQuoted => do
      let span ← source.span? literal.start (literal.start + 1)
      return { cause := .unterminatedString .double, span, line }
  | .heredoc _ headerEnd _ => do
      let span ← source.span? literal.start headerEnd
      return { cause := .unterminatedDocString .heredoc, span, line }

/-- A part of the body of a literal that has been read, and how reading it
ended. -/
structure BodyRead where
  value : Text
  cursor : Nat
  line : Nat
  atLineStart : Bool
  ending : Ending

/-- The character behind a backslash, with the offset and the line behind it. -/
def takeEscape? (source : Source) (cursor line : Nat) :
    Option (Option Char × Nat × Nat) := do
  let behind ← source.content.tail? (cursor + 1)
  match behind.head? with
  | none => return (none, cursor + 1, line)
  | some code => return (some code, cursor + 1 + code.utf8Size, lineBehind line code)

def doubleQuotedBody? (source : Source) :
    Nat → Text → Nat → Nat → Option BodyRead
  | 0, _, _, _ => none
  | fuel + 1, value, cursor, line => do
      let rest ← source.content.tail? cursor
      match rest.head? with
      | none => return { value, cursor, line, atLineStart := false, ending := .endOfText }
      | some '"' =>
          return { value, cursor := cursor + 1, line, atLineStart := false,
                   ending := .closed }
      | some '\x7b' =>
          return { value, cursor := cursor + 1, line, atLineStart := false,
                   ending := .interpolation }
      | some '\\' =>
          match ← takeEscape? source cursor line with
          | (none, cursor, line) =>
              return { value, cursor, line, atLineStart := false, ending := .endOfText }
          | (some code, cursor, line) =>
              doubleQuotedBody? source fuel (value ++ DoubleQuoted.unescape code) cursor line
      | some character =>
          doubleQuotedBody? source fuel (value ++ [character])
            (cursor + character.utf8Size) (lineBehind line character)

def heredocBody? (source : Source) (label : Text) :
    Nat → Bool → Text → Nat → Nat → Option BodyRead
  | 0, _, _, _, _ => none
  | fuel + 1, atLineStart, value, cursor, line => do
      let rest ← source.content.tail? cursor
      if atLineStart && isTerminator rest label then
        return { value, cursor := cursor + Text.byteLength label, line, atLineStart,
                 ending := .closed }
      else
        match rest.head? with
        | none => return { value, cursor, line, atLineStart := false, ending := .endOfText }
        | some '\x7b' =>
            return { value, cursor := cursor + 1, line, atLineStart := false,
                     ending := .interpolation }
        | some '\\' =>
            match ← takeEscape? source cursor line with
            | (none, cursor, line) =>
                return { value, cursor, line, atLineStart := false, ending := .endOfText }
            | (some code, cursor, line) =>
                heredocBody? source label fuel false (value ++ ['\\', code]) cursor line
        | some character =>
            heredocBody? source label fuel (character == '\n') (value ++ [character])
              (cursor + character.utf8Size) (lineBehind line character)

namespace Literal

def body? (literal : Literal) (source : Source) (cursor line : Nat) : Option BodyRead :=
  match literal.form with
  | .doubleQuoted => doubleQuotedBody? source (turns source) literal.value cursor line
  | .heredoc label _ atLineStart =>
      heredocBody? source label (turns source) atLineStart literal.value cursor line

def kind (literal : Literal) : TokenKind :=
  match literal.form with
  | .doubleQuoted => .doubleQuotedString
  | .heredoc _ _ _ => .heredoc

/-- The literal when a part of its body has been read. -/
def behind (literal : Literal) (read : BodyRead) : Literal :=
  { literal with
    value := read.value
    form :=
      match literal.form with
      | .doubleQuoted => .doubleQuoted
      | .heredoc label headerEnd _ => .heredoc label headerEnd read.atLineStart }

end Literal

/-- Reads a single-quoted string byte by byte.  What stands between `segment`
and the cursor has not been added to the value yet.  Gives the value and the
offset and the line behind the closing quote. -/
def singleQuotedBody? (source : Source) (start : Nat) :
    Nat → Text → Nat → Nat → Nat → Option (Except LexicalError (Text × Nat × Nat))
  | 0, _, _, _, _ => none
  | fuel + 1, value, segment, cursor, line =>
      match (Text.bytes source.content)[cursor]? with
      | none => do
          let span ← source.span? start (start + 1)
          return .error { cause := .unterminatedString .single, span, line }
      | some byte =>
          if byte = 0x27 then do
            let piece ← source.slice? segment cursor
            return .ok (value ++ piece, cursor + 1, line)
          else if byte = 0x5c ∧
              ((Text.bytes source.content)[cursor + 1]? = some 0x27 ∨
                (Text.bytes source.content)[cursor + 1]? = some 0x5c) then do
            let piece ← source.slice? segment cursor
            let code ← (Text.bytes source.content)[cursor + 1]?
            singleQuotedBody? source start fuel (value ++ piece ++ [Char.ofNat code.toNat])
              (cursor + 2) (cursor + 2) line
          else
            singleQuotedBody? source start fuel value segment (cursor + 1)
              (if byte = 0x0a then line + 1 else line)

/-- Looks for the line that closes a nowdoc.  Gives its offset and its number,
or the number of the last line if there is none. -/
def nowdocEnd? (source : Source) (label : Text) :
    Nat → Nat → Nat → Option (Except Nat (Nat × Nat))
  | 0, _, _ => none
  | fuel + 1, cursor, line => do
      let rest ← source.content.tail? cursor
      if isTerminator rest label then
        return .ok (cursor, line)
      else
        match Text.findOffset? ['\n'] rest with
        | none => return .error line
        | some lineEnd =>
            nowdocEnd? source label fuel (cursor + lineEnd + 1) (line + 1)

namespace Markup

def opened (name : Token) : Markup :=
  { tokens := [name], phase := .openingTag }

/-- The kind of the last token and of the one in front of it. -/
def lastKinds (tokens : List Token) : Option TokenKind × Option TokenKind :=
  (tokens.dropLast.getLast?.map Token.kind, tokens.getLast?.map Token.kind)

def push? (markup : Markup) (source : Source) (token : Token) : Option Progress :=
  match markup.phase with
  | .openingTag =>
      let tokens := markup.tokens ++ [token]
      if token.kind = .gt then
        if (lastKinds tokens).1 = some .slash then
          some (.complete { markup with tokens })
        else
          some (.pending { tokens, phase := .children })
      else
        some (.pending { markup with tokens })
  | .children =>
      if (lastKinds markup.tokens).2 = some .lt ∧ token.kind = .slash then do
        let lt ← markup.tokens.getLast?
        return .pending
          { tokens := markup.tokens.dropLast, phase := .closingTag lt token [] }
      else if lastKinds markup.tokens = (some .lt, some .bang) ∧
          token.kind = .decrement then do
        let lt ← markup.tokens.dropLast.getLast?
        return .comment lt { markup with tokens := markup.tokens.dropLast.dropLast }
      else
        some (.pending { markup with tokens := markup.tokens ++ [token] })
  | .closingTag lt slash name =>
      if token.kind = .gt then do
        let span ← source.span? lt.span.start token.span.stop
        let texts ← name.mapM (raw? source)
        let closing : Token :=
          { kind := .xhpClosing, span, line := lt.line, literal := some texts.flatten }
        return .complete { tokens := markup.tokens ++ [closing], phase := .closed }
      else
        some (.pending { markup with phase := .closingTag lt slash (name ++ [token]) })
  | .closed => none

/-- Adds the tokens of an element inside this one. -/
def extend (markup : Markup) (tokens : List Token) : Markup :=
  match markup.phase with
  | .closingTag lt slash name =>
      { markup with phase := .closingTag lt slash (name ++ tokens) }
  | _ => { markup with tokens := markup.tokens ++ tokens }

def intoTokens (markup : Markup) : List Token :=
  match markup.phase with
  | .closingTag lt slash name => markup.tokens ++ lt :: slash :: name
  | _ => markup.tokens

end Markup

namespace Machine

def start : Machine :=
  { cursor := 0, line := 0, modes := [], pending := [], comments := #[] }

/-- The token of the next bytes. -/
def token? (machine : Machine) (source : Source) (kind : TokenKind) (length : Nat) :
    Option (Token × Machine) := do
  let stop := machine.cursor + length
  let span ← source.span? machine.cursor stop
  return ({ kind, span, line := machine.line, literal := none },
    { machine with cursor := stop })

def recordLineComment? (machine : Machine) (source : Source) (start : Nat) :
    Option Machine := do
  let rest ← source.content.tail? machine.cursor
  let (stop, line) :=
    match Text.findOffset? ['\n'] rest with
    | some lineEnd => (machine.cursor + lineEnd + 1, machine.line + 1)
    | none => (Text.byteLength source.content, machine.line)
  let span ← source.span? start stop
  return { machine with
    cursor := stop, line, comments := machine.comments.push { kind := .line, span } }

/-- Records the block comment that starts at an offset; its `/*` stands at
`opening`. -/
def recordBlockComment? (machine : Machine) (source : Source) (start opening : Nat) :
    Option (Except LexicalError Machine) := do
  let rest ← source.content.tail? machine.cursor
  match Text.findOffset? "*/".toList rest with
  | none =>
      let span ← source.span? opening (opening + 2)
      return .error
        { cause := .unterminatedComment, span, line := machine.line + Text.lineFeeds rest }
  | some length =>
      let stop := machine.cursor + length + 2
      let passed ← source.slice? machine.cursor stop
      let span ← source.span? start stop
      return .ok { machine with
        cursor := stop
        line := machine.line + Text.lineFeeds passed
        comments := machine.comments.push { kind := .block, span } }

/-- Scans a suppression marker and records the rest of its comment. -/
def scanMarker? (machine : Machine) (source : Source) (kind : TokenKind)
    (length : Nat) : Option (Except LexicalError (Finding × Machine)) := do
  let (marker, behind) ← machine.token? source kind length
  match kind with
  | .fixmeExpr =>
      match ← behind.recordBlockComment? source behind.cursor machine.cursor with
      | .error error => return .error error
      | .ok after => return .ok (.token marker, after)
  | _ =>
      let after ← behind.recordLineComment? source behind.cursor
      return .ok (.token marker, after)

def scanSingleQuoted? (machine : Machine) (source : Source) :
    Option (Except LexicalError (Finding × Machine)) := do
  let body := machine.cursor + 1
  match ← singleQuotedBody? source machine.cursor (turns source) [] body body machine.line with
  | .error error => return .error error
  | .ok (value, stop, line) =>
      let span ← source.span? machine.cursor stop
      return .ok
        (.token { kind := .quotedString, span, line := machine.line, literal := some value },
          { machine with cursor := stop, line })

/-- The error about a doc string without a proper first line. -/
def invalidDocString? (machine : Machine) (source : Source) :
    Option (Except LexicalError (Finding × Machine)) := do
  let span ← source.span? machine.cursor (machine.cursor + 3)
  return .error { cause := .invalidDocString, span, line := machine.line }

/-- Scans a nowdoc whose header ends at an offset; the cursor is behind the line
break. -/
def scanNowdoc? (machine : Machine) (source : Source) (start line headerEnd : Nat)
    (label : Text) : Option (Except LexicalError (Finding × Machine)) := do
  match ← nowdocEnd? source label (turns source) machine.cursor machine.line with
  | .error last =>
      let span ← source.span? start headerEnd
      return .error { cause := .unterminatedDocString .nowdoc, span, line := last }
  | .ok (bodyEnd, last) =>
      let value ← source.slice? machine.cursor bodyEnd
      let stop := bodyEnd + Text.byteLength label
      let span ← source.span? start stop
      return .ok
        (.token { kind := .nowdoc, span, line, literal := some value },
          { machine with cursor := stop, line := last })

def scanHeader? (machine : Machine) (source : Source) (isNowdoc : Bool)
    (label : Text) (headerEnd : Nat) : Option (Except LexicalError (Finding × Machine)) := do
  let header ← source.content.tail? headerEnd
  match DocString.lineBreak? header with
  | none => machine.invalidDocString? source
  | some lineBreak =>
      let after :=
        { machine with cursor := headerEnd + lineBreak, line := machine.line + 1 }
      if isNowdoc then
        after.scanNowdoc? source machine.cursor machine.line headerEnd label
      else
        return .ok
          (.enter (.literal
            { start := machine.cursor
              line := machine.line
              value := []
              form := .heredoc label headerEnd true }),
            after)

/-- Scans a doc string up to the end of its first line, a nowdoc as a whole. -/
def scanDocString? (machine : Machine) (source : Source) :
    Option (Except LexicalError (Finding × Machine)) := do
  let opened ← source.content.tail? (machine.cursor + 3)
  let isNowdoc := opened.head? == some '\''
  let position := if isNowdoc then machine.cursor + 4 else machine.cursor + 3
  let behind ← source.content.tail? position
  match Label.ofText? behind with
  | none => machine.invalidDocString? source
  | some found =>
      let labelEnd := position + found.length
      let label ← source.slice? position labelEnd
      if isNowdoc then
        let quote ← source.content.tail? labelEnd
        if quote.head? = some '\'' then
          machine.scanHeader? source isNowdoc label (labelEnd + 1)
        else
          machine.invalidDocString? source
      else
        machine.scanHeader? source isNowdoc label labelEnd

/-- Scans a word; it is cut out to look for a keyword. -/
def scanWord? (machine : Machine) (source : Source) (rest : Text) (length : Nat) :
    Option (Except LexicalError (Finding × Machine)) := do
  let spelling ← rest.front? length
  let kind :=
    match Keyword.ofSpelling? spelling with
    | some keyword => TokenKind.keyword keyword
    | none => .word
  let (token, after) ← machine.token? source kind length
  return .ok (.token token, after)

def scanToken? (machine : Machine) (source : Source) (matched : TokenKind × Nat) :
    Option (Except LexicalError (Finding × Machine)) := do
  let (token, after) ← machine.token? source matched.1 matched.2
  return .ok (.token token, after)

/-- Scans what is told by its classes of characters or its spelling. -/
def scanSpelled? (machine : Machine) (source : Source) (markup : Bool)
    (first : Char) (rest : Text) : Option (Except LexicalError (Finding × Machine)) :=
  match number? rest with
  | some matched => machine.scanToken? source matched
  | none =>
      match Word.length rest with
      | length + 1 => machine.scanWord? source rest (length + 1)
      | 0 =>
          match dollar? rest with
          | some matched => machine.scanToken? source matched
          | none =>
              match if markup then markupName? rest else none with
              | some length => do
                  let (name, after) ← machine.token? source .xhpName length
                  return .ok (.enter (.markup (.opened name)), after)
              | none =>
                  match punctuation? rest with
                  | some matched => machine.scanToken? source matched
                  | none => do
                      let span ← source.span? machine.cursor
                        (machine.cursor + first.utf8Size)
                      return .error
                        { cause := .unknownToken, span, line := machine.line }

/-- Scans what is neither layout nor a suppression marker. -/
def scanUnmarked? (machine : Machine) (source : Source) (markup : Bool)
    (first : Char) (rest : Text) : Option (Except LexicalError (Finding × Machine)) :=
  if "/*".toList.isPrefixOf rest then do
    match ← { machine with cursor := machine.cursor + 2 }.recordBlockComment?
      source machine.cursor machine.cursor with
    | .error error => return .error error
    | .ok after => return .ok (.skipped, after)
  else if "//".toList.isPrefixOf rest || first == '#' then do
    let opener := if first = '#' then 1 else 2
    let after ← { machine with cursor := machine.cursor + opener }.recordLineComment?
      source machine.cursor
    return .ok (.skipped, after)
  else if first = '"' then
    some (.ok
      (.enter (.literal
        { start := machine.cursor, line := machine.line, value := [], form := .doubleQuoted }),
        { machine with cursor := machine.cursor + 1 }))
  else if first = '\'' then
    machine.scanSingleQuoted? source
  else if "<<<".toList.isPrefixOf rest then
    machine.scanDocString? source
  else
    machine.scanSpelled? source markup first rest

def scan? (machine : Machine) (source : Source) (markup : Bool) :
    Option (Except LexicalError (Finding × Machine)) := do
  let rest ← source.content.tail? machine.cursor
  match rest with
  | [] => return .ok (.finished, machine)
  | first :: _ =>
      if isBlank first then
        return .ok (.skipped,
          { machine with cursor := machine.cursor + Text.countWhile isBlank rest })
      else if first = '\n' then
        return .ok (.skipped,
          { machine with cursor := machine.cursor + 1, line := machine.line + 1 })
      else
        match ← suppressionMarker? rest with
        | some (kind, length) => machine.scanMarker? source kind length
        | none => machine.scanUnmarked? source markup first rest

/-- Reads on in the literal on top of the stack. -/
def scanLiteral? (machine : Machine) (source : Source) :
    Option (Except LexicalError (Finding × Machine)) :=
  match machine.modes with
  | .literal literal :: below => do
      let read ← literal.body? source machine.cursor machine.line
      let after := { machine with cursor := read.cursor, line := read.line, modes := below }
      match read.ending with
      | .closed =>
          let span ← source.span? literal.start read.cursor
          return .ok
            (.token
              { kind := literal.kind
                span
                line := literal.line
                literal := some read.value },
              after)
      | .interpolation =>
          return .ok
            (.enter (.interpolation ['\x7b'] 0),
              { after with modes := .literal (literal.behind read) :: below })
      | .endOfText =>
          let error ← literal.unterminated? source read.line
          return .error error
  | _ => none

/-- Scans the body of a markup comment whose `<` is given; the cursor is behind
its opener. -/
def scanMarkupComment? (machine : Machine) (source : Source) (lt : Token) :
    Option (Except LexicalError (Token × Machine)) := do
  let rest ← source.content.tail? machine.cursor
  match Text.findOffset? "-->".toList rest with
  | none =>
      let span ← source.span? lt.span.start machine.cursor
      return .error
        { cause := .unterminatedComment, span, line := machine.line + Text.lineFeeds rest }
  | some length =>
      let body ← rest.front? length
      let stop := machine.cursor + length + 3
      let span ← source.span? lt.span.start stop
      return .ok
        ({ kind := .xhpComment, span, line := lt.line, literal := some body },
          { machine with cursor := stop, line := machine.line + Text.lineFeeds body })

/-- Hands the tokens of an element to the element around it; without one they
become pending. -/
def handBack (machine : Machine) (markup : Markup) : Machine :=
  match machine.modes with
  | .markup parent :: below =>
      { machine with modes := .markup (parent.extend markup.intoTokens) :: below }
  | _ => { machine with pending := machine.pending ++ markup.intoTokens }

def deliverInside? (machine : Machine) (source : Source) (token : Token) (text : Text)
    (depth : Nat) (below : List Mode) : Option Machine := do
  let raw ← raw? source token
  let joined := text ++ raw
  if token.kind = .leftBrace then
    return { machine with modes := .interpolation joined (depth + 1) :: below }
  else if token.kind = .rightBrace then
    if depth = 0 then
      match below with
      | .literal literal :: outer =>
          return { machine with
            modes := .literal { literal with value := literal.value ++ joined } :: outer }
      | _ => none
    else
      let depth ← decrement? depth
      return { machine with modes := .interpolation joined depth :: below }
  else
    return { machine with modes := .interpolation joined depth :: below }

def deliverMarkup? (machine : Machine) (source : Source) (token : Token)
    (markup : Markup) (below : List Mode) : Option (Except LexicalError Machine) := do
  match ← markup.push? source token with
  | .pending markup => return .ok { machine with modes := .markup markup :: below }
  | .comment lt markup =>
      match ← machine.scanMarkupComment? source lt with
      | .error error => return .error error
      | .ok (comment, after) =>
          return .ok { after with
            modes :=
              .markup { markup with tokens := markup.tokens ++ [comment] } :: below }
  | .complete markup => return .ok ({ machine with modes := below }.handBack markup)

def deliver? (machine : Machine) (source : Source) (token : Token) : Option Pass :=
  match machine.modes with
  | [] => some (.token token machine)
  | .interpolation text depth :: below => do
      let after ← machine.deliverInside? source token text depth below
      return .moved after
  | .markup markup :: below => do
      match ← machine.deliverMarkup? source token markup below with
      | .error error => return .failed error
      | .ok after => return .moved after
  | .literal _ :: _ => none

theorem length_modes_handBack (machine : Machine) (markup : Markup) :
    (machine.handBack markup).modes.length = machine.modes.length := by
  unfold handBack
  split
  · rename_i parent below modes
    rw [modes]
    rfl
  · rfl

/-- Pops all modes at the end of the text. -/
def finish? (machine : Machine) (source : Source) : Option Pass :=
  match _opened : machine.modes with
  | [] =>
      match machine.pending with
      | [] => some (.endOfText machine)
      | token :: more => some (.token token { machine with pending := more })
  | .literal literal :: _ => do
      let error ← literal.unterminated? source machine.line
      return .failed error
  | .interpolation _ _ :: below => finish? { machine with modes := below } source
  | .markup markup :: below =>
      finish? ({ machine with modes := below }.handBack markup) source
termination_by machine.modes.length
decreasing_by
  · simp [_opened]
  · rw [length_modes_handBack]
    simp [_opened]

def accept? (source : Source) :
    Except LexicalError (Finding × Machine) → Option Pass
  | .error error => some (.failed error)
  | .ok (.token token, after) => after.deliver? source token
  | .ok (.skipped, after) => some (.moved after)
  | .ok (.enter mode, after) => some (.moved { after with modes := mode :: after.modes })
  | .ok (.finished, after) => after.finish? source

def pass? (machine : Machine) (source : Source) : Option Pass :=
  match machine.pending with
  | token :: more => some (.token token { machine with pending := more })
  | [] => do
      let scanned ←
        match machine.modes with
        | .literal _ :: _ => machine.scanLiteral? source
        | .interpolation _ _ :: _ => machine.scan? source false
        | _ => machine.scan? source true
      accept? source scanned

/-- Passes through the loop until one of them gives an answer. -/
def answer? (source : Source) : Nat → Machine → Option Pass
  | 0, _ => none
  | fuel + 1, machine => do
      match ← machine.pass? source with
      | .moved after => answer? source fuel after
      | answer => return answer

def next? (machine : Machine) (source : Source) : Option Pass :=
  answer? source (turns source) machine

end Machine

end ModeStack

end HackLexer
