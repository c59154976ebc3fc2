import HackLexer.Text

/-!
# Painted texts

Diagnostics are painted for a terminal: a painted text carries at most one
colour and at most one style, and its escape codes are closed behind it.
-/

namespace HackLexer

/-- A weight or decoration of painted text. -/
inductive Style where
  | bold
  | underline
  deriving DecidableEq, Repr

/-- A colour of painted text. -/
inductive Color where
  | red
  | cyan
  deriving DecidableEq, Repr

/-- A text with an optional colour and an optional style. -/
structure Painted where
  text : Text
  color : Option Color
  style : Option Style
  deriving DecidableEq, Repr

def Style.code : Style → Text
  | .bold => "\x1b[1m".toList
  | .underline => "\x1b[4m".toList

def Color.code : Color → Text
  | .red => "\x1b[31m".toList
  | .cyan => "\x1b[36m".toList

def Style.paint (style : Style) (text : Text) : Painted :=
  { text, color := none, style := some style }

def Color.paint (color : Color) (text : Text) : Painted :=
  { text, color := some color, style := none }

namespace Painted

def withStyle (painted : Painted) (style : Style) : Painted :=
  { painted with style := some style }

/-- The characters sent to the terminal: the style's code comes before the
colour's. -/
def render (painted : Painted) : Text :=
  ((painted.style.map Style.code).getD []) ++ ((painted.color.map Color.code).getD []) ++
    painted.text ++ "\x1b[0m".toList

end Painted

/-- An error message as it is printed: a painted heading and the bold text. -/
def errorMessage (text : Text) : Text :=
  ((Color.red.paint "[error]:".toList).withStyle .bold).render ++ [' '] ++
    (Style.bold.paint text).render

end HackLexer
