import HackLexer.Lexeme.Marker
import HackLexer.Lexeme.Number
import HackLexer.Lexeme.Punctuation
import HackLexer.Lexeme.Word
import HackLexer.StringLiteral.DocString
import Mathlib.Computability.Language
import Mathlib.Order.CompletePartialOrder

/-!
# The languages of tokens

What the characters of a token look like in the source depends on its kind: a
fixed spelling, a regular language such as that of numbers, or what stands
between two delimiters.  The languages are given here without reference to the
way in which the lexer finds its tokens.
-/

namespace HackLexer

open scoped Computability

namespace Grammar

/-- One character of a class. -/
def oneOf (test : Char → Bool) : Language Char :=
  {text | ∃ character, test character ∧ text = [character]}

def spelling (text : String) : Language Char :=
  {text.toList}

/-- Texts of a language one behind the other, at least one. -/
def oneOrMore (language : Language Char) : Language Char :=
  language * language∗

def anything : Language Char :=
  ⊤

def isPositiveDigit (character : Char) : Bool :=
  character.isDigit && character != '0'

def isExponentMark (character : Char) : Bool :=
  character == 'e' || character == 'E'

def digit : Language Char :=
  oneOf Char.isDigit

/-- Hexadecimal, binary, octal and decimal integers. -/
def int : Language Char :=
  spelling "0x" * oneOrMore (oneOf isHexDigit) + spelling "0b" * oneOrMore (oneOf isBinaryDigit) +
    spelling "0" * (oneOf isOctalDigit)∗ + oneOf isPositiveDigit * digit∗

def exponent : Language Char :=
  oneOf isExponentMark * (1 + spelling "+" + spelling "-") * oneOrMore digit

/-- Digits with a point, with an exponent or with both. -/
def float : Language Char :=
  oneOrMore digit * spelling "." * digit∗ * (1 + exponent) +
    spelling "." * oneOrMore digit * (1 + exponent) + oneOrMore digit * exponent

def identifier : Language Char :=
  oneOf isLetter * (oneOf isAlphanumeric)∗

/-- An identifier, or letters, digits and hyphens between a lower-case letter and
a letter or digit. -/
def atom : Language Char :=
  identifier + oneOf Char.isLower * (oneOf Word.isHyphenated)∗ * oneOf isAlphanumeric

def backslash : Language Char :=
  spelling "\\"

/-- Atoms with backslashes between them and perhaps in front of them. -/
def word : Language Char :=
  backslash∗ * atom * (oneOrMore backslash * atom)∗

def variableName : Language Char :=
  spelling "$" * identifier

/-- A letter, perhaps behind a percent sign, and letters, digits, hyphens and
colons that a letter or hyphen follows. -/
def markupName : Language Char :=
  (1 + spelling "%") * oneOf isLetter *
    (oneOf isAlphanumeric + spelling "-" + spelling ":" * (oneOf isLetter + spelling "-"))∗

/-- A comment opener and a marker with only blanks between them. -/
def marker (opener name : String) : Language Char :=
  spelling opener * (oneOf isBlank)∗ * spelling name

/-- Something between two delimiters. -/
def between (opener closer : String) : Language Char :=
  spelling opener * anything * spelling closer

def label : Language Char :=
  oneOf Char.isUpper * oneOrMore (oneOf Label.isPart)

def lineBreak : Language Char :=
  spelling "\n" + spelling "\r\n"

end Grammar

/-- What a doc string of a form opens with. -/
def DocString.opening (label : Text) : DocString → Text
  | .heredoc => "<<<".toList ++ label
  | .nowdoc => "<<<'".toList ++ label ++ "'".toList

theorem DocString.opening_heredoc (label : Text) :
    DocString.heredoc.opening label = "<<<".toList ++ label := rfl

theorem DocString.opening_nowdoc (label : Text) :
    DocString.nowdoc.opening label = "<<<'".toList ++ label ++ "'".toList := rfl

/-- A header with a label and a line break, a body and the same label again. -/
def DocString.language (form : DocString) : Language Char :=
  {text | ∃ label, label ∈ Grammar.label ∧ ∃ lineBreak, lineBreak ∈ Grammar.lineBreak ∧
    ∃ body, text = form.opening label ++ lineBreak ++ body ++ label}

namespace TokenKind

/-- What the characters of a token of a kind look like in the source. -/
def language : TokenKind → Language Char
  | .unsafeExpr => Grammar.marker "//" "UNSAFE_EXPR"
  | .fixmeExpr => Grammar.marker "/*" "HH_FIXME"
  | .int => Grammar.int
  | .float => Grammar.float
  | .quotedString => Grammar.between "'" "'"
  | .doubleQuotedString => Grammar.between "\"" "\""
  | .heredoc => DocString.language .heredoc
  | .nowdoc => DocString.language .nowdoc
  | .word => {text | text ∈ Grammar.word ∧ Keyword.ofSpelling? text = none}
  | .keyword reserved =>
      {text | text = reserved.spelling.toList ∨
        reserved = .boolCast ∧ text = "boolean".toList}
  | .lvar => Grammar.variableName
  | .dollar => Grammar.spelling "$"
  | .underscore => 0
  | .xhpName => Grammar.spelling "<" * Grammar.markupName
  | .xhpClosing => Grammar.between "<" ">"
  | .xhpComment => Grammar.between "<" "-->"
  | kind => {text | (text, kind) ∈ punctuations}

/-- Whether tokens of a kind carry a decoded value. -/
def hasValue : TokenKind → Bool
  | .quotedString | .doubleQuotedString | .heredoc | .nowdoc | .xhpClosing | .xhpComment => true
  | _ => false

end TokenKind

namespace Grammar

theorem mem_oneOf {test : Char → Bool} {character : Char} (passes : test character) :
    [character] ∈ oneOf test :=
  ⟨character, passes, rfl⟩

theorem mem_spelling (text : String) : text.toList ∈ spelling text :=
  rfl

theorem eq_of_mem_spelling {text : String} {shown : Text} (member : shown ∈ spelling text) :
    shown = text.toList :=
  member

theorem mem_anything (text : Text) : text ∈ anything :=
  trivial

theorem append_mem_star {language : Language Char} {first more : Text}
    (head : first ∈ language) (tail : more ∈ language∗) : first ++ more ∈ language∗ := by
  have included : language * language∗ ≤ language∗ := mul_kstar_le_kstar
  exact included (Language.append_mem_mul head tail)

theorem mem_star_oneOf {test : Char → Bool} {text : Text} :
    text ∈ (oneOf test)∗ ↔ ∀ character, character ∈ text → test character := by
  constructor
  · rintro ⟨parts, rfl, single⟩ character member
    obtain ⟨part, partMember, inside⟩ := List.mem_flatten.mp member
    obtain ⟨only, passes, rfl⟩ := single part partMember
    rwa [List.mem_singleton.mp inside]
  · intro passes
    induction text with
    | nil => exact Language.nil_mem_kstar _
    | cons first rest ih =>
        apply append_mem_star (mem_oneOf (passes first List.mem_cons_self))
        exact ih fun character member => passes character (List.mem_cons_of_mem _ member)

theorem mem_oneOrMore_oneOf {test : Char → Bool} {text : Text} :
    text ∈ oneOrMore (oneOf test) ↔
      text ≠ [] ∧ ∀ character, character ∈ text → test character := by
  constructor
  · rintro ⟨_, ⟨first, passes, rfl⟩, rest, more, rfl⟩
    refine ⟨List.cons_ne_nil _ _, ?_⟩
    intro character member
    rcases List.mem_cons.mp member with rfl | later
    · exact passes
    · exact mem_star_oneOf.mp more character later
  · rintro ⟨nonempty, passes⟩
    obtain ⟨first, rest, rfl⟩ := List.exists_cons_of_ne_nil nonempty
    apply Language.append_mem_mul (mem_oneOf (passes first List.mem_cons_self))
    exact mem_star_oneOf.mpr fun character member =>
      passes character (List.mem_cons_of_mem _ member)

theorem mem_between (opener closer : String) (inside : Text) :
    opener.toList ++ inside ++ closer.toList ∈ between opener closer :=
  Language.append_mem_mul
    (Language.append_mem_mul (mem_spelling opener) (mem_anything inside)) (mem_spelling closer)

end Grammar

end HackLexer
