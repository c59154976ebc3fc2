import HackLexer.Token.Keyword

/-!
# Kinds of tokens

Every token has a kind with a stable name.  All keywords share one constructor.
-/

namespace HackLexer

inductive TokenKind where
  | unsafeExpr
  | fixmeExpr
  | int
  | float
  | quotedString
  | doubleQuotedString
  | heredoc
  | nowdoc
  | word
  | keyword (reserved : Keyword)
  | lvar
  | dollar
  /-- Listed only: a lone underscore is a word. -/
  | underscore
  | php
  | hh
  | closePhp
  | xhpName
  | xhpClosing
  | xhpComment
  | leftParenthesis
  | rightParenthesis
  | leftBrace
  | rightBrace
  | leftBracket
  | rightBracket
  | semicolon
  | comma
  | colon
  | colonColon
  | eq
  | eqEq
  | eqEqEq
  | bangEq
  | bangEqEq
  | barEq
  | plusEq
  | minusEq
  | starEq
  | slashEq
  | dotEq
  | percentEq
  | caretEq
  | ampEq
  | shiftLeftEq
  | shiftRightEq
  | lt
  | gt
  | ltEq
  | gtEq
  | plus
  | minus
  | star
  | slash
  | percent
  | caret
  | amp
  | bar
  | tilde
  | bang
  | ampAmp
  | barBar
  | shiftLeft
  | shiftRight
  | increment
  | decrement
  | dot
  | ellipsis
  | arrow
  | nullsafeArrow
  | doubleArrow
  | lambda
  | question
  | atSign
  | required
  | backtick
  deriving DecidableEq, Repr

namespace TokenKind

/-- The stable name of a kind and the label under which it is listed. -/
structure Entry where
  name : String
  label : String

def entry : TokenKind → Entry
  | .unsafeExpr => ⟨"T_UNSAFE_EXPR", "UnsafeExpr"⟩
  | .fixmeExpr => ⟨"T_FIXME_EXPR", "FixmeExpr"⟩
  | .int => ⟨"T_INT", "Int"⟩
  | .float => ⟨"T_FLOAT", "Float"⟩
  | .quotedString => ⟨"T_QUOTED_STRING", "QuotedString"⟩
  | .doubleQuotedString => ⟨"T_DOUBLE_QUOTED_STRING", "DoubleQuotedString"⟩
  | .heredoc => ⟨"T_HEREDOC", "Heredoc"⟩
  | .nowdoc => ⟨"T_NOWDOC", "Nowdoc"⟩
  | .word => ⟨"T_WORD", "Word"⟩
  | .keyword reserved => ⟨reserved.name, "Keyword(" ++ reserved.label ++ ")"⟩
  | .lvar => ⟨"T_LVAR", "Lvar"⟩
  | .dollar => ⟨"T_DOLLAR", "Dollar"⟩
  | .underscore => ⟨"T_UNDERSCORE", "Underscore"⟩
  | .php => ⟨"T_PHP", "Php"⟩
  | .hh => ⟨"T_HH", "Hh"⟩
  | .closePhp => ⟨"T_CLOSE_PHP", "ClosePhp"⟩
  | .xhpName => ⟨"T_XHP_NAME", "XhpName"⟩
  | .xhpClosing => ⟨"T_XHP_CLOSING", "XhpClosing"⟩
  | .xhpComment => ⟨"T_XHP_COMMENT", "XhpComment"⟩
  | .leftParenthesis => ⟨"T_LP", "LeftParenthesis"⟩
  | .rightParenthesis => ⟨"T_RP", "RightParenthesis"⟩
  | .leftBrace => ⟨"T_LCB", "LeftBrace"⟩
  | .rightBrace => ⟨"T_RCB", "RightBrace"⟩
  | .leftBracket => ⟨"T_LB", "LeftBracket"⟩
  | .rightBracket => ⟨"T_RB", "RightBracket"⟩
  | .semicolon => ⟨"T_SC", "Semicolon"⟩
  | .comma => ⟨"T_COMMA", "Comma"⟩
  | .colon => ⟨"T_COL", "Colon"⟩
  | .colonColon => ⟨"T_COLCOL", "ColonColon"⟩
  | .eq => ⟨"T_EQ", "Eq"⟩
  | .eqEq => ⟨"T_EQEQ", "EqEq"⟩
  | .eqEqEq => ⟨"T_EQEQEQ", "EqEqEq"⟩
  | .bangEq => ⟨"T_DIFF", "BangEq"⟩
  | .bangEqEq => ⟨"T_DIFF2", "BangEqEq"⟩
  | .barEq => ⟨"T_BAREQ", "BarEq"⟩
  | .plusEq => ⟨"T_PLUSEQ", "PlusEq"⟩
  | .minusEq => ⟨"T_MINUSEQ", "MinusEq"⟩
  | .starEq => ⟨"T_STAREQ", "StarEq"⟩
  | .slashEq => ⟨"T_SLASHEQ", "SlashEq"⟩
  | .dotEq => ⟨"T_DOTEQ", "DotEq"⟩
  | .percentEq => ⟨"T_PERCENTEQ", "PercentEq"⟩
  | .caretEq => ⟨"T_XOREQ", "CaretEq"⟩
  | .ampEq => ⟨"T_AMPEQ", "AmpEq"⟩
  | .shiftLeftEq => ⟨"T_LSHIFTEQ", "ShiftLeftEq"⟩
  | .shiftRightEq => ⟨"T_RSHIFTEQ", "ShiftRightEq"⟩
  | .lt => ⟨"T_LT", "Lt"⟩
  | .gt => ⟨"T_GT", "Gt"⟩
  | .ltEq => ⟨"T_LTE", "LtEq"⟩
  | .gtEq => ⟨"T_GTE", "GtEq"⟩
  | .plus => ⟨"T_PLUS", "Plus"⟩
  | .minus => ⟨"T_MINUS", "Minus"⟩
  | .star => ⟨"T_STAR", "Star"⟩
  | .slash => ⟨"T_SLASH", "Slash"⟩
  | .percent => ⟨"T_PERCENT", "Percent"⟩
  | .caret => ⟨"T_XOR", "Caret"⟩
  | .amp => ⟨"T_AMP", "Amp"⟩
  | .bar => ⟨"T_BAR", "Bar"⟩
  | .tilde => ⟨"T_TILD", "Tilde"⟩
  | .bang => ⟨"T_EM", "Bang"⟩
  | .ampAmp => ⟨"T_AMPAMP", "AmpAmp"⟩
  | .barBar => ⟨"T_BARBAR", "BarBar"⟩
  | .shiftLeft => ⟨"T_LTLT", "ShiftLeft"⟩
  | .shiftRight => ⟨"T_GTGT", "ShiftRight"⟩
  | .increment => ⟨"T_INCR", "Increment"⟩
  | .decrement => ⟨"T_DECR", "Decrement"⟩
  | .dot => ⟨"T_DOT", "Dot"⟩
  | .ellipsis => ⟨"T_ELLIPSIS", "Ellipsis"⟩
  | .arrow => ⟨"T_ARROW", "Arrow"⟩
  | .nullsafeArrow => ⟨"T_NSARROW", "NullsafeArrow"⟩
  | .doubleArrow => ⟨"T_SARROW", "DoubleArrow"⟩
  | .lambda => ⟨"T_LAMBDA", "Lambda"⟩
  | .question => ⟨"T_QM", "Question"⟩
  | .atSign => ⟨"T_AT", "At"⟩
  | .required => ⟨"T_REQUIRED", "Required"⟩
  | .backtick => ⟨"T_BACKTICK", "Backtick"⟩

/-- The stable name, as in `T_LVAR`. -/
def name (kind : TokenKind) : String :=
  kind.entry.name

def label (kind : TokenKind) : String :=
  kind.entry.label

/-- Every kind that is not a keyword. -/
def plain : List TokenKind :=
  [
    .unsafeExpr, .fixmeExpr, .int, .float, .quotedString, .doubleQuotedString,
    .heredoc, .nowdoc, .word, .lvar, .dollar, .underscore, .php, .hh, .closePhp,
    .xhpName, .xhpClosing, .xhpComment, .leftParenthesis, .rightParenthesis,
    .leftBrace, .rightBrace, .leftBracket, .rightBracket, .semicolon, .comma, .colon,
    .colonColon, .eq, .eqEq, .eqEqEq, .bangEq, .bangEqEq, .barEq, .plusEq, .minusEq,
    .starEq, .slashEq, .dotEq, .percentEq, .caretEq, .ampEq, .shiftLeftEq,
    .shiftRightEq, .lt, .gt, .ltEq, .gtEq, .plus, .minus, .star, .slash, .percent,
    .caret, .amp, .bar, .tilde, .bang, .ampAmp, .barBar, .shiftLeft, .shiftRight,
    .increment, .decrement, .dot, .ellipsis, .arrow, .nullsafeArrow, .doubleArrow,
    .lambda, .question, .atSign, .required, .backtick]

/-- Every kind once, the keywords last. -/
def all : List TokenKind :=
  plain ++ Keyword.all.map .keyword

end TokenKind

end HackLexer
