import HackLexer.Text
import HackLexer.Token.Kind

/-!
# Punctuation

The tokens with a fixed spelling.  The table lists a spelling before every
spelling that is a prefix of it, so the first match is the longest one.
-/

namespace HackLexer

/-- The fixed spellings and their kinds. -/
def punctuations : List (Text × TokenKind) :=
  [
    ("@required".toList, .required),
    ("<?php".toList, .php),
    ("<?hh".toList, .hh),
    ("===".toList, .eqEqEq),
    ("==>".toList, .lambda),
    ("!==".toList, .bangEqEq),
    ("<<=".toList, .shiftLeftEq),
    (">>=".toList, .shiftRightEq),
    ("...".toList, .ellipsis),
    ("?->".toList, .nullsafeArrow),
    ("?>".toList, .closePhp),
    ("::".toList, .colonColon),
    ("==".toList, .eqEq),
    ("=>".toList, .doubleArrow),
    ("!=".toList, .bangEq),
    ("|=".toList, .barEq),
    ("+=".toList, .plusEq),
    ("*=".toList, .starEq),
    ("/=".toList, .slashEq),
    (".=".toList, .dotEq),
    ("-=".toList, .minusEq),
    ("%=".toList, .percentEq),
    ("^=".toList, .caretEq),
    ("&=".toList, .ampEq),
    ("||".toList, .barBar),
    ("&&".toList, .ampAmp),
    ("++".toList, .increment),
    ("--".toList, .decrement),
    ("->".toList, .arrow),
    ("<<".toList, .shiftLeft),
    ("<=".toList, .ltEq),
    (">>".toList, .shiftRight),
    (">=".toList, .gtEq),
    ("@".toList, .atSign),
    ("`".toList, .backtick),
    ("(".toList, .leftParenthesis),
    (")".toList, .rightParenthesis),
    (";".toList, .semicolon),
    (":".toList, .colon),
    (",".toList, .comma),
    ("=".toList, .eq),
    ("!".toList, .bang),
    ("|".toList, .bar),
    ("&".toList, .amp),
    ("+".toList, .plus),
    ("-".toList, .minus),
    ("<".toList, .lt),
    (">".toList, .gt),
    ("*".toList, .star),
    ("/".toList, .slash),
    ("^".toList, .caret),
    ("%".toList, .percent),
    ("\x7b".toList, .leftBrace),
    ("\x7d".toList, .rightBrace),
    ("[".toList, .leftBracket),
    ("]".toList, .rightBracket),
    (".".toList, .dot),
    ("?".toList, .question),
    ("~".toList, .tilde)]

/-- The fixed spelling at the front of a text: its kind and its length. -/
def punctuation? (text : Text) : Option (TokenKind × Nat) :=
  (punctuations.find? fun entry => entry.1.isPrefixOf text).map
    fun entry => (entry.2, entry.1.length)

theorem length_pos_of_mem_punctuations :
    ∀ entry ∈ punctuations, 0 < entry.1.length := by
  decide

theorem punctuation?_positive {text : Text} {kind : TokenKind} {count : Nat}
    (found : punctuation? text = some (kind, count)) : 0 < count := by
  obtain ⟨entry, first, same⟩ := Option.map_eq_some_iff.mp found
  have positive := length_pos_of_mem_punctuations entry (List.mem_of_find?_eq_some first)
  simp only [Prod.mk.injEq] at same
  omega

end HackLexer
