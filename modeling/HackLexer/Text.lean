/-!
# Texts

A text is a list of characters.  Offsets into it count the bytes of its UTF-8
encoding, and only a line feed ends a line.

This module supplies these two measures, cuts at byte offsets, and the
searches from which the lexer is made.
-/

namespace HackLexer

/-- The characters of a source text or of a part of one. -/
abbrev Text := List Char

namespace Text

/-- Number of bytes in the UTF-8 encoding of a text. -/
def byteLength (text : Text) : Nat :=
  text.foldr (fun character bytes => character.utf8Size + bytes) 0

def lineFeeds (text : Text) : Nat :=
  text.count '\n'

/-- Length of the longest prefix whose characters all pass a test. -/
def countWhile (test : Char → Bool) (text : Text) : Nat :=
  (text.takeWhile test).length

/-- The longest prefix of whole characters that fits into the given bytes. -/
def takeBytes : Nat → Text → Text
  | _, [] => []
  | bytes, character :: rest =>
      if character.utf8Size ≤ bytes then
        character :: takeBytes (bytes - character.utf8Size) rest
      else
        []

/-- What `takeBytes` leaves over. -/
def dropBytes : Nat → Text → Text
  | _, [] => []
  | bytes, character :: rest =>
      if character.utf8Size ≤ bytes then
        dropBytes (bytes - character.utf8Size) rest
      else
        character :: rest

/-- Whether an offset lies between two characters or at an end of the text. -/
def isBoundary (text : Text) (offset : Nat) : Bool :=
  byteLength (takeBytes offset text) == offset

def slice (text : Text) (start stop : Nat) : Text :=
  takeBytes (stop - start) (dropBytes start text)

/-- Searches for the first occurrence of a pattern, counting characters from
the given index. -/
def findFrom (pattern : Text) (index : Nat) (text : Text) : Option Nat :=
  if pattern.isPrefixOf text then
    some index
  else
    match text with
    | [] => none
    | _ :: rest => findFrom pattern (index + 1) rest

/-- Number of characters in front of the first occurrence of a pattern. -/
def find? (pattern text : Text) : Option Nat :=
  findFrom pattern 0 text

/-- Removes the longest suffix whose characters all pass a test. -/
def trimEnd (test : Char → Bool) (text : Text) : Text :=
  (text.reverse.dropWhile test).reverse

def decimal (number : Nat) : Text :=
  Nat.toDigits 10 number

@[simp]
theorem byteLength_nil : byteLength [] = 0 := rfl

@[simp]
theorem byteLength_cons (character : Char) (rest : Text) :
    byteLength (character :: rest) = character.utf8Size + byteLength rest := rfl

@[simp]
theorem byteLength_append (left right : Text) :
    byteLength (left ++ right) = byteLength left + byteLength right := by
  induction left with
  | nil => simp
  | cons character left hypothesis =>
      simp [hypothesis, Nat.add_assoc]

@[simp]
theorem lineFeeds_nil : lineFeeds [] = 0 := rfl

@[simp]
theorem lineFeeds_append (left right : Text) :
    lineFeeds (left ++ right) = lineFeeds left + lineFeeds right := by
  simp [lineFeeds]

/-- Cutting where a prefix ends gives back that prefix. -/
@[simp]
theorem takeBytes_append (left right : Text) :
    takeBytes (byteLength left) (left ++ right) = left := by
  induction left with
  | nil =>
      cases right with
      | nil => rfl
      | cons character rest =>
          have positive := character.utf8Size_pos
          simp [takeBytes]
          omega
  | cons character left hypothesis =>
      simp [takeBytes, hypothesis]

@[simp]
theorem dropBytes_append (left right : Text) :
    dropBytes (byteLength left) (left ++ right) = right := by
  induction left with
  | nil =>
      cases right with
      | nil => rfl
      | cons character rest =>
          have positive := character.utf8Size_pos
          simp [dropBytes]
          omega
  | cons character left hypothesis =>
      simp [dropBytes, hypothesis]

end Text

end HackLexer
