import HackLexer.Text

/-!
# Bytes of a text

The encoding of a text is the concatenation of the encodings of its
characters, so byte offsets and sums of character sizes are the same thing.
-/

namespace HackLexer

namespace Text

def bytes (text : Text) : List UInt8 :=
  text.flatMap String.utf8EncodeChar

@[simp]
theorem bytes_nil : bytes [] = [] := rfl

@[simp]
theorem bytes_cons (character : Char) (rest : Text) :
    bytes (character :: rest) = String.utf8EncodeChar character ++ bytes rest := by
  simp [bytes]

@[simp]
theorem bytes_append (left right : Text) :
    bytes (left ++ right) = bytes left ++ bytes right := by
  simp [bytes]

@[simp]
theorem length_bytes (text : Text) : (bytes text).length = byteLength text := by
  induction text with
  | nil => rfl
  | cons character rest induction => simp [induction]

/-- The bytes between two offsets are the bytes of the characters there. -/
theorem mem_bytes_of_getElem? {front middle behind : Text} {offset : Nat}
    {byte : UInt8} (found : (bytes (front ++ (middle ++ behind)))[offset]? = some byte)
    (low : byteLength front ≤ offset)
    (high : offset < byteLength front + byteLength middle) :
    byte ∈ bytes middle := by
  have past : (bytes front).length ≤ offset := by simpa using low
  have inside : offset - (bytes front).length < (bytes middle).length := by
    simp only [length_bytes]
    omega
  rw [bytes_append, bytes_append, List.getElem?_append_right past,
    List.getElem?_append_left inside] at found
  exact List.mem_of_getElem? found

theorem getElem?_bytes_of_append (front behind : Text) (index : Nat) :
    (bytes (front ++ behind))[byteLength front + index]? = (bytes behind)[index]? := by
  rw [bytes_append, ← length_bytes, List.getElem?_append_right (Nat.le_add_right _ _),
    Nat.add_sub_cancel_left]

/-- The bytes of a character that has several of them are no ASCII codes. -/
theorem le_of_mem_utf8EncodeChar {character : Char} {byte : UInt8}
    (wide : character.utf8Size ≠ 1) (member : byte ∈ String.utf8EncodeChar character) :
    128 ≤ byte.toNat := by
  have high : ∀ left right : UInt8, 128 ≤ right.toNat → 128 ≤ (left ||| right).toNat := by
    intro left right bound
    rw [UInt8.toNat_or]
    exact Nat.le_trans bound Nat.right_le_or
  rcases character.utf8Size_eq with size | size | size | size
  · exact absurd size wide
  · rw [String.utf8EncodeChar_eq_cons_cons size] at member
    simp only [List.mem_cons, List.not_mem_nil, or_false] at member
    rcases member with rfl | rfl
    · exact high _ _ (by decide)
    · exact high _ _ (by decide)
  · rw [String.utf8EncodeChar_eq_cons_cons_cons size] at member
    simp only [List.mem_cons, List.not_mem_nil, or_false] at member
    rcases member with rfl | rfl | rfl
    · exact high _ _ (by decide)
    · exact high _ _ (by decide)
    · exact high _ _ (by decide)
  · rw [String.utf8EncodeChar_eq_cons_cons_cons_cons size] at member
    simp only [List.mem_cons, List.not_mem_nil, or_false] at member
    rcases member with rfl | rfl | rfl | rfl
    · exact high _ _ (by decide)
    · exact high _ _ (by decide)
    · exact high _ _ (by decide)
    · exact high _ _ (by decide)

/-- An ASCII code among the bytes of a character is the character. -/
theorem eq_of_mem_utf8EncodeChar {character : Char} {byte : UInt8}
    (member : byte ∈ String.utf8EncodeChar character) (ascii : byte.toNat < 128) :
    String.utf8EncodeChar character = [byte] ∧ character.toNat = byte.toNat := by
  by_cases size : character.utf8Size = 1
  · rw [String.utf8EncodeChar_eq_singleton size] at member ⊢
    have same := List.mem_singleton.mp member
    rw [Char.utf8Size_eq_one_iff, UInt32.le_iff_toNat_le] at size
    refine ⟨by rw [same], ?_⟩
    rw [same]
    have bound : character.toNat ≤ 127 := size
    change character.toNat = character.val.toUInt8.toNat
    rw [UInt32.toNat_toUInt8]
    change character.toNat = character.toNat % 2 ^ 8
    omega
  · have high := le_of_mem_utf8EncodeChar size member
    omega

end Text

end HackLexer
