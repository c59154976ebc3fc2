import HackLexer.Proofs.Bytes
import HackLexer.Text.Utf8

/-!
# Decoding of encoded texts

`Encodes` lists the sequences of bytes that stand for one character, and they
are exactly the encodings of characters.  Decoding passes over such a sequence,
and where none stands it stops with a fault.

So decoding succeeds exactly on encodings, `decode_eq_ok_iff`, and otherwise the
fault lies behind the longest front that is an encoding, `decode_error`.
-/

namespace HackLexer

namespace Utf8

theorem within_iff {low high byte : UInt8} :
    within low high byte = true ↔ low.toNat ≤ byte.toNat ∧ byte.toNat ≤ high.toNat := by
  simp [within, UInt8.le_iff_toNat_le]

theorem isContinuation_iff {byte : UInt8} :
    isContinuation byte = true ↔ 0x80 ≤ byte.toNat ∧ byte.toNat ≤ 0xbf :=
  within_iff

theorem mayFollow_iff {lead byte : UInt8} :
    mayFollow lead byte = true ↔
      (0x80 ≤ byte.toNat ∧ byte.toNat ≤ 0xbf) ∧
      (lead.toNat = 0xe0 → 0xa0 ≤ byte.toNat) ∧ (lead.toNat = 0xed → byte.toNat ≤ 0x9f) ∧
      (lead.toNat = 0xf0 → 0x90 ≤ byte.toNat) ∧ (lead.toNat = 0xf4 → byte.toNat ≤ 0x8f) := by
  unfold mayFollow
  simp only [← UInt8.toNat_inj, UInt8.reduceToNat]
  repeat' split
  all_goals
    simp only [within_iff, isContinuation_iff, UInt8.reduceToNat]
    omega

/-- The smallest byte that may follow a lead byte. -/
def firstFollower (lead : UInt8) : UInt8 :=
  if lead = 0xe0 then 0xa0 else if lead = 0xf0 then 0x90 else 0x80

theorem mayFollow_firstFollower (lead : UInt8) : mayFollow lead (firstFollower lead) = true := by
  unfold mayFollow firstFollower
  split
  · decide
  · split
    · rename_i surrogates
      rw [surrogates]
      decide
    · split
      · decide
      · split <;> decide

theorem payload_ofNat (value : Nat) :
    payload (UInt8.ofNat value) = value % 256 - 0x80 := by
  unfold payload
  rw [UInt8.toNat_ofNat']

/-- The sequences of bytes that stand for a character. -/
inductive Encodes (character : Char) : List UInt8 → Prop where
  | one {lead : UInt8} (ascii : lead < 0x80) (value : character.toNat = lead.toNat) :
      Encodes character [lead]
  | two {lead second : UInt8} (leads : within 0xc2 0xdf lead = true)
      (continues : isContinuation second = true)
      (value : character.toNat = (lead.toNat - 0xc0) * 0x40 + payload second) :
      Encodes character [lead, second]
  | three {lead second third : UInt8} (leads : within 0xe0 0xef lead = true)
      (follows : mayFollow lead second = true) (continues : isContinuation third = true)
      (value : character.toNat =
        (lead.toNat - 0xe0) * 0x1000 + payload second * 0x40 + payload third) :
      Encodes character [lead, second, third]
  | four {lead second third fourth : UInt8} (leads : within 0xf0 0xf4 lead = true)
      (follows : mayFollow lead second = true) (continues : isContinuation third = true)
      (ends : isContinuation fourth = true)
      (value : character.toNat =
        (lead.toNat - 0xf0) * 0x40000 + payload second * 0x1000 + payload third * 0x40 +
          payload fourth) :
      Encodes character [lead, second, third, fourth]

theorem Encodes.eq {character : Char} {sequence : List UInt8}
    (encodes : Encodes character sequence) : String.utf8EncodeChar character = sequence := by
  unfold String.utf8EncodeChar
  simp only [Char.toNat_val]
  cases encodes with
  | one ascii value =>
      generalize character.toNat = point at value ⊢
      simp only [UInt8.lt_iff_toNat_lt, UInt8.reduceToNat] at ascii
      rw [if_pos (by omega), value, UInt8.ofNat_toNat]
  | two leads continues value =>
      unfold payload at value
      generalize character.toNat = point at value ⊢
      simp only [within_iff, isContinuation_iff, UInt8.reduceToNat]
        at leads continues value
      rw [if_neg (by omega), if_pos (by omega)]
      simp only [List.cons.injEq, ← UInt8.toNat_inj, UInt8.toNat_ofNat', and_true]
      omega
  | three leads follows continues value =>
      unfold payload at value
      generalize character.toNat = point at value ⊢
      simp only [within_iff, mayFollow_iff, isContinuation_iff, UInt8.reduceToNat]
        at leads follows continues value
      rw [if_neg (by omega), if_neg (by omega), if_pos (by omega)]
      replace follows := follows.1
      simp only [List.cons.injEq, ← UInt8.toNat_inj, UInt8.toNat_ofNat', and_true]
      omega
  | four leads follows continues ends value =>
      unfold payload at value
      generalize character.toNat = point at value ⊢
      simp only [within_iff, mayFollow_iff, isContinuation_iff, UInt8.reduceToNat]
        at leads follows continues ends value
      rw [if_neg (by omega), if_neg (by omega), if_neg (by omega)]
      replace follows := follows.1
      simp only [List.cons.injEq, ← UInt8.toNat_inj, UInt8.toNat_ofNat', and_true]
      omega

theorem encodes_utf8EncodeChar (character : Char) :
    Encodes character (String.utf8EncodeChar character) := by
  have valid : character.toNat.isValidChar := character.valid
  unfold Nat.isValidChar at valid
  unfold String.utf8EncodeChar
  simp only [Char.toNat_val]
  generalize named : character.toNat = point at *
  split
  · apply Encodes.one
    all_goals
      simp only [named, UInt8.lt_iff_toNat_lt, UInt8.toNat_ofNat', UInt8.reduceToNat]
      omega
  · split
    · apply Encodes.two
      all_goals
        simp only [named, within_iff, isContinuation_iff, payload_ofNat, UInt8.toNat_ofNat',
          UInt8.reduceToNat]
        omega
    · split
      · apply Encodes.three
        all_goals
          simp only [named, within_iff, mayFollow_iff, isContinuation_iff, payload_ofNat,
            UInt8.toNat_ofNat', UInt8.reduceToNat]
          omega
      · apply Encodes.four
        all_goals
          simp only [named, within_iff, mayFollow_iff, isContinuation_iff, payload_ofNat,
            UInt8.toNat_ofNat', UInt8.reduceToNat]
          omega

theorem toNat_ofNat_of_valid {point : Nat} (valid : point.isValidChar) :
    (Char.ofNat point).toNat = point := by
  rw [Char.ofNat, dif_pos valid]
  rfl

section

variable {lead second third fourth : UInt8}

theorem encodes_one (ascii : lead < 0x80) : Encodes (Char.ofNat lead.toNat) [lead] := by
  refine .one ascii (toNat_ofNat_of_valid ?_)
  simp only [UInt8.lt_iff_toNat_lt, UInt8.reduceToNat] at ascii
  unfold Nat.isValidChar
  omega

theorem encodes_two (leads : within 0xc2 0xdf lead = true)
    (continues : isContinuation second = true) :
    Encodes (Char.ofNat ((lead.toNat - 0xc0) * 0x40 + payload second)) [lead, second] := by
  refine .two leads continues (toNat_ofNat_of_valid ?_)
  simp only [within_iff, isContinuation_iff, UInt8.reduceToNat] at leads continues
  unfold Nat.isValidChar payload
  omega

theorem encodes_three (leads : within 0xe0 0xef lead = true)
    (follows : mayFollow lead second = true) (continues : isContinuation third = true) :
    Encodes (Char.ofNat ((lead.toNat - 0xe0) * 0x1000 + payload second * 0x40 + payload third))
      [lead, second, third] := by
  refine .three leads follows continues (toNat_ofNat_of_valid ?_)
  simp only [within_iff, mayFollow_iff, isContinuation_iff, UInt8.reduceToNat]
    at leads follows continues
  unfold Nat.isValidChar payload
  omega

theorem encodes_four (leads : within 0xf0 0xf4 lead = true)
    (follows : mayFollow lead second = true) (continues : isContinuation third = true)
    (ends : isContinuation fourth = true) :
    Encodes (Char.ofNat ((lead.toNat - 0xf0) * 0x40000 + payload second * 0x1000 +
      payload third * 0x40 + payload fourth)) [lead, second, third, fourth] := by
  refine .four leads follows continues ends (toNat_ofNat_of_valid ?_)
  simp only [within_iff, mayFollow_iff, isContinuation_iff, UInt8.reduceToNat]
    at leads follows continues ends
  unfold Nat.isValidChar payload
  omega

end

theorem not_ascii_of_within {low high byte : UInt8} (leads : within low high byte = true)
    (above : 0x80 ≤ low.toNat) : ¬ byte < 0x80 := by
  rw [within_iff] at leads
  rw [UInt8.lt_iff_toNat_lt]
  simp only [UInt8.reduceToNat]
  omega

theorem not_within_of_within {low high less more byte : UInt8} (leads : within low high byte = true)
    (above : more.toNat < low.toNat) : ¬ within less more byte = true := by
  rw [within_iff] at leads ⊢
  omega

theorem eq_ofNat {character : Char} {point : Nat} (value : character.toNat = point) :
    Char.ofNat point = character := by
  rw [← value, Char.ofNat_toNat]

/-- A sequence at the front is decoded into its character. -/
theorem Encodes.decodeFrom_append {character : Char} {sequence : List UInt8}
    (encodes : Encodes character sequence) (index : Nat) (earlier : Text) (rest : List UInt8) :
    decodeFrom index earlier (sequence ++ rest) =
      decodeFrom (index + sequence.length) (character :: earlier) rest := by
  rw [decodeFrom.eq_def]
  cases encodes with
  | one ascii value =>
      dsimp only [List.cons_append, List.nil_append]
      rw [if_pos ascii, eq_ofNat value]
      rfl
  | two leads continues value =>
      dsimp only [List.cons_append, List.nil_append]
      rw [if_neg (not_ascii_of_within leads (by decide)), if_pos leads, if_pos continues,
        eq_ofNat value]
      rfl
  | three leads follows continues value =>
      dsimp only [List.cons_append, List.nil_append]
      rw [if_neg (not_ascii_of_within leads (by decide)),
        if_neg (not_within_of_within leads (by decide)), if_pos leads, if_pos follows,
        if_pos continues, eq_ofNat value]
      rfl
  | four leads follows continues ends value =>
      dsimp only [List.cons_append, List.nil_append]
      rw [if_neg (not_ascii_of_within leads (by decide)),
        if_neg (not_within_of_within leads (by decide)),
        if_neg (not_within_of_within leads (by decide)), if_pos leads, if_pos follows,
        if_pos continues, if_pos ends, eq_ofNat value]
      rfl

/-- Two sequences of which one continues the other. -/
def Meets (left right : List UInt8) : Prop :=
  left <+: right ∨ right <+: left

theorem meets_cons {first second : UInt8} {left right : List UInt8} :
    Meets (first :: left) (second :: right) ↔ first = second ∧ Meets left right := by
  unfold Meets
  rw [List.cons_prefix_cons, List.cons_prefix_cons, @eq_comm _ second first, and_or_left]

section

variable {character : Char} {lead : UInt8} {tail : List UInt8}

theorem Encodes.leads {sequence : List UInt8} (encodes : Encodes character sequence) :
    ∃ lead tail, sequence = lead :: tail ∧
      (lead < 0x80 ∨ within 0xc2 0xdf lead = true ∨ within 0xe0 0xef lead = true ∨
        within 0xf0 0xf4 lead = true) := by
  cases encodes with
  | one ascii => exact ⟨_, _, rfl, .inl ascii⟩
  | two leads => exact ⟨_, _, rfl, .inr (.inl leads)⟩
  | three leads => exact ⟨_, _, rfl, .inr (.inr (.inl leads))⟩
  | four leads => exact ⟨_, _, rfl, .inr (.inr (.inr leads))⟩

theorem Encodes.two_of_lead (encodes : Encodes character (lead :: tail))
    (leads : within 0xc2 0xdf lead = true) :
    ∃ second, tail = [second] ∧ isContinuation second = true := by
  cases encodes with
  | one ascii => exact absurd ascii (not_ascii_of_within leads (by decide))
  | two _ continues => exact ⟨_, rfl, continues⟩
  | three other => exact absurd leads (not_within_of_within other (by decide))
  | four other => exact absurd leads (not_within_of_within other (by decide))

theorem Encodes.three_of_lead (encodes : Encodes character (lead :: tail))
    (leads : within 0xe0 0xef lead = true) :
    ∃ second third, tail = [second, third] ∧ mayFollow lead second = true ∧
      isContinuation third = true := by
  cases encodes with
  | one ascii => exact absurd ascii (not_ascii_of_within leads (by decide))
  | two other => exact absurd other (not_within_of_within leads (by decide))
  | three _ follows continues => exact ⟨_, _, rfl, follows, continues⟩
  | four other => exact absurd leads (not_within_of_within other (by decide))

theorem Encodes.four_of_lead (encodes : Encodes character (lead :: tail))
    (leads : within 0xf0 0xf4 lead = true) :
    ∃ second third fourth, tail = [second, third, fourth] ∧ mayFollow lead second = true ∧
      isContinuation third = true ∧ isContinuation fourth = true := by
  cases encodes with
  | one ascii => exact absurd ascii (not_ascii_of_within leads (by decide))
  | two other => exact absurd other (not_within_of_within leads (by decide))
  | three other => exact absurd other (not_within_of_within leads (by decide))
  | four _ follows continues ends => exact ⟨_, _, _, rfl, follows, continues, ends⟩

end

/-- What a fault says about the bytes from its index on. -/
def Fault.Explains (rest : List UInt8) : Fault → Prop
  | .invalid _ _ => ∀ character, ¬ Meets (String.utf8EncodeChar character) rest
  | .incomplete _ => ∃ character missing, rest ≠ [] ∧ missing ≠ [] ∧
      String.utf8EncodeChar character = rest ++ missing

theorem explains_incomplete {index : Nat} {character : Char} {rest : List UInt8}
    (missing : List UInt8) (encodes : Encodes character (rest ++ missing))
    (begun : rest ≠ []) (more : missing ≠ []) :
    (Fault.incomplete index).Explains rest :=
  ⟨character, missing, begun, more, encodes.eq⟩

theorem explains_invalid {index length : Nat} {lead : UInt8} {rest : List UInt8}
    (refused : ∀ character tail, Encodes character (lead :: tail) → ¬ Meets tail rest) :
    (Fault.invalid index length).Explains (lead :: rest) := by
  intro character meets
  have encodes := encodes_utf8EncodeChar character
  obtain ⟨first, tail, sequence, _⟩ := encodes.leads
  rw [sequence] at encodes meets
  obtain ⟨rfl, behind⟩ := meets_cons.mp meets
  exact refused character tail encodes behind

/-- What comes of decoding bytes whose first one has the given index. -/
def Outcome (index : Nat) (earlier : Text) (bytes : List UInt8) : Except Fault Text → Prop
  | .ok text => ∃ more, text = earlier.reverse ++ more ∧ Text.bytes more = bytes
  | .error fault => ∃ front rest, bytes = Text.bytes front ++ rest ∧
      fault.index = index + (Text.bytes front).length ∧ fault.Explains rest

theorem Outcome.prepend {index : Nat} {earlier : Text} {character : Char}
    {sequence rest : List UInt8} {result : Except Fault Text}
    (outcome : Outcome (index + sequence.length) (character :: earlier) rest result)
    (encodes : Encodes character sequence) : Outcome index earlier (sequence ++ rest) result := by
  cases result with
  | ok text =>
      obtain ⟨more, whole, bytes⟩ := outcome
      exact ⟨character :: more, by simp [whole], by rw [Text.bytes_cons, bytes, encodes.eq]⟩
  | error fault =>
      obtain ⟨front, behind, whole, index, explains⟩ := outcome
      refine ⟨character :: front, behind, ?_, ?_, explains⟩
      · rw [Text.bytes_cons, encodes.eq, whole, List.append_assoc]
      · rw [index, Text.bytes_cons, encodes.eq, List.length_append, Nat.add_assoc]

theorem outcome_fault {index : Nat} {earlier : Text} {bytes : List UInt8} {fault : Fault}
    (here : fault.index = index) (explains : fault.Explains bytes) :
    Outcome index earlier bytes (.error fault) :=
  ⟨[], bytes, rfl, here, explains⟩

/-- Decoding gives the text that the bytes encode, or a fault behind the longest
front that encodes a text. -/
theorem decodeFrom_outcome (index : Nat) (earlier : Text) (bytes : List UInt8) :
    Outcome index earlier bytes (decodeFrom index earlier bytes) := by
  fun_induction decodeFrom index earlier bytes with
  | case1 index earlier => exact ⟨[], (List.append_nil _).symm, rfl⟩
  | case2 index earlier lead rest ascii ih => exact ih.prepend (encodes_one ascii)
  | case3 index earlier lead _ leads =>
      exact outcome_fault rfl
        (explains_incomplete [0x80] (encodes_two leads (by decide)) nofun nofun)
  | case4 index earlier lead _ leads second rest continues ih =>
      exact ih.prepend (encodes_two leads continues)
  | case5 index earlier lead _ leads second rest refused =>
      refine outcome_fault rfl (explains_invalid fun character tail encodes meets => ?_)
      obtain ⟨follower, rfl, continues⟩ := encodes.two_of_lead leads
      exact refused ((meets_cons.mp meets).1 ▸ continues)
  | case6 index earlier lead _ _ leads =>
      exact outcome_fault rfl
        (explains_incomplete [firstFollower lead, 0x80]
          (encodes_three leads (mayFollow_firstFollower lead) (by decide)) nofun nofun)
  | case7 index earlier lead _ _ leads second follows =>
      exact outcome_fault rfl
        (explains_incomplete [0x80] (encodes_three leads follows (by decide)) nofun nofun)
  | case8 index earlier lead _ _ leads second follows third rest continues ih =>
      exact ih.prepend (encodes_three leads follows continues)
  | case9 index earlier lead _ _ leads second follows third rest refused =>
      refine outcome_fault rfl (explains_invalid fun character tail encodes meets => ?_)
      obtain ⟨_, last, rfl, _, continues⟩ := encodes.three_of_lead leads
      have same := (meets_cons.mp (meets_cons.mp meets).2).1
      exact refused (same ▸ continues)
  | case10 index earlier lead _ _ leads second rest refused =>
      refine outcome_fault rfl (explains_invalid fun character tail encodes meets => ?_)
      obtain ⟨follower, _, rfl, follows, _⟩ := encodes.three_of_lead leads
      exact refused ((meets_cons.mp meets).1 ▸ follows)
  | case11 index earlier lead _ _ _ leads =>
      exact outcome_fault rfl
        (explains_incomplete [firstFollower lead, 0x80, 0x80]
          (encodes_four leads (mayFollow_firstFollower lead) (by decide) (by decide)) nofun nofun)
  | case12 index earlier lead _ _ _ leads second follows =>
      exact outcome_fault rfl
        (explains_incomplete [0x80, 0x80]
          (encodes_four leads follows (by decide) (by decide)) nofun nofun)
  | case13 index earlier lead _ _ _ leads second follows third continues =>
      exact outcome_fault rfl
        (explains_incomplete [0x80]
          (encodes_four leads follows continues (by decide)) nofun nofun)
  | case14 index earlier lead _ _ _ leads second follows third continues fourth rest ends ih =>
      exact ih.prepend (encodes_four leads follows continues ends)
  | case15 index earlier lead _ _ _ leads second follows third continues fourth rest refused =>
      refine outcome_fault rfl (explains_invalid fun character tail encodes meets => ?_)
      obtain ⟨_, _, last, rfl, _, _, ends⟩ := encodes.four_of_lead leads
      have same := (meets_cons.mp (meets_cons.mp (meets_cons.mp meets).2).2).1
      exact refused (same ▸ ends)
  | case16 index earlier lead _ _ _ leads second follows third rest refused =>
      refine outcome_fault rfl (explains_invalid fun character tail encodes meets => ?_)
      obtain ⟨_, later, _, rfl, _, continues, _⟩ := encodes.four_of_lead leads
      have same := (meets_cons.mp (meets_cons.mp meets).2).1
      exact refused (same ▸ continues)
  | case17 index earlier lead _ _ _ leads second rest refused =>
      refine outcome_fault rfl (explains_invalid fun character tail encodes meets => ?_)
      obtain ⟨follower, _, _, rfl, follows, _⟩ := encodes.four_of_lead leads
      exact refused ((meets_cons.mp meets).1 ▸ follows)
  | case18 index earlier lead rest high notTwo notThree notFour =>
      refine outcome_fault rfl (explains_invalid fun character tail encodes _ => ?_)
      obtain ⟨first, _, same, ascii | two | three | four⟩ := encodes.leads
      all_goals cases same
      · exact high ascii
      · exact notTwo two
      · exact notThree three
      · exact notFour four

theorem decodeFrom_bytes (index : Nat) (earlier text : Text) (rest : List UInt8) :
    decodeFrom index earlier (Text.bytes text ++ rest) =
      decodeFrom (index + Text.byteLength text) (text.reverse ++ earlier) rest := by
  induction text generalizing index earlier with
  | nil => rfl
  | cons character text ih =>
      rw [Text.bytes_cons, List.append_assoc,
        (encodes_utf8EncodeChar character).decodeFrom_append, ih]
      simp [Nat.add_assoc]

/-- Decoding succeeds exactly on encodings. -/
theorem decode_eq_ok_iff {bytes : List UInt8} {text : Text} :
    decode bytes = .ok text ↔ bytes = Text.bytes text := by
  constructor
  · intro success
    have outcome := decodeFrom_outcome 0 [] bytes
    change Outcome 0 [] bytes (decode bytes) at outcome
    rw [success] at outcome
    obtain ⟨more, whole, same⟩ := outcome
    rw [whole, ← same]
    rfl
  · rintro rfl
    have whole := decodeFrom_bytes 0 [] text []
    rw [List.append_nil] at whole
    rw [decode, whole, decodeFrom]
    simp

/-- A fault lies behind the longest front of the bytes that is an encoding. -/
theorem decode_error {bytes : List UInt8} {fault : Fault} (failure : decode bytes = .error fault) :
    (∃ front, Text.bytes front <+: bytes ∧ (Text.bytes front).length = fault.index) ∧
    (∀ front, Text.bytes front <+: bytes → (Text.bytes front).length ≤ fault.index) ∧
    fault.Explains (bytes.drop fault.index) := by
  have outcome := decodeFrom_outcome 0 [] bytes
  change Outcome 0 [] bytes (decode bytes) at outcome
  rw [failure] at outcome
  obtain ⟨front, rest, whole, index, explains⟩ := outcome
  rw [Nat.zero_add] at index
  refine ⟨⟨front, ⟨rest, whole.symm⟩, index.symm⟩, ?_, ?_⟩
  · rintro other ⟨behind, same⟩
    -- decoding goes through every front that is an encoding before it fails
    have further := decodeFrom_outcome (0 + Text.byteLength other) (other.reverse ++ []) behind
    rw [← decodeFrom_bytes, same] at further
    change Outcome _ _ _ (decode bytes) at further
    rw [failure] at further
    obtain ⟨more, _, _, later, _⟩ := further
    rw [later, Text.length_bytes]
    omega
  · rw [index, whole, List.drop_left]
    exact explains

/-- The bytes end inside of a sequence that stands for a character. -/
def EndsInside (rest : List UInt8) : Prop :=
  ∃ character, rest ≠ [] ∧ rest <+: String.utf8EncodeChar character ∧
    rest ≠ String.utf8EncodeChar character

theorem Fault.Explains.incomplete_iff {fault : Fault} {rest : List UInt8}
    (explains : fault.Explains rest) : fault = .incomplete fault.index ↔ EndsInside rest := by
  cases fault with
  | invalid index length =>
      refine ⟨nofun, ?_⟩
      rintro ⟨character, _, begins, _⟩
      exact absurd (.inr begins) (explains character)
  | incomplete index =>
      obtain ⟨character, missing, begun, more, whole⟩ := explains
      refine ⟨fun _ => ⟨character, begun, ⟨missing, whole.symm⟩, ?_⟩, fun _ => rfl⟩
      rw [whole]
      intro same
      exact more (List.self_eq_append_right.mp same)

end Utf8
end HackLexer
