import HackLexer.Proofs.Decoding
import HackLexer.Source.Span
import HackLexer.Tokenized

/-!
# Loaded source files

A source file that is mapped into memory and one that is made from a text
cannot be told apart, if the file holds the encoding of the text.  Nothing else
can be loaded, and the fault tells where the encoding goes wrong.

Mapping is taken as it comes, provided that a file with bytes is mapped to these
bytes.  A file without bytes is never mapped.
-/

namespace HackLexer

/-- What can be asked of two source files has the same answers. -/
structure Source.Agrees (left right : Source) : Prop where
  content : left.content = right.content
  lines : left.lineCount = right.lineCount
  line : ∀ number, left.line? number = right.line? number
  lineStart : ∀ number, left.lineStart? number = right.lineStart? number
  location : ∀ offset, left.location? offset = right.location? offset
  span : ∀ start stop, left.span? start stop = right.span? start stop
  tokenized : tokenize left.content = tokenize right.content

theorem Source.Agrees.refl (source : Source) : source.Agrees source where
  content := rfl
  lines := rfl
  line _ := rfl
  lineStart _ := rfl
  location _ := rfl
  span _ _ := rfl
  tokenized := rfl

/-- Mapping a file that has bytes gives these bytes. -/
def IsFaithful (map : List UInt8 → Except Text (List UInt8)) : Prop :=
  ∀ bytes, bytes ≠ [] → map bytes = .ok bytes

theorem load_eq {map : List UInt8 → Except Text (List UInt8)} (faithful : IsFaithful map)
    (path : String) (bytes : List UInt8) :
    Source.load map path bytes =
      match Utf8.decode bytes with
      | .ok content => .ok { path, content }
      | .error fault => .error (.misencoded fault) := by
  unfold Source.load
  cases bytes with
  | nil => rfl
  | cons first rest =>
      rw [faithful (first :: rest) nofun]
      rfl

theorem load_bytes {map : List UInt8 → Except Text (List UInt8)} (faithful : IsFaithful map)
    (path : String) (text : Text) :
    Source.load map path (Text.bytes text) = .ok { path, content := text } := by
  rw [load_eq faithful, Utf8.decode_eq_ok_iff.mpr rfl]

theorem load_error {map : List UInt8 → Except Text (List UInt8)} (faithful : IsFaithful map)
    (path : String) {bytes : List UInt8} (misencoded : ¬ ∃ text, bytes = Text.bytes text) :
    ∃ fault, Utf8.decode bytes = .error fault ∧
      Source.load map path bytes = .error (.misencoded fault) := by
  rw [load_eq faithful]
  cases decoded : Utf8.decode bytes with
  | ok text => exact absurd ⟨text, Utf8.decode_eq_ok_iff.mp decoded⟩ misencoded
  | error fault => exact ⟨fault, rfl, rfl⟩

/-- A file can be loaded exactly if it holds the encoding of a text, and then it
agrees with a source file made from that text.  Otherwise the fault lies behind
the longest front that is an encoding, and it is an incomplete sequence exactly
if the bytes from there on begin the encoding of a character. -/
theorem load_agrees {map : List UInt8 → Except Text (List UInt8)} (faithful : IsFaithful map)
    (path : String) (bytes : List UInt8) :
    ((∃ source, Source.load map path bytes = .ok source) ↔ ∃ text, bytes = Text.bytes text) ∧
    (∀ text, bytes = Text.bytes text → ∃ source, Source.load map path bytes = .ok source ∧
      source.Agrees { path, content := text }) ∧
    ((¬ ∃ text, bytes = Text.bytes text) → ∃ fault,
      Source.load map path bytes = .error (.misencoded fault) ∧
      (∃ front, Text.bytes front <+: bytes ∧ (Text.bytes front).length = fault.index) ∧
      (∀ front, Text.bytes front <+: bytes → (Text.bytes front).length ≤ fault.index) ∧
      (fault = .incomplete fault.index ↔ Utf8.EndsInside (bytes.drop fault.index))) := by
  by_cases encoded : ∃ text, bytes = Text.bytes text
  · obtain ⟨text, rfl⟩ := encoded
    have loaded := load_bytes faithful path text
    refine ⟨⟨fun _ => ⟨text, rfl⟩, fun _ => ⟨_, loaded⟩⟩, ?_, ?_⟩
    · intro other same
      rw [same]
      exact ⟨_, load_bytes faithful path other, .refl _⟩
    · intro misencoded
      exact absurd ⟨text, rfl⟩ misencoded
  · obtain ⟨fault, failed, refused⟩ := load_error faithful path encoded
    obtain ⟨front, longest, explains⟩ := Utf8.decode_error failed
    refine ⟨⟨?_, fun text => absurd text encoded⟩, ?_, ?_⟩
    · rintro ⟨source, loaded⟩
      rw [refused] at loaded
      cases loaded
    · intro text same
      exact absurd ⟨text, same⟩ encoded
    · intro _
      exact ⟨fault, refused, front, longest, explains.incomplete_iff⟩

/-- An empty file that the system refuses to map agrees with the empty text, and a
file that ends in the third byte of a character of four bytes is incomplete. -/
theorem empty_and_cut_files_load :
    let map : List UInt8 → Except Text (List UInt8) := fun bytes =>
      if bytes = [] then .error "Invalid argument (os error 22)".toList else .ok bytes
    let cut : List UInt8 := [0x61, 0xf0, 0x9f, 0x98]
    (∃ source, Source.load map "a.hack" [] = .ok source ∧
      source.Agrees { path := "a.hack", content := [] }) ∧
    (Source.load map "a.hack" cut = .error (.misencoded (.incomplete 1)) ∧
      (Utf8.Fault.incomplete 1 = .incomplete 1 ↔ Utf8.EndsInside (cut.drop 1))) := by
  intro map cut
  have faithful : IsFaithful map := fun bytes filled => if_neg filled
  have undecoded : Utf8.decode cut = .error (.incomplete 1) := rfl
  have failed : Source.load map "a.hack" cut = .error (.misencoded (.incomplete 1)) := by
    rw [load_eq faithful, undecoded]
  refine ⟨(load_agrees faithful "a.hack" []).2.1 [] rfl, failed, ?_⟩
  have misencoded : ¬ ∃ text, cut = Text.bytes text := by
    intro encoded
    obtain ⟨source, loaded⟩ := (load_agrees faithful "a.hack" cut).1.mpr encoded
    rw [failed] at loaded
    cases loaded
  obtain ⟨fault, refused, _, _, incomplete⟩ := (load_agrees faithful "a.hack" cut).2.2 misencoded
  rw [failed] at refused
  cases refused
  exact incomplete

end HackLexer
