import HackLexer.Text

/-!
# Decoding of UTF-8

Bytes are decoded from left to right into characters.  Decoding stops at the
first byte that cannot continue a character; the fault tells where the
sequence starts and how many of its bytes were still acceptable, or that the
bytes ended inside a sequence.
-/

namespace HackLexer

namespace Utf8

/-- Why bytes are not the encoding of a text. -/
inductive Fault where
  /-- The sequence at an index goes wrong after the given number of bytes. -/
  | invalid (index length : Nat)
  /-- The bytes end inside the sequence at an index. -/
  | incomplete (index : Nat)
  deriving DecidableEq, Repr

/-- The index at which the faulty sequence starts. -/
def Fault.index : Fault → Nat
  | .invalid index _ => index
  | .incomplete index => index

def Fault.message : Fault → Text
  | .invalid index length =>
      "invalid utf-8 sequence of ".toList ++ Text.decimal length ++
        " bytes from index ".toList ++ Text.decimal index
  | .incomplete index =>
      "incomplete utf-8 byte sequence from index ".toList ++ Text.decimal index

def within (low high byte : UInt8) : Bool :=
  low ≤ byte && byte ≤ high

def isContinuation (byte : UInt8) : Bool :=
  within 0x80 0xbf byte

/-- Whether a byte may follow the given lead byte.  The narrower ranges refuse
over-long forms, surrogates and values above the last code point. -/
def mayFollow (lead byte : UInt8) : Bool :=
  if lead = 0xe0 then within 0xa0 0xbf byte
  else if lead = 0xed then within 0x80 0x9f byte
  else if lead = 0xf0 then within 0x90 0xbf byte
  else if lead = 0xf4 then within 0x80 0x8f byte
  else isContinuation byte

def payload (byte : UInt8) : Nat :=
  byte.toNat - 0x80

/-- Decodes bytes whose first one has the given index; the characters in front
of them are given latest first. -/
def decodeFrom (index : Nat) (earlier : Text) : List UInt8 → Except Fault Text
  | [] => .ok earlier.reverse
  | lead :: rest =>
      if lead < 0x80 then
        decodeFrom (index + 1) (Char.ofNat lead.toNat :: earlier) rest
      else if within 0xc2 0xdf lead then
        match rest with
        | [] => .error (.incomplete index)
        | second :: rest =>
            if isContinuation second then
              decodeFrom (index + 2)
                (Char.ofNat ((lead.toNat - 0xc0) * 0x40 + payload second) :: earlier) rest
            else
              .error (.invalid index 1)
      else if within 0xe0 0xef lead then
        match rest with
        | [] => .error (.incomplete index)
        | second :: rest =>
            if mayFollow lead second then
              match rest with
              | [] => .error (.incomplete index)
              | third :: rest =>
                  if isContinuation third then
                    decodeFrom (index + 3)
                      (Char.ofNat ((lead.toNat - 0xe0) * 0x1000 + payload second * 0x40 +
                        payload third) :: earlier) rest
                  else
                    .error (.invalid index 2)
            else
              .error (.invalid index 1)
      else if within 0xf0 0xf4 lead then
        match rest with
        | [] => .error (.incomplete index)
        | second :: rest =>
            if mayFollow lead second then
              match rest with
              | [] => .error (.incomplete index)
              | third :: rest =>
                  if isContinuation third then
                    match rest with
                    | [] => .error (.incomplete index)
                    | fourth :: rest =>
                        if isContinuation fourth then
                          decodeFrom (index + 4)
                            (Char.ofNat ((lead.toNat - 0xf0) * 0x40000 +
                              payload second * 0x1000 + payload third * 0x40 +
                              payload fourth) :: earlier) rest
                        else
                          .error (.invalid index 3)
                  else
                    .error (.invalid index 2)
            else
              .error (.invalid index 1)
      else
        .error (.invalid index 1)

def decode (bytes : List UInt8) : Except Fault Text :=
  decodeFrom 0 [] bytes

end Utf8

end HackLexer
