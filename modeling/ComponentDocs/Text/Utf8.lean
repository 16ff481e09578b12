import ComponentDocs.Text.Quoted

/-!
# Reading UTF-8

Strict decoding: no overlong form, no surrogate, nothing above the last code point. A fault names
the bytes that cannot be decoded, which are the first byte of a sequence and the continuation bytes
that still fit it.
-/

namespace ComponentDocs.Text.Utf8

inductive Reason where
  /-- The byte starts no sequence. -/
  | startByte
  /-- The byte after the bad ones does not continue the sequence. -/
  | continuationByte
  /-- The bytes end inside a sequence. -/
  | endOfData
  deriving DecidableEq, Repr

/-- Where decoding stopped: the first bad byte, its position, and how many bytes are bad. -/
structure Fault where
  byte : UInt8
  position : Nat
  length : Nat
  reason : Reason
  deriving DecidableEq, Repr

/-- A sequence that has begun: its first byte and position, how many bytes are read and how many
are still to come, the range of the next one, and the value of the bits so far. -/
structure Pending where
  byte : UInt8
  position : Nat
  length : Nat
  left : Nat
  low : Nat
  high : Nat
  value : Nat

def Pending.fault (p : Pending) (reason : Reason) : Fault :=
  ⟨p.byte, p.position, p.length, reason⟩

/-- What a first byte above ASCII announces: the number of continuation bytes, the range of the
first of them, and the bits that the first byte carries. -/
def lead? (b : Nat) : Option (Nat × Nat × Nat × Nat) :=
  if b < 0xC2 then none
  else if b < 0xE0 then some (1, 0x80, 0xBF, b - 0xC0)
  else if b < 0xF0 then
    some (2, if b = 0xE0 then 0xA0 else 0x80, if b = 0xED then 0x9F else 0xBF, b - 0xE0)
  else if b < 0xF5 then
    some (3, if b = 0xF0 then 0x90 else 0x80, if b = 0xF4 then 0x8F else 0xBF, b - 0xF0)
  else none

/-- Decode from position `pos`, inside the sequence `pending` if there is one. -/
def decodeFrom (pos : Nat) : Option Pending → List UInt8 → Except Fault (List Char)
  | none, [] => .ok []
  | some p, [] => .error (p.fault .endOfData)
  | none, b :: rest =>
    if b.toNat < 0x80 then
      (Char.ofNat b.toNat :: ·) <$> decodeFrom (pos + 1) none rest
    else
      match lead? b.toNat with
      | none => .error ⟨b, pos, 1, .startByte⟩
      | some (left, low, high, value) =>
        decodeFrom (pos + 1) (some ⟨b, pos, 1, left, low, high, value⟩) rest
  | some p, b :: rest =>
    if p.low ≤ b.toNat && b.toNat ≤ p.high then
      let value := p.value * 64 + (b.toNat - 0x80)
      if p.left ≤ 1 then
        (Char.ofNat value :: ·) <$> decodeFrom (pos + 1) none rest
      else
        let next : Pending := ⟨p.byte, p.position, p.length + 1, p.left - 1, 0x80, 0xBF, value⟩
        decodeFrom (pos + 1) (some next) rest
    else
      .error (p.fault .continuationByte)

/-- The text that the bytes spell, or the first fault. -/
def decode (bytes : List UInt8) : Except Fault (List Char) :=
  decodeFrom 0 none bytes

def Reason.message : Reason → String
  | .startByte => "invalid start byte"
  | .continuationByte => "invalid continuation byte"
  | .endOfData => "unexpected end of data"

/-- The wording of a fault: one bad byte is shown, several are given by their positions. -/
def Fault.message (f : Fault) : String :=
  let bad :=
    if f.length ≤ 1 then
      "byte 0x" ++ String.ofList (hex 2 f.byte.toNat) ++ " in position " ++ toString f.position
    else
      "bytes in position " ++ toString f.position ++ "-" ++ toString (f.position + f.length - 1)
  "'utf-8' codec can't decode " ++ bad ++ ": " ++ f.reason.message

end ComponentDocs.Text.Utf8
