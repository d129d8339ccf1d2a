/-! From bytes to lines. The bytes are read as UTF-8. The first fault ends the reading and is
reported with the bytes it covers: a byte that starts no character, a sequence broken off by a byte
that does not continue it, or a sequence broken off by the end of the data. In the text a carriage
return, alone or before a line feed, ends a line just as a line feed does. -/
namespace Monotype.Text

namespace Utf8

inductive Cause where
  | startByte
  | continuationByte
  | endOfData
  deriving DecidableEq

/-- The bytes from `start` up to `stop` cannot be read; `lead` is the first of them. -/
structure Fault where
  start : Nat
  stop : Nat
  lead : UInt8
  cause : Cause
  deriving DecidableEq

/-- A character whose bytes have not all been read: the next byte must lie between `low` and `high`,
and `missing` bytes follow it. -/
structure Pending where
  start : Nat
  lead : UInt8
  bits : Nat
  low : UInt8
  high : UInt8
  missing : Nat

/-- What a first byte other than an ASCII character announces. The limits on the second byte leave
out overlong forms, surrogates and numbers past the last code point. -/
def Pending.ofLead? (start : Nat) (b : UInt8) : Option Pending :=
  if 0xC2 ≤ b ∧ b < 0xE0 then some ⟨start, b, b.toNat - 0xC0, 0x80, 0xBF, 0⟩
  else if b = 0xE0 then some ⟨start, b, 0, 0xA0, 0xBF, 1⟩
  else if b = 0xED then some ⟨start, b, 0xD, 0x80, 0x9F, 1⟩
  else if 0xE0 ≤ b ∧ b < 0xF0 then some ⟨start, b, b.toNat - 0xE0, 0x80, 0xBF, 1⟩
  else if b = 0xF0 then some ⟨start, b, 0, 0x90, 0xBF, 2⟩
  else if b = 0xF4 then some ⟨start, b, 4, 0x80, 0x8F, 2⟩
  else if 0xF0 ≤ b ∧ b < 0xF5 then some ⟨start, b, b.toNat - 0xF0, 0x80, 0xBF, 2⟩
  else none

/-- Reads the bytes from position `pos` on, inside a character if one is pending. -/
def decodeFrom : Nat → Option Pending → List UInt8 → Except Fault (List Char)
  | _, none, [] => .ok []
  | pos, some p, [] => .error ⟨p.start, pos, p.lead, .endOfData⟩
  | pos, none, b :: rest =>
    if b < 0x80 then (decodeFrom (pos + 1) none rest).map (Char.ofNat b.toNat :: ·)
    else
      match Pending.ofLead? pos b with
      | some p => decodeFrom (pos + 1) (some p) rest
      | none => .error ⟨pos, pos + 1, b, .startByte⟩
  | pos, some p, b :: rest =>
    if p.low ≤ b ∧ b ≤ p.high then
      let bits := p.bits * 64 + (b.toNat - 0x80)
      match p.missing with
      | 0 => (decodeFrom (pos + 1) none rest).map (Char.ofNat bits :: ·)
      | k + 1 => decodeFrom (pos + 1) (some ⟨p.start, p.lead, bits, 0x80, 0xBF, k⟩) rest
    else .error ⟨p.start, pos, p.lead, .continuationByte⟩

def decode (bytes : List UInt8) : Except Fault (List Char) := decodeFrom 0 none bytes

end Utf8

/-! ### Lines -/

/-- Every line end as a line feed. -/
def normalizeLineEnds : List Char → List Char
  | [] => []
  | '\r' :: '\n' :: rest => '\n' :: normalizeLineEnds rest
  | '\r' :: rest => '\n' :: normalizeLineEnds rest
  | c :: rest => c :: normalizeLineEnds rest

/-- The lines without their line feeds; a last line without one counts. -/
def lines : List Char → List (List Char)
  | [] => []
  | c :: rest =>
    if c = '\n' then [] :: lines rest
    else
      match lines rest with
      | [] => [[c]]
      | line :: more => (c :: line) :: more

end Monotype.Text
