/-! # UTF-8

The bytes of a text, and the text of bytes. Reading is a machine over single bytes: between two
characters it expects a leading byte, and inside a character it knows how many continuation bytes
are missing and between which bounds the next one lies. The bounds of the second byte keep out
overlong forms, surrogates and numbers past the last code point, so every text has one written
form. A refusal names the length of the valid part before it. -/
namespace TxIndex
namespace Utf8

/-- The bytes of a text. -/
def encode (s : String) : List UInt8 := s.toList.flatMap String.utf8EncodeChar

/-- Why bytes are no text. -/
inductive Fault where
  /-- After `start` valid bytes, `length` bytes form no character. -/
  | invalid (start length : Nat)
  /-- After `start` valid bytes, the bytes end inside a character. -/
  | incomplete (start : Nat)
deriving DecidableEq

namespace Fault

/-- The fault in words. -/
def message : Fault → String
  | .invalid start length => s!"invalid utf-8 sequence of {length} bytes from index {start}"
  | .incomplete start => s!"incomplete utf-8 byte sequence from index {start}"

end Fault

/-- A character of which some continuation bytes are still missing. -/
structure Partial where
  /-- How many bytes have been read. -/
  seen : Nat
  /-- How many bytes follow the next one. -/
  further : Nat
  /-- The least next byte. -/
  low : UInt8
  /-- The greatest next byte. -/
  high : UInt8
  /-- The bits read so far. -/
  bits : Nat
deriving DecidableEq

/-- What a leading byte of a longer form announces. -/
def lead? (b : UInt8) : Option Partial :=
  if b < 0xc2 then none
  else if b < 0xe0 then some ⟨1, 0, 0x80, 0xbf, b.toNat - 0xc0⟩
  else if b = 0xe0 then some ⟨1, 1, 0xa0, 0xbf, 0⟩
  else if b = 0xed then some ⟨1, 1, 0x80, 0x9f, 0xd⟩
  else if b < 0xf0 then some ⟨1, 1, 0x80, 0xbf, b.toNat - 0xe0⟩
  else if b = 0xf0 then some ⟨1, 2, 0x90, 0xbf, 0⟩
  else if b < 0xf4 then some ⟨1, 2, 0x80, 0xbf, b.toNat - 0xf0⟩
  else if b = 0xf4 then some ⟨1, 2, 0x80, 0x8f, 4⟩
  else none

/-- The bits of a character with the six of one more continuation byte. -/
def Partial.withByte (p : Partial) (b : UInt8) : Nat := 64 * p.bits + (b.toNat - 0x80)

/-- Reads characters, `start` bytes being already read and the last character perhaps begun. -/
def decodeFrom (start : Nat) : Option Partial → List UInt8 → Except Fault (List Char)
  | none, [] => .ok []
  | some _, [] => .error (.incomplete start)
  | none, b :: rest =>
    if b < 0x80 then (Char.ofNat b.toNat :: ·) <$> decodeFrom (start + 1) none rest
    else match lead? b with
      | none => .error (.invalid start 1)
      | some p => decodeFrom start (some p) rest
  | some p, b :: rest =>
    if b < p.low ∨ p.high < b then .error (.invalid start p.seen)
    else match p.further with
      | 0 => (Char.ofNat (p.withByte b) :: ·) <$> decodeFrom (start + p.seen + 1) none rest
      | n + 1 => decodeFrom start (some ⟨p.seen + 1, n, 0x80, 0xbf, p.withByte b⟩) rest

/-- The text of bytes. -/
def decode (bytes : List UInt8) : Except Fault String :=
  String.ofList <$> decodeFrom 0 none bytes

end Utf8
end TxIndex
