import TxIndex.Text.Utf8

/-! # Binary codecs

A codec writes values as bytes and reads a value from the front of bytes, handing on the rest.
Codecs of larger values are put together from those of their parts: numbers of fixed width with the
low byte first, counted lists, pairs, and values that are written as others. A count has four bytes,
so a list that is longer cannot be written; `fits` says which values can. -/
namespace TxIndex
namespace Wire

/-- Why bytes do not hold a value. -/
inductive Fault where
  /-- The bytes end before the value does. -/
  | endOfInput
  /-- Bytes are left behind the value. -/
  | trailingBytes
  /-- A truth value that is neither 0 nor 1. -/
  | badBool (b : UInt8)
  /-- The bytes of a text are no text. -/
  | badText (fault : Utf8.Fault)
deriving DecidableEq

namespace Fault

/-- The fault in words. -/
def message : Fault → String
  | .endOfInput => "Unexpected length of input"
  | .trailingBytes => "Not all bytes read"
  | .badBool b => s!"Invalid bool representation: {b}"
  | .badText fault => fault.message

end Fault

/-- A binary format of values. -/
structure Codec (α : Type) where
  /-- The value has a written form. -/
  fits : α → Bool
  encode : α → List UInt8
  decode : List UInt8 → Except Fault (α × List UInt8)

/-- The low bytes of a number, the lowest first. -/
def lowBytes : Nat → Nat → List UInt8
  | 0, _ => []
  | width + 1, n => UInt8.ofNat n :: lowBytes width (n / 256)

/-- A number of some bytes, the lowest first. -/
def takeNat : Nat → List UInt8 → Except Fault (Nat × List UInt8)
  | 0, bs => .ok (0, bs)
  | _ + 1, [] => .error .endOfInput
  | width + 1, b :: bs => do
    let (n, rest) ← takeNat width bs
    return (b.toNat + 256 * n, rest)

namespace Codec

variable {α β : Type}

/-- Numbers of a fixed width. -/
def word (width : Nat) : Codec Nat where
  fits n := n < Nat.pow 256 width
  encode := lowBytes width
  decode := takeNat width

/-- Values that are written as others, of which reading may refuse some. -/
def refine (c : Codec α) (read : α → Except Fault β) (write : β → α) : Codec β where
  fits b := c.fits (write b)
  encode b := c.encode (write b)
  decode bs := do
    let (a, rest) ← c.decode bs
    return (← read a, rest)

/-- Values that are written as others. -/
def map (c : Codec α) (read : α → β) (write : β → α) : Codec β := c.refine (.ok ∘ read) write

/-- One value behind another. -/
def pair (c : Codec α) (d : Codec β) : Codec (α × β) where
  fits p := c.fits p.1 && d.fits p.2
  encode p := c.encode p.1 ++ d.encode p.2
  decode bs := do
    let (a, rest) ← c.decode bs
    let (b, rest) ← d.decode rest
    return ((a, b), rest)

/-- A given number of values. -/
def decodeMany (c : Codec α) : Nat → List UInt8 → Except Fault (List α × List UInt8)
  | 0, bs => .ok ([], bs)
  | n + 1, bs => do
    let (x, rest) ← c.decode bs
    let (xs, rest) ← decodeMany c n rest
    return (x :: xs, rest)

/-- A list behind its length. -/
def list (c : Codec α) : Codec (List α) where
  fits xs := (word 4).fits xs.length && xs.all c.fits
  encode xs := (word 4).encode xs.length ++ xs.flatMap c.encode
  decode bs := do
    let (n, rest) ← (word 4).decode bs
    decodeMany c n rest

/-- A byte. -/
def byte : Codec UInt8 := (word 1).map UInt8.ofNat UInt8.toNat

/-- A number of 32 bits. -/
def uint32 : Codec UInt32 := (word 4).map UInt32.ofNat UInt32.toNat

/-- A number of 64 bits. -/
def uint64 : Codec UInt64 := (word 8).map UInt64.ofNat UInt64.toNat

/-- A signed number of 64 bits, as the number of the same bits. -/
def int64 : Codec Int64 := uint64.map UInt64.toInt64 Int64.toUInt64

/-- A truth value, as the byte 0 or 1. -/
def bool : Codec Bool :=
  byte.refine
    (fun b => if b = 0 then .ok false else if b = 1 then .ok true else .error (.badBool b))
    (fun b => if b then 1 else 0)

/-- Counted bytes. -/
def bytes : Codec (List UInt8) := byte.list

/-- A text, as its counted bytes. All of them are there before they are read as text. -/
def text : Codec String := bytes.refine (fun bs => (Utf8.decode bs).mapError .badText) Utf8.encode

/-- The value that bytes hold from the first to the last. -/
def decodeAll (c : Codec α) (bs : List UInt8) : Except Fault α :=
  match c.decode bs with
  | .ok (a, []) => .ok a
  | .ok (_, _ :: _) => .error .trailingBytes
  | .error fault => .error fault

end Codec
end Wire
end TxIndex
