/-! # Hexadecimal text of bytes

Two digits for each byte, the high half first. Reading takes digits of either case and needs an
even number of them. -/
namespace TxIndex
namespace Hex

/-- The sixteen digits, in lower case. -/
def lowerDigits : List Char :=
  ['0', '1', '2', '3', '4', '5', '6', '7', '8', '9', 'a', 'b', 'c', 'd', 'e', 'f']

/-- The sixteen digits, in upper case. -/
def upperDigits : List Char :=
  ['0', '1', '2', '3', '4', '5', '6', '7', '8', '9', 'A', 'B', 'C', 'D', 'E', 'F']

/-- The digit of a number below sixteen. -/
def digit (digits : List Char) (n : Nat) : Char := digits.getD n '0'

/-- Two digits for every byte. -/
def encodeWith (digits : List Char) (bytes : List UInt8) : String :=
  String.ofList <| bytes.flatMap fun b =>
    [digit digits (b.toNat / 16), digit digits (b.toNat % 16)]

/-- Bytes in lower case. -/
def encode (bytes : List UInt8) : String := encodeWith lowerDigits bytes

/-- Bytes in upper case. -/
def encodeUpper (bytes : List UInt8) : String := encodeWith upperDigits bytes

/-- The value of a digit. -/
def digitValue? (c : Char) : Option Nat :=
  if '0' ≤ c ∧ c ≤ '9' then some (c.toNat - '0'.toNat)
  else if 'a' ≤ c ∧ c ≤ 'f' then some (c.toNat - 'a'.toNat + 10)
  else if 'A' ≤ c ∧ c ≤ 'F' then some (c.toNat - 'A'.toNat + 10)
  else none

/-- The bytes that pairs of digits name. -/
def decodeChars? : List Char → Option (List UInt8)
  | [] => some []
  | [_] => none
  | high :: low :: rest => do
    let h ← digitValue? high
    let l ← digitValue? low
    let bytes ← decodeChars? rest
    return UInt8.ofNat (16 * h + l) :: bytes

/-- The bytes that a text of digit pairs names. -/
def decode? (s : String) : Option (List UInt8) := decodeChars? s.toList

end Hex
end TxIndex
