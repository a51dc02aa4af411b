/-! # Blank characters

The code points with the Unicode property White_Space. -/
namespace TxIndex
namespace Text

/-- First and last code point of each run of blank characters, in ascending order. -/
def blankRanges : List (Nat × Nat) := [
  (0x0009, 0x000d), (0x0020, 0x0020), (0x0085, 0x0085), (0x00a0, 0x00a0), (0x1680, 0x1680),
  (0x2000, 0x200a), (0x2028, 0x2029), (0x202f, 0x202f), (0x205f, 0x205f), (0x3000, 0x3000)]

/-- The character is white space. -/
def isBlank (c : Char) : Bool :=
  blankRanges.any fun (first, last) => first ≤ c.toNat && c.toNat ≤ last

/-- What is left behind leading white space. -/
def skipBlanks (cs : List Char) : List Char := cs.dropWhile isBlank

end Text
end TxIndex
