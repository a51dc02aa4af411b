/-! # Decimal numbers

Runs of digits, and decimal numbers as a whole number and a power of ten. A text that is not a
number throughout is read as far as it is one, and as zero if it does not begin with one. -/
namespace TxIndex

/-- A decimal number in the form `digits * 10 ^ exponent`, and its sign. -/
structure Decimal where
  negative : Bool
  digits : Nat
  exponent : Int
deriving DecidableEq

namespace Decimal

/-- At least one character, and digits only. -/
def isDigits (cs : List Char) : Bool := !cs.isEmpty && cs.all Char.isDigit

/-- The number that a run of digits writes. -/
def digitsValue (cs : List Char) : Nat :=
  cs.foldl (fun n c => 10 * n + (c.toNat - '0'.toNat)) 0

/-- Blanks that may stand before a number. -/
def isBlank (c : Char) : Bool :=
  c = ' ' || c = '\t' || c = '\n' || c = '\x0b' || c = '\x0c' || c = '\r'

/-- A sign, and what follows. -/
def takeSign : List Char → Bool × List Char
  | '-' :: rest => (true, rest)
  | '+' :: rest => (false, rest)
  | cs => (false, cs)

/-- The digits behind a leading point, and what follows. -/
def takeFraction : List Char → List Char × List Char
  | '.' :: rest => (rest.takeWhile Char.isDigit, rest.dropWhile Char.isDigit)
  | cs => ([], cs)

/-- An exponent of a hundred thousand or more counts as ten thousand. -/
def cappedExponent (n : Nat) : Nat := if n < 100000 then n else 10000

/-- The exponent that follows a number, 0 if none does. -/
def exponentOf : List Char → Int
  | [] => 0
  | c :: rest =>
    if c = 'e' ∨ c = 'E' then
      let (negative, digits) := takeSign rest
      let n := cappedExponent (digitsValue (digits.takeWhile Char.isDigit))
      if negative then -n else n
    else 0

/-- The number with which a text begins, 0 if it begins with none. -/
def read (cs : List Char) : Decimal :=
  let (negative, rest) := takeSign (cs.dropWhile isBlank)
  let whole := rest.takeWhile Char.isDigit
  let (fraction, rest) := takeFraction (rest.dropWhile Char.isDigit)
  if whole.isEmpty && fraction.isEmpty then ⟨false, 0, 0⟩
  else ⟨negative, digitsValue (whole ++ fraction), exponentOf rest - fraction.length⟩

end Decimal
end TxIndex
