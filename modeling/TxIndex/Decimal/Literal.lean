import TxIndex.Decimal.Basic
import TxIndex.Failure

/-! # Decimal literals

Numbers in queries are kept as they were written, so that nothing is lost before it is known how
they are to be read. A literal is an optional minus sign, digits, and perhaps a point and more
digits. Read as an integer of 64 bits it must have no part behind the point but zeros. -/
namespace TxIndex
namespace Decimal

/-- What stands before the first point, and what stands after it. -/
def splitPoint (cs : List Char) : List Char × Option (List Char) :=
  (cs.takeWhile (· ≠ '.'), match cs.dropWhile (· ≠ '.') with
    | [] => none
    | _ :: fraction => some fraction)

/-- The text without a leading minus sign. -/
def dropMinus : List Char → List Char
  | '-' :: rest => rest
  | cs => cs

/-- The text is a decimal literal. -/
def isLiteral (cs : List Char) : Bool :=
  match splitPoint (dropMinus cs) with
  | (whole, none) => isDigits whole
  | (whole, some fraction) => isDigits whole && isDigits fraction

/-- The text is a decimal literal up to its first NUL, and what follows is not looked at. -/
def isNumeric (cs : List Char) : Bool := isLiteral (cs.takeWhile (· ≠ '\x00'))

/-- The integer that a text writes: a sign of either kind may lead, and digits must follow. -/
def integer? : List Char → Option Int
  | '-' :: digits => if isDigits digits then some (-(digitsValue digits : Int)) else none
  | '+' :: digits => if isDigits digits then some (digitsValue digits : Int) else none
  | digits => if isDigits digits then some (digitsValue digits : Int) else none

/-- The integer as a word of 64 bits, if it is one. -/
def int64? (n : Int) : Option Int64 :=
  if Int64.minValue.toInt ≤ n ∧ n ≤ Int64.maxValue.toInt then some (Int64.ofInt n) else none

end Decimal

/-- A number as it was written. -/
structure Literal where
  text : String
deriving DecidableEq

namespace Literal

/-- Accepts decimal literals only. -/
def parse? (s : String) : Option Literal :=
  if Decimal.isLiteral s.toList then some ⟨s⟩ else none

/-- The literal of an integer. -/
def ofInt64 (n : Int64) : Literal := ⟨toString n.toInt⟩

/-- The integer that the literal denotes. A fraction of zeros, also an empty one, is dropped. -/
def toInt64? (n : Literal) : Option Int64 :=
  match Decimal.splitPoint n.text.toList with
  | (whole, none) => (Decimal.integer? whole).bind Decimal.int64?
  | (whole, some fraction) =>
    if fraction.all (· = '0') then (Decimal.integer? whole).bind Decimal.int64? else none

/-- The integer that the literal denotes, or a failure that shows the literal. -/
def toInt64 (n : Literal) : Except Failure Int64 :=
  match n.toInt64? with
  | some value => .ok value
  | none => .error (.heightNotIntegral n.text)

end Literal
end TxIndex
