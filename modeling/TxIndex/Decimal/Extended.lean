import TxIndex.Decimal.Basic
import TxIndex.Decimal.Rounding

/-! # Decimal numbers in extended precision

A decimal number is read as a whole number of at most 64 bits times a power of ten. The power is
multiplied in by steps of a hundred, ten and one decimal places, and each product is rounded to
64 bits. The roundings add up, so the outcome may lie next to the nearest number of 64 bits. -/
namespace TxIndex

namespace Decimal

/-- As many leading digits of a number as are needed to reach this count; the others are dropped. -/
def enough : Nat := (UInt64.size - 10) / 10

/-- Drops digits from the end as long as those before are enough, and counts them. The first
argument bounds their number. -/
def dropDigits : Nat → Nat → Nat × Nat
  | 0, n => (n, 0)
  | bound + 1, n =>
    if enough ≤ n / 10 then
      let (kept, dropped) := dropDigits bound (n / 10)
      (kept, dropped + 1)
    else (n, 0)

/-- The number by its leading digits, which make a word of 64 bits. -/
def leading (x : Decimal) : Decimal :=
  let (kept, dropped) := dropDigits x.digits.log2 x.digits
  ⟨x.negative, kept, x.exponent + dropped⟩

/-- Moves tens from a power of ten into a word, as long as it stays one of 64 bits. -/
def takeTens : Nat → Nat → Nat × Nat
  | n, 0 => (n, 0)
  | n, e + 1 => if n < (UInt64.size - 1) / 10 then takeTens (10 * n) e else (n, e + 1)

/-- Cancels the tens of a word against a divisor that is a power of ten. -/
def cancelTens : Nat → Nat → Nat × Nat
  | n, 0 => (n, 0)
  | n, e + 1 => if n % 10 = 0 then cancelTens (n / 10) e else (n, e + 1)

/-- The same number with a power of ten as near to one as a word of 64 bits allows. -/
def balanced (x : Decimal) : Decimal :=
  if 0 ≤ x.exponent then
    let (n, e) := takeTens x.digits x.exponent.toNat
    ⟨x.negative, n, e⟩
  else
    let (n, e) := cancelTens x.digits (-x.exponent).toNat
    ⟨x.negative, n, -e⟩

end Decimal

/-- The number `significand * 2 ^ exponent`. -/
structure Extended where
  significand : Nat
  exponent : Int
deriving DecidableEq

namespace Extended

/-- The number nearest to the positive fraction `n / d` among those of 64 bits. -/
def ofRatio (n d : Nat) : Extended :=
  let e := Rounding.floorLog2 n d - 63
  let (n', d') := Rounding.inUnits n d e
  ⟨Rounding.nearest n' d', e⟩

/-- The product of two positive numbers, rounded to 64 bits. -/
def mul (x y : Extended) : Extended :=
  let p := ofRatio (x.significand * y.significand) 1
  ⟨p.significand, p.exponent + x.exponent + y.exponent⟩

/-- Factors that stand for a hundred, ten and one decimal places. -/
structure Places where
  hundred : Extended
  ten : Extended
  one : Extended

/-- The factors that raise a number. -/
def raising : Places := ⟨ofRatio (Nat.pow 10 100) 1, ofRatio (Nat.pow 10 10) 1, ofRatio 10 1⟩

/-- The factors that lower a number. -/
def lowering : Places := ⟨ofRatio 1 (Nat.pow 10 100), ofRatio 1 (Nat.pow 10 10), ofRatio 1 10⟩

/-- The number moved by so many decimal places, the great steps first. -/
def move (step : Places) (places : Nat) (x : Extended) : Extended :=
  let x := Nat.repeat (mul · step.hundred) (places / 100) x
  let x := Nat.repeat (mul · step.ten) (places % 100 / 10) x
  Nat.repeat (mul · step.one) (places % 10) x

/-- The size of a decimal number other than zero. -/
def ofDecimal (x : Decimal) : Extended :=
  let x := x.leading.balanced
  if 0 ≤ x.exponent then move raising x.exponent.toNat ⟨x.digits, 0⟩
  else move lowering (-x.exponent).toNat ⟨x.digits, 0⟩

end Extended
end TxIndex
