import TxIndex.Decimal.Extended

/-! # Decimal numbers as binary64

Numeric comparisons are made between binary64 numbers: each side is read as a decimal number,
brought to extended precision and from there to the nearest one, a tie to the even one, and past
the greatest to infinity. Such a number is given by its rank, its signed distance from zero in the
order of all of them, which is what comparisons depend on; both zeros have rank 0. -/
namespace TxIndex

/-- A binary64 number, not a NaN, by its place in their order. -/
structure Binary64 where
  rank : Int
deriving DecidableEq

namespace Binary64

/-- The rank of infinity: there are `2047 * 2 ^ 52` numbers from zero up to it. -/
def infinityRank : Nat := 2047 <<< 52

/-- The greatest finite number. -/
def greatest : Nat := ((1 <<< 53) - 1) <<< 971

/-- The rank of the number nearest to the fraction `n / d`, or of infinity if the fraction is past
the greatest number. The fraction is measured in units of the last place, which is never below
`2 ^ (-1074)`. -/
def rankOfRatio (n d : Nat) : Nat :=
  if n = 0 then 0
  else if greatest * d < n then infinityRank
  else
    let e := max (Rounding.floorLog2 n d - 52) (-1074)
    let (n', d') := Rounding.inUnits n d e
    ((e + 1074).toNat <<< 52) + Rounding.nearest n' d'

/-- The rank of a number in extended precision. -/
def rankOfExtended (x : Extended) : Nat :=
  let (n, d) := Rounding.inUnits x.significand 1 (-x.exponent)
  rankOfRatio n d

/-- The number for a decimal number. -/
def ofDecimal (x : Decimal) : Binary64 :=
  if x.digits = 0 then ⟨0⟩
  else
    let rank := rankOfExtended (Extended.ofDecimal x)
    ⟨if x.negative then -rank else rank⟩

/-- The number with which a text begins, read as binary64. -/
def ofText (s : String) : Binary64 := ofDecimal (Decimal.read s.toList)

end Binary64
end TxIndex
