/-! # Rounding quotients

A fraction is rounded to a binary number in two steps: it is measured in units of a power of two,
and the measure is rounded to a whole number. All arithmetic is exact. -/
namespace TxIndex
namespace Rounding

/-- The quotient rounded to the nearest integer, a tie to the even one. -/
def nearest (n d : Nat) : Nat :=
  let q := n / d
  let r := n % d
  if 2 * r < d then q else if d < 2 * r then q + 1 else q + q % 2

/-- The fraction `n / d` divided by `2 ^ e`, as a fraction. -/
def inUnits (n d : Nat) (e : Int) : Nat × Nat :=
  if 0 ≤ e then (n, d <<< e.toNat) else (n <<< (-e).toNat, d)

/-- The exponent of the greatest power of two that is at most `n / d`, both being positive. -/
def floorLog2 (n d : Nat) : Int :=
  let k := (n.log2 : Int) - d.log2
  let (n', d') := inUnits n d k
  if n' < d' then k - 1 else k

end Rounding
end TxIndex
