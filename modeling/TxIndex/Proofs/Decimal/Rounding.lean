import Mathlib.Algebra.Order.Field.Power
import Mathlib.Algebra.Ring.Parity
import Mathlib.Tactic.FieldSimp
import Mathlib.Tactic.Linarith
import Mathlib.Tactic.NormNum
import Mathlib.Tactic.Positivity
import Mathlib.Tactic.Ring
import TxIndex.Decimal.Rounding

/-! # Rounding fractions

What the two steps of rounding do to a fraction, said of rational numbers. A fraction is measured in
units of a power of two exactly (`Rounding.inUnits_eq`), and its measure is rounded to a whole
number by no more than a half (`Rounding.nearest_bounds`), which is even if a half is lacking
(`Rounding.even_nearest`). The power is found from the lengths of numerator and denominator
(`Rounding.floorLog2_bounds`). Both precisions, that of 64 bits and that of 53, rest on these. -/
namespace TxIndex
namespace Rounding

variable {n d : Nat}

theorem inUnits_pos (hd : 0 < d) (e : Int) : 0 < (inUnits n d e).2 := by
  unfold inUnits
  split
  · exact Nat.shiftLeft_eq d _ ▸ Nat.mul_pos hd (Nat.two_pow_pos _)
  · exact hd

/-- A fraction in units of a power of two is the fraction divided by the power. -/
theorem inUnits_eq (n d : Nat) (e : Int) :
    ((inUnits n d e).1 : ℚ) / (inUnits n d e).2 = n / d / 2 ^ e := by
  unfold inUnits
  split
  · next h =>
    obtain ⟨k, rfl⟩ := Int.eq_ofNat_of_zero_le h
    rw [Int.toNat_natCast, Nat.shiftLeft_eq, zpow_natCast]
    push_cast
    rw [div_div]
  · next h =>
    obtain ⟨k, hk⟩ := Int.eq_ofNat_of_zero_le (a := -e) (by omega)
    obtain rfl : e = -(k : Int) := by omega
    rw [neg_neg, Int.toNat_natCast, Nat.shiftLeft_eq, zpow_neg, zpow_natCast, div_inv_eq_mul]
    push_cast
    rw [div_mul_eq_mul_div]

/-- A quotient is rounded by no more than a half. -/
theorem nearest_bounds (hd : 0 < d) :
    (n : ℚ) / d - 1 / 2 ≤ nearest n d ∧ (nearest n d : ℚ) ≤ n / d + 1 / 2 := by
  have hd' : (0 : ℚ) < d := by exact_mod_cast hd
  have hquotient : (n : ℚ) / d = (n / d : Nat) + (n % d : Nat) / d := by
    have hn : (n : ℚ) = d * (n / d : Nat) + (n % d : Nat) := by
      exact_mod_cast (Nat.div_add_mod n d).symm
    rw [eq_comm, eq_div_iff hd'.ne', add_mul, div_mul_cancel₀ _ hd'.ne', mul_comm]
    exact hn.symm
  have hlow : ∀ {r : Nat}, 2 * r ≤ d → (r : ℚ) / d ≤ 1 / 2 := fun {r} h => by
    rw [div_le_div_iff₀ hd' two_pos]
    exact_mod_cast (by omega : r * 2 ≤ 1 * d)
  have hhigh : ∀ {r : Nat}, d ≤ 2 * r → 1 / 2 ≤ (r : ℚ) / d := fun {r} h => by
    rw [div_le_div_iff₀ two_pos hd']
    exact_mod_cast (by omega : 1 * d ≤ r * 2)
  have hnonneg : (0 : ℚ) ≤ (n % d : Nat) / d := by positivity
  have hone : ((n % d : Nat) : ℚ) / d ≤ 1 := by
    rw [div_le_one hd']
    exact_mod_cast (Nat.mod_lt n hd).le
  rw [hquotient]
  unfold nearest
  dsimp only
  split
  · next h =>
    have := hlow h.le
    constructor <;> linarith
  · split
    · next h =>
      have := hhigh h.le
      push_cast
      constructor <;> linarith
    · next h h' =>
      have htie : ((n % d : Nat) : ℚ) / d = 1 / 2 :=
        le_antisymm (hlow (by omega)) (hhigh (by omega))
      rcases Nat.mod_two_eq_zero_or_one (n / d) with hmod | hmod <;> rw [hmod, htie] <;>
        push_cast <;> constructor <;> linarith

/-- A quotient that lies half way between two integers is rounded to the even one. -/
theorem even_nearest (hd : 0 < d)
    (h : (n : ℚ) / d = nearest n d + 1 / 2 ∨ (nearest n d : ℚ) = n / d + 1 / 2) :
    Even (nearest n d) := by
  have hd' : (0 : ℚ) < d := by exact_mod_cast hd
  have htie : 2 * n = (2 * nearest n d + 1) * d ∨ 2 * nearest n d * d = 2 * n + d := by
    refine h.imp (fun h => ?_) fun h => ?_
    · rw [div_eq_iff hd'.ne'] at h
      have hcast : (2 * n : ℚ) = (2 * nearest n d + 1) * d := by
        rw [h]
        ring
      exact_mod_cast hcast
    · rw [← sub_eq_iff_eq_add, eq_div_iff hd'.ne'] at h
      have hcast : (2 * nearest n d * d : ℚ) = 2 * n + d := by
        rw [← h]
        ring
      exact_mod_cast hcast
  have hn := Nat.div_add_mod n d
  have hmod := Nat.mod_lt n hd
  rw [mul_comm] at hn
  unfold nearest at htie ⊢
  dsimp only at htie ⊢
  generalize n / d = q at hn htie ⊢
  generalize n % d = r at hn hmod htie ⊢
  split at htie
  · next hlt =>
    exfalso
    rcases htie with h | h <;> nlinarith
  · split at htie
    · next hlt =>
      exfalso
      rcases htie with h | h <;> nlinarith
    · next hge hle =>
      rw [if_neg hge, if_neg hle]
      rcases Nat.even_or_odd q with hq | hq
      · rw [Nat.even_iff.1 hq]
        exact hq
      · rw [Nat.odd_iff.1 hq]
        exact hq.add_one

/-- The lengths of its parts bracket a fraction between powers of two. -/
theorem log2_bounds (hn : 0 < n) (hd : 0 < d) :
    (2 : ℚ) ^ ((n.log2 : Int) - d.log2 - 1) ≤ n / d ∧
      (n : ℚ) / d < 2 ^ ((n.log2 : Int) - d.log2 + 1) := by
  have hd' : (0 : ℚ) < d := by exact_mod_cast hd
  have hnlow : (2 : ℚ) ^ n.log2 ≤ n := by exact_mod_cast Nat.log2_self_le hn.ne'
  have hnhigh : (n : ℚ) < 2 ^ (n.log2 + 1) := by exact_mod_cast Nat.lt_log2_self
  have hdlow : (2 : ℚ) ^ d.log2 ≤ d := by exact_mod_cast Nat.log2_self_le hd.ne'
  have hdhigh : (d : ℚ) < 2 ^ (d.log2 + 1) := by exact_mod_cast Nat.lt_log2_self
  have hlow : (2 : ℚ) ^ ((n.log2 : Int) - d.log2 - 1) = 2 ^ n.log2 / 2 ^ (d.log2 + 1) := by
    rw [show (n.log2 : Int) - d.log2 - 1 = (n.log2 : Int) - (d.log2 + 1 : Nat) by omega,
      zpow_sub₀ two_ne_zero, zpow_natCast, zpow_natCast]
  have hhigh : (2 : ℚ) ^ ((n.log2 : Int) - d.log2 + 1) = 2 ^ (n.log2 + 1) / 2 ^ d.log2 := by
    rw [show (n.log2 : Int) - d.log2 + 1 = (n.log2 + 1 : Nat) - (d.log2 : Int) by omega,
      zpow_sub₀ two_ne_zero, zpow_natCast, zpow_natCast]
  rw [hlow, hhigh]
  constructor
  · exact div_le_div₀ (by positivity) hnlow hd' hdhigh.le
  · exact div_lt_div₀ hnhigh hdlow (by positivity) (by positivity)

/-- A fraction is less than a power of two if it measures less than one such unit. -/
theorem inUnits_lt_iff (hd : 0 < d) (e : Int) :
    (inUnits n d e).1 < (inUnits n d e).2 ↔ (n : ℚ) / d < 2 ^ e := by
  have hpos : (0 : ℚ) < (inUnits n d e).2 := by exact_mod_cast inUnits_pos hd e
  have hpower : (0 : ℚ) < 2 ^ e := by positivity
  rw [← div_lt_one hpower, ← inUnits_eq, div_lt_one hpos, Nat.cast_lt]

/-- The exponent of the greatest power of two up to a fraction. -/
theorem floorLog2_bounds (hn : 0 < n) (hd : 0 < d) :
    (2 : ℚ) ^ floorLog2 n d ≤ n / d ∧ (n : ℚ) / d < 2 ^ (floorLog2 n d + 1) := by
  obtain ⟨hlow, hhigh⟩ := log2_bounds hn hd
  have hiff := @inUnits_lt_iff n d hd ((n.log2 : Int) - d.log2)
  have hfloor : floorLog2 n d =
      if (inUnits n d ((n.log2 : Int) - d.log2)).1 < (inUnits n d ((n.log2 : Int) - d.log2)).2
      then (n.log2 : Int) - d.log2 - 1 else (n.log2 : Int) - d.log2 := rfl
  rw [hfloor]
  split
  · next h =>
    rw [sub_add_cancel]
    exact ⟨hlow, hiff.1 h⟩
  · next h => exact ⟨not_lt.1 fun hlt => h (hiff.2 hlt), hhigh⟩

end Rounding
end TxIndex
