import TxIndex.Proofs.Decimal.Rounding
import TxIndex.Proofs.Decimal.Values

/-! # Fractions as binary64

The rank that is computed for a fraction is that of the nearest number, unless the fraction is past
the greatest one (`Binary64.isRounded_rankOfRatio`). The proof compares the fraction with the two
middles next to that number. In units of its last place the fraction is rounded by no more than a
half; the neighbour above is at least one unit off (`le_size_rankOfRatio_succ`), and so is the one
below, unless the number is the first of its row. In that case the fraction is not below the number
at all (`size_add_le`). -/
namespace TxIndex
namespace Binary64

open Rounding

variable {n d : Nat}

/-- The greatest number is below the next power of two. -/
theorem greatest_lt : (greatest : ℚ) < 2 ^ 1024 := by
  have hlt : greatest < 2 ^ 1024 := by decide +kernel
  exact_mod_cast hlt

/-! ### Measures -/

/-- The exponent of the last place of a fraction as a binary64 number. -/
def lastPlace (n d : Nat) : Int := max (floorLog2 n d - 52) (-1074)

/-- A fraction measured in units of its last place, and rounded. -/
def measure (n d : Nat) : Nat :=
  nearest (inUnits n d (lastPlace n d)).1 (inUnits n d (lastPlace n d)).2

/-- The row of the ranks of a fraction, by its last place. -/
def row (n d : Nat) : Nat := (lastPlace n d + 1074).toNat

theorem row_eq (n d : Nat) : (row n d : Int) - 1074 = lastPlace n d := by
  have : -1074 ≤ lastPlace n d := le_max_right _ _
  unfold row
  omega

theorem rankOfRatio_eq (hn : 0 < n) (hle : n ≤ greatest * d) :
    rankOfRatio n d = row n d * 2 ^ 52 + measure n d := by
  rw [rankOfRatio, if_neg hn.ne', if_neg (Nat.not_lt.2 hle), ← Nat.shiftLeft_eq]
  rfl

theorem eq_units_mul (n d : Nat) :
    (n : ℚ) / d = n / d / 2 ^ lastPlace n d * 2 ^ lastPlace n d :=
  (div_mul_cancel₀ _ (zpow_pos two_pos _).ne').symm

theorem measure_bounds (hd : 0 < d) :
    (n : ℚ) / d / 2 ^ lastPlace n d - 1 / 2 ≤ measure n d ∧
      (measure n d : ℚ) ≤ n / d / 2 ^ lastPlace n d + 1 / 2 := by
  rw [← inUnits_eq]
  exact nearest_bounds (inUnits_pos hd _)

/-- A measure from which a half is rounded off is even. -/
theorem even_measure (hd : 0 < d)
    (h : (n : ℚ) / d / 2 ^ lastPlace n d = measure n d + 1 / 2 ∨
      (measure n d : ℚ) = n / d / 2 ^ lastPlace n d + 1 / 2) : Even (measure n d) := by
  rw [← inUnits_eq] at h
  exact even_nearest (inUnits_pos hd _) h

/-- A fraction has at most 53 places. -/
theorem units_lt (hn : 0 < n) (hd : 0 < d) : (n : ℚ) / d / 2 ^ lastPlace n d < 2 ^ 53 := by
  have hexponent : floorLog2 n d + 1 ≤ 53 + lastPlace n d := by
    have := le_max_left (floorLog2 n d - 52) (-1074)
    unfold lastPlace
    omega
  rw [div_lt_iff₀ (zpow_pos two_pos _), ← zpow_ofNat, ← zpow_add₀ two_ne_zero]
  exact (floorLog2_bounds hn hd).2.trans_le (zpow_le_zpow_right₀ one_le_two hexponent)

/-- A fraction has 53 places, unless its last place is the least of all. -/
theorem le_units (hn : 0 < n) (hd : 0 < d) (h : row n d ≠ 0) :
    (2 : ℚ) ^ 52 ≤ n / d / 2 ^ lastPlace n d := by
  have hleast : lastPlace n d ≠ -1074 := by
    have := row_eq n d
    omega
  have hplace : lastPlace n d = floorLog2 n d - 52 := (max_choice _ _).resolve_right hleast
  have hexponent : floorLog2 n d = 52 + lastPlace n d := by omega
  rw [le_div_iff₀ (zpow_pos two_pos _), ← zpow_ofNat, ← zpow_add₀ two_ne_zero, ← hexponent]
  exact (floorLog2_bounds hn hd).1

/-- A fraction is measured by no more than 53 places. -/
theorem measure_le (hn : 0 < n) (hd : 0 < d) : measure n d ≤ 2 ^ 53 := by
  have hmeasure := (@measure_bounds n d hd).2
  have hplaces := units_lt hn hd
  have hlt : (measure n d : ℚ) < (2 ^ 53 + 1 : Nat) := by
    push_cast
    linarith
  exact Nat.lt_succ_iff.1 (by exact_mod_cast hlt)

/-- Past the first row a fraction is measured by 53 places. -/
theorem le_measure (hn : 0 < n) (hd : 0 < d) : row n d = 0 ∨ 2 ^ 52 ≤ measure n d := by
  refine or_iff_not_imp_left.2 fun hrow => ?_
  have hmeasure := (@measure_bounds n d hd).1
  have hplaces := le_units hn hd hrow
  have hlt : (2 ^ 52 : Nat) < (measure n d : ℚ) + 1 := by
    push_cast
    linarith
  exact Nat.lt_succ_iff.1 (by exact_mod_cast hlt)

/-! ### Middles -/

section Middles

variable (hn : 0 < n) (hd : 0 < d) (hle : n ≤ greatest * d)
include hn hd hle

theorem size_rankOfRatio : size (rankOfRatio n d) = measure n d * 2 ^ lastPlace n d := by
  rw [rankOfRatio_eq hn hle, size_eq (measure_le hn hd) (le_measure hn hd), row_eq]

/-- The neighbour above is at least one unit off. -/
theorem le_size_rankOfRatio_succ :
    (measure n d + 1 : ℚ) * 2 ^ lastPlace n d ≤ size (rankOfRatio n d + 1) := by
  rcases (measure_le hn hd).eq_or_lt with hfull | hlt
  · -- The number is the first of the next row, where units are twice as great.
    have hrank : rankOfRatio n d + 1 = (row n d + 1) * 2 ^ 52 + (2 ^ 52 + 1) := by
      rw [rankOfRatio_eq hn hle, hfull]
      omega
    have hexponent : ((row n d + 1 : Nat) : Int) - 1074 = lastPlace n d + 1 := by
      have := row_eq n d
      omega
    have hunit : (0 : ℚ) < 2 ^ lastPlace n d := zpow_pos two_pos _
    rw [hrank, size_eq (by norm_num) (.inr (Nat.le_succ _)), hexponent, hfull,
      zpow_add_one₀ two_ne_zero]
    push_cast
    linarith
  · have hnext := size_eq hlt ((le_measure hn hd).imp_right Nat.le_succ_of_le)
    rw [rankOfRatio_eq hn hle, add_assoc, hnext, row_eq]
    push_cast
    rfl

/-- A fraction is not below the middle to the neighbour below, and at the middle the rank is
even. -/
theorem size_add_le {r : Nat} (hr : rankOfRatio n d = r + 1) :
    size r + size (r + 1) ≤ 2 * (n / d) ∧
      (size r + size (r + 1) = 2 * (n / d) → Even (measure n d)) := by
  have hunit : (0 : ℚ) < 2 ^ lastPlace n d := zpow_pos two_pos _
  have hsize := size_rankOfRatio hn hd hle
  have hlow := (@measure_bounds n d hd).2
  have hfraction := eq_units_mul n d
  rw [hr] at hsize
  by_cases hfirst : row n d ≠ 0 ∧ measure n d = 2 ^ 52
  · have hplaces := mul_le_mul_of_nonneg_right (le_units hn hd hfirst.1) hunit.le
    have hlt := size_strictMono (Nat.lt_succ_self r)
    rw [← hfraction] at hplaces
    rw [hfirst.2] at hsize
    push_cast at hsize
    exact ⟨by linarith, fun _ => hfirst.2 ▸ by decide⟩
  · have hparts := le_measure hn hd
    have hrank := rankOfRatio_eq hn hle
    obtain ⟨m, hm⟩ : ∃ m, measure n d = m + 1 := Nat.exists_eq_add_of_le' (by omega)
    have hpred : size r = m * 2 ^ lastPlace n d := by
      have hbelow : r = row n d * 2 ^ 52 + m := by omega
      have hmeasure := measure_le hn hd
      rw [hbelow, size_eq (by omega) (by omega), row_eq]
    have htie := @even_measure n d hd
    rw [hm] at hlow hsize htie ⊢
    rw [hpred, hsize, hfraction]
    generalize (2 : ℚ) ^ lastPlace n d = u at hunit hlow htie ⊢
    generalize (n : ℚ) / d / u = t at hlow htie ⊢
    push_cast at hlow htie ⊢
    refine ⟨by nlinarith, fun heq => htie (.inr ?_)⟩
    have hhalf : ((m : ℚ) + m + 1) * u = 2 * t * u := by linarith
    have := mul_right_cancel₀ hunit.ne' hhalf
    linarith

/-- A fraction is not above the middle to the neighbour above, and at the middle the rank is
even. -/
theorem le_size_add : 2 * (n / d : ℚ) ≤ size (rankOfRatio n d) + size (rankOfRatio n d + 1) ∧
    (2 * (n / d : ℚ) = size (rankOfRatio n d) + size (rankOfRatio n d + 1) →
      Even (measure n d)) := by
  have hunit : (0 : ℚ) < 2 ^ lastPlace n d := zpow_pos two_pos _
  have hnext := le_size_rankOfRatio_succ hn hd hle
  have hhigh := (@measure_bounds n d hd).1
  have htie := @even_measure n d hd
  have hfraction := eq_units_mul n d
  rw [size_rankOfRatio hn hd hle, hfraction]
  generalize (2 : ℚ) ^ lastPlace n d = u at hunit hnext hhigh htie ⊢
  generalize (n : ℚ) / d / u = t at hhigh htie ⊢
  have hhalf := mul_le_mul_of_nonneg_right hhigh hunit.le
  refine ⟨by linarith, fun heq => htie (.inl (le_antisymm (by linarith) ?_))⟩
  refine le_of_mul_le_mul_right ?_ hunit
  linarith

/-- The rank that is computed is no higher than that of infinity. -/
theorem rankOfRatio_le : rankOfRatio n d ≤ infinityRank := by
  have hratio : (n : ℚ) / d ≤ greatest := by
    rw [div_le_iff₀ (by exact_mod_cast hd)]
    exact_mod_cast hle
  have hlt : (n : ℚ) / d < 2 ^ (1024 : Int) := hratio.trans_lt (by exact_mod_cast greatest_lt)
  have hexponent := (zpow_lt_zpow_iff_right₀ one_lt_two).1
    ((floorLog2_bounds hn hd).1.trans_lt hlt)
  have hrow : row n d ≤ 2045 := by
    unfold row lastPlace
    omega
  have hinfinity : infinityRank = 2047 * 2 ^ 52 := Nat.shiftLeft_eq _ _
  have := measure_le hn hd
  rw [rankOfRatio_eq hn hle]
  omega

/-- **The number that is computed for a fraction is the nearest one.** The fraction lies between the
middles to the two neighbours, and where it lies on one of them the rank is even, so ties are
decided as they should be. -/
theorem isNearest_rankOfRatio : IsNearest (n / d) ⟨rankOfRatio n d⟩ := by
  have heven : Even (measure n d) → Even (rankOfRatio n d : Int) := by
    rw [Int.even_coe_nat, rankOfRatio_eq hn hle]
    exact fun h => .add (.mul_left (by decide) _) h
  have hratio : (0 : ℚ) ≤ n / d := by positivity
  obtain ⟨hhigh, htie⟩ := le_size_add hn hd hle
  have hbelow : midpoint (rankOfRatio n d - 1) ≤ n / d ∧
      ((n : ℚ) / d = midpoint (rankOfRatio n d - 1) → Even (rankOfRatio n d : Int)) := by
    rcases hr : rankOfRatio n d with _ | r
    · -- Zero is even, and the number below it is the opposite of the least one.
      have hmiddle : midpoint (((0 : Nat) : Int) - 1) = -midpoint ((0 : Nat) : Int) :=
        midpoint_neg 0
      have hnext := size_nonneg (0 + 1)
      rw [hmiddle, midpoint_natCast, size_zero]
      exact ⟨by linarith, fun _ => .zero⟩
    · obtain ⟨hlow, htie⟩ := size_add_le hn hd hle hr
      have hpred : ((r + 1 : Nat) : Int) - 1 = r := by omega
      rw [hr] at heven
      rw [hpred, midpoint_natCast]
      exact ⟨by linarith, fun heq => heven (htie (by linarith))⟩
  refine isNearest_of_midpoints (rankOfRatio_le hn hd hle) hbelow.1 ?_ ?_
  · rw [midpoint_natCast]
    linarith
  · rw [midpoint_natCast]
    exact fun h => h.elim hbelow.2 fun heq => heven (htie (by linarith))

end Middles

/-! ### Overflow -/

/-- The number is what a fraction is rounded to: the nearest number, except that a fraction past the
greatest number becomes infinity however near it is to that. -/
structure IsRounded (q : ℚ) (b : Binary64) : Prop where
  nearest : |q| ≤ greatest → IsNearest q b
  infinite : greatest < q → b = ⟨infinityRank⟩
  infinite_neg : q < -greatest → b = ⟨-infinityRank⟩

theorem greatest_eq : (greatest : ℚ) = (2 ^ 53 - 1) * 2 ^ 971 := by
  have hshift : ∀ k : Nat, ((((1 <<< 53) - 1) <<< k : Nat) : ℚ) = (2 ^ 53 - 1) * 2 ^ k := by
    intro k
    rw [Nat.shiftLeft_eq]
    push_cast
    norm_num
  exact hshift 971

/-- The greatest number comes before infinity. -/
theorem size_greatest : size (infinityRank - 1) = greatest := by
  have hparts : infinityRank - 1 = 2045 * 2 ^ 52 + (2 ^ 53 - 1) := by
    rw [infinityRank, Nat.shiftLeft_eq]
    decide
  have hexponent : ((2045 : Nat) : Int) - 1074 = (971 : Nat) := by decide
  rw [hparts, size_eq (Nat.sub_le _ _) (.inr (by decide)), greatest_eq, hexponent, zpow_natCast]
  push_cast
  norm_num

theorem isRounded_infinity {q : ℚ} (h : greatest < q) : IsRounded q ⟨infinityRank⟩ := by
  have hgreatest : (0 : ℚ) ≤ greatest := Nat.cast_nonneg _
  exact ⟨fun hle => absurd ((le_abs_self q).trans hle) h.not_ge, fun _ => rfl,
    fun hlt => absurd hlt (by linarith)⟩

theorem midpoint_zero : midpoint 0 = 1 / 2 ^ 1075 := by
  have hmiddle : midpoint 0 = (size 0 + size (0 * 2 ^ 52 + 1)) / 2 := midpoint_natCast 0
  have hexponent : ((0 : Nat) : Int) - 1074 = -(1074 : Nat) := rfl
  rw [hmiddle, size_zero, size_eq (by decide) (.inl rfl), hexponent, zpow_neg, zpow_natCast,
    Nat.cast_one, one_mul, zero_add, ← one_div, div_div, ← pow_succ]

theorem midpoint_zero_pos : 0 < midpoint 0 := by
  rw [midpoint_zero]
  positivity

theorem midpoint_zero_le_greatest : midpoint 0 ≤ greatest := by
  have hone : (1 : ℚ) ≤ greatest := by exact_mod_cast (by decide +kernel : 1 ≤ greatest)
  rw [midpoint_zero]
  exact (div_le_one_of_le₀ (one_le_pow₀ one_le_two) (by positivity)).trans hone

/-- A fraction up to the half of the least number is rounded to zero. -/
theorem isRounded_zero {q : ℚ} (hq : 0 ≤ q) (hle : q ≤ midpoint 0) : IsRounded q ⟨0⟩ := by
  have hbelow : midpoint (0 - 1) = -midpoint 0 := midpoint_neg 0
  have hpos := midpoint_zero_pos
  have hgreatest := midpoint_zero_le_greatest
  refine ⟨fun _ => ?_, fun h => absurd h (by linarith), fun h => absurd h (by linarith)⟩
  exact isNearest_of_midpoints (Nat.zero_le _) (by linarith) hle fun _ => .zero

/-- **The number that is computed for a fraction is what it is rounded to.** Zero and the fractions
past the greatest number are not measured at all, so they are cases of their own. -/
theorem isRounded_rankOfRatio (hd : 0 < d) : IsRounded (n / d) ⟨rankOfRatio n d⟩ := by
  have hd' : (0 : ℚ) < d := by exact_mod_cast hd
  have hratio : (0 : ℚ) ≤ n / d := by positivity
  have hgreatest : (0 : ℚ) ≤ greatest := Nat.cast_nonneg _
  have hle_iff : (n : ℚ) / d ≤ greatest ↔ n ≤ greatest * d := by
    rw [div_le_iff₀ hd']
    exact_mod_cast Iff.rfl
  refine ⟨fun hle => ?_, fun hlt => ?_, fun hlt => absurd hlt (by linarith)⟩
  · rw [abs_of_nonneg hratio, hle_iff] at hle
    rcases Nat.eq_zero_or_pos n with rfl | hn
    · rw [Nat.cast_zero, zero_div] at hratio ⊢
      exact (isRounded_zero le_rfl midpoint_zero_pos.le).nearest (by rwa [abs_zero])
    · exact isNearest_rankOfRatio hn hd hle
  · have hpast : greatest * d < n := Nat.not_le.1 fun hle => hlt.not_ge (hle_iff.2 hle)
    rw [rankOfRatio, if_neg (by omega), if_pos hpast]

end Binary64
end TxIndex
