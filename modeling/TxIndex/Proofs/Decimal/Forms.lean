import TxIndex.Decimal.Binary64
import TxIndex.Proofs.Decimal.Extended

/-! # Forms of one number

A decimal number has many forms, as more or fewer of its tens may stand in the power. By its leading
digits and a balanced power it has one only, so it is read as the same number in extended precision
whatever its form (`Binary64.ofDecimal_congr`).

Only one ten is moved at a time. Where digits are dropped anyway, one more of them is dropped
(`Decimal.leading_ten`); where there are few, the balance takes the ten up (`Decimal.balanced_ten`).
Two forms of one number differ by such tens (`Decimal.exists_digits_eq`). -/
namespace TxIndex
namespace Decimal

/-- Few digits are all kept. -/
theorem dropDigits_of_lt {bound n : Nat} (h : n / 10 < enough) : dropDigits bound n = (n, 0) := by
  cases bound with
  | zero => rfl
  | succ bound => rw [dropDigits, if_neg (Nat.not_le.2 h)]

theorem dropDigits_succ {bound n : Nat} (h : n.log2 ≤ bound) :
    dropDigits (bound + 1) n = dropDigits bound n := by
  induction bound generalizing n with
  | zero =>
    have hn : n < 2 ^ (n.log2 + 1) := Nat.lt_log2_self
    have henough : 0 < enough := by decide
    rw [Nat.le_zero.1 h] at hn
    rw [dropDigits_of_lt (by omega), dropDigits_of_lt (by omega)]
  | succ bound ih =>
    unfold dropDigits
    rw [ih (log2_div_ten_le h)]

/-- A bound past the length of a number makes no difference. -/
theorem dropDigits_eq {bound n : Nat} (h : n.log2 ≤ bound) :
    dropDigits bound n = dropDigits n.log2 n := by
  induction bound, h using Nat.le_induction with
  | base => rfl
  | succ bound h ih => rw [dropDigits_succ h, ih]

section Tens

variable {negative : Bool} {digits : Nat} {exponent : Int}

theorem leading_of_lt (h : digits / 10 < enough) :
    leading ⟨negative, digits, exponent⟩ = ⟨negative, digits, exponent⟩ := by
  rw [leading, dropDigits_of_lt h]
  simp

/-- Of many digits a ten more is dropped. -/
theorem leading_ten (h : enough ≤ digits) :
    leading ⟨negative, 10 * digits, exponent - 1⟩ = leading ⟨negative, digits, exponent⟩ := by
  have hpos : 0 < digits := (by decide : 0 < enough).trans_le h
  have hlength : digits.log2 + 1 ≤ (10 * digits).log2 := by
    rw [Nat.le_log2 (by omega), pow_succ]
    have := Nat.log2_self_le hpos.ne'
    omega
  obtain ⟨bound, hbound⟩ := Nat.exists_eq_add_of_le' (Nat.le_of_add_left_le hlength)
  have hdrop : dropDigits (10 * digits).log2 (10 * digits) =
      ((dropDigits digits.log2 digits).1, (dropDigits digits.log2 digits).2 + 1) := by
    rw [hbound, dropDigits, if_pos (by omega), Nat.mul_div_cancel_left _ (by decide),
      dropDigits_eq (by omega)]
  rw [leading, leading, hdrop]
  simp only [mk.injEq, true_and]
  omega

/-- Of few digits a ten more is balanced by the power. -/
theorem balanced_ten (h : digits < enough) :
    balanced ⟨negative, 10 * digits, exponent - 1⟩ = balanced ⟨negative, digits, exponent⟩ := by
  have hword : digits < (UInt64.size - 1) / 10 := by
    have : enough < (UInt64.size - 1) / 10 := by decide
    omega
  have hcancel : ∀ e, cancelTens (10 * digits) (e + 1) = cancelTens digits e := fun e => by
    rw [cancelTens, if_pos (by omega), Nat.mul_div_cancel_left _ (by decide)]
  have htake : ∀ e, takeTens digits (e + 1) = takeTens (10 * digits) e := fun e => by
    rw [takeTens, if_pos hword]
  rcases Int.lt_trichotomy exponent 0 with hneg | rfl | hpos
  · obtain ⟨k, rfl⟩ : ∃ k : Nat, exponent = -(k : Int) := ⟨exponent.natAbs, by omega⟩
    have hk : (-(-(k : Int) - 1)).toNat = k + 1 := by omega
    have hk' : (-(-(k : Int))).toNat = k := by omega
    simp only [balanced]
    rw [if_neg (by omega), if_neg (by omega), hk, hk', hcancel]
  · simp only [balanced]
    rw [if_neg (by decide), if_pos (by decide)]
    have := hcancel 0
    simp [this, cancelTens, takeTens]
  · obtain ⟨k, rfl⟩ : ∃ k : Nat, exponent = (k : Int) + 1 := ⟨exponent.natAbs - 1, by omega⟩
    have hk : ((k : Int) + 1 - 1).toNat = k := by omega
    have hk' : ((k : Int) + 1).toNat = k + 1 := by omega
    simp only [balanced]
    rw [if_pos (by omega), if_pos (by omega), hk, hk', htake]

theorem leading_balanced_ten :
    (leading ⟨negative, 10 * digits, exponent - 1⟩).balanced =
      (leading ⟨negative, digits, exponent⟩).balanced := by
  rcases Nat.lt_or_ge digits enough with h | h
  · rw [leading_of_lt (by omega), leading_of_lt (by omega), balanced_ten h]
  · rw [leading_ten h]

/-- Tens from the power may stand in the digits. -/
theorem leading_balanced_tens (k : Nat) :
    (leading ⟨negative, 10 ^ k * digits, exponent - k⟩).balanced =
      (leading ⟨negative, digits, exponent⟩).balanced := by
  induction k with
  | zero => simp
  | succ k ih =>
    have hdigits : 10 ^ (k + 1) * digits = 10 * (10 ^ k * digits) := by
      rw [pow_succ', mul_assoc]
    have hexponent : exponent - (k + 1 : Nat) = exponent - k - 1 := by omega
    rw [hdigits, hexponent, leading_balanced_ten, ih]

end Tens

/-- The number itself. -/
def value (x : Decimal) : ℚ := if x.negative then -x.size else x.size

theorem abs_value (x : Decimal) : |x.value| = x.size := by
  unfold value
  split
  · rw [abs_neg, abs_of_nonneg x.size_nonneg]
  · exact abs_of_nonneg x.size_nonneg

theorem value_eq_zero_iff {x : Decimal} : x.value = 0 ↔ x.digits = 0 := by
  rw [← abs_eq_zero, abs_value, ← not_iff_not, ← ne_eq, ← x.size_nonneg.lt_iff_ne', size_pos]
  exact Nat.pos_iff_ne_zero

/-- Two forms of a number other than zero have the same sign. -/
theorem negative_eq {x y : Decimal} (hx : 0 < x.digits) (h : x.value = y.value) :
    x.negative = y.negative := by
  have hsize : x.size = y.size := by rw [← abs_value, h, abs_value]
  have hpos := size_pos.2 hx
  unfold value at h
  cases hnegative : x.negative <;> cases hnegative' : y.negative <;>
    simp only [hnegative, hnegative', if_true, Bool.false_eq_true, if_false] at h ⊢ <;> linarith

/-- Two forms of a number have the same digits but for tens. -/
theorem exists_digits_eq {x y : Decimal} (h : x.size = y.size) (hle : x.exponent ≤ y.exponent) :
    ∃ k : Nat, x.digits = 10 ^ k * y.digits ∧ x.exponent = y.exponent - k := by
  refine ⟨(y.exponent - x.exponent).toNat, ?_, by omega⟩
  have hexponent : y.exponent = (y.exponent - x.exponent).toNat + x.exponent := by omega
  rw [size, size, hexponent, zpow_add₀ (by norm_num), ← mul_assoc, zpow_natCast] at h
  have hcast := mul_right_cancel₀ (zpow_ne_zero x.exponent (by norm_num)) h
  rw [mul_comm]
  exact_mod_cast hcast

end Decimal

/-- Forms of one number are read as one. -/
theorem Extended.ofDecimal_congr {x y : Decimal} (hx : 0 < x.digits) (h : x.value = y.value) :
    Extended.ofDecimal x = Extended.ofDecimal y := by
  have hsize : x.size = y.size := by rw [← Decimal.abs_value, h, Decimal.abs_value]
  wlog hle : x.exponent ≤ y.exponent generalizing x y
  · have hy : 0 < y.digits := Decimal.size_pos.1 (hsize ▸ Decimal.size_pos.2 hx)
    exact (this hy h.symm hsize.symm (le_of_not_ge hle)).symm
  obtain ⟨k, hdigits, hexponent⟩ := Decimal.exists_digits_eq hsize hle
  have hx' : x = ⟨y.negative, 10 ^ k * y.digits, y.exponent - k⟩ := by
    rw [← hdigits, ← hexponent, ← Decimal.negative_eq hx h]
  have hleading : x.leading.balanced = y.leading.balanced := by
    rw [hx', Decimal.leading_balanced_tens]
  rw [ofDecimal, ofDecimal, hleading]

/-- Forms of one number are one binary64 number. -/
theorem Binary64.ofDecimal_congr {x y : Decimal} (h : x.value = y.value) :
    Binary64.ofDecimal x = Binary64.ofDecimal y := by
  have hzero : x.digits = 0 ↔ y.digits = 0 := by
    rw [← Decimal.value_eq_zero_iff, h, Decimal.value_eq_zero_iff]
  unfold ofDecimal
  by_cases hx : x.digits = 0
  · rw [if_pos hx, if_pos (hzero.1 hx)]
  · have hpos := Nat.pos_of_ne_zero hx
    rw [if_neg hx, if_neg fun hy => hx (hzero.2 hy), Extended.ofDecimal_congr hpos h,
      Decimal.negative_eq hpos h]

end TxIndex
