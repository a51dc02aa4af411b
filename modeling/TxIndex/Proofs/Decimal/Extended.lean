import Mathlib.Algebra.Order.Ring.Pow
import TxIndex.Decimal.Extended
import TxIndex.Proofs.Decimal.Rounding

/-! # Errors of extended precision

A decimal number is brought to extended precision by a row of products, each of which is rounded,
and so are the factors. Each rounding changes a number by at most one part in `2 ^ 64`, so the error
of the outcome is told by the number of roundings (`Extended.Near`).

A row of products keeps its count of roundings by induction (`Extended.Near.iterate`), and a move by
decimal places is three such rows (`Extended.near_move`). Before the first product the digits that
do not fit are dropped, which counts as sixteen roundings (`Decimal.near_leading`), and tens are
shifted between the digits and the power without any error (`Decimal.size_balanced`). Together they
bound what is read for a decimal number (`Extended.near_ofDecimal`). -/
namespace TxIndex
namespace Extended

/-- The number itself. -/
def value (x : Extended) : ℚ := x.significand * 2 ^ x.exponent

/-- The share of a number that a rounding may change. -/
def rounding : ℚ := 1 / 2 ^ 64

/-- A number is what another becomes by so many roundings. -/
structure Near (roundings : Nat) (x y : ℚ) : Prop where
  lower : x * (1 - rounding) ^ roundings ≤ y
  upper : y ≤ x * (1 + rounding) ^ roundings

section Near

variable {k l : Nat} {x y z x' y' : ℚ}

theorem rounding_pos : 0 < rounding := by norm_num [rounding]

theorem one_sub_rounding_pos : 0 < 1 - rounding := by norm_num [rounding]

theorem Near.refl : Near 0 x x := ⟨by simp, by simp⟩

theorem Near.pos (h : Near k x y) (hx : 0 < x) : 0 < y :=
  (mul_pos hx (pow_pos one_sub_rounding_pos k)).trans_le h.lower

theorem Near.trans (h : Near k x y) (h' : Near l y z) : Near (k + l) x z where
  lower := by
    have := mul_le_mul_of_nonneg_right h.lower (pow_pos one_sub_rounding_pos l).le
    rw [pow_add, ← mul_assoc]
    exact this.trans h'.lower
  upper := by
    have hfactor : (0 : ℚ) ≤ (1 + rounding) ^ l := pow_nonneg (by linarith [rounding_pos]) l
    have := mul_le_mul_of_nonneg_right h.upper hfactor
    rw [pow_add, ← mul_assoc]
    exact h'.upper.trans this

theorem Near.mul (h : Near k x y) (h' : Near l x' y') (hx : 0 < x) (hx' : 0 < x') :
    Near (k + l) (x * x') (y * y') where
  lower := by
    rw [pow_add, mul_mul_mul_comm]
    exact mul_le_mul h.lower h'.lower (mul_pos hx' (pow_pos one_sub_rounding_pos l)).le
      (h.pos hx).le
  upper := by
    have hfactor : (0 : ℚ) ≤ (1 + rounding) ^ k := pow_nonneg (by linarith [rounding_pos]) k
    rw [pow_add, mul_mul_mul_comm]
    exact mul_le_mul h.upper h'.upper (h'.pos hx').le (mul_nonneg hx.le hfactor)

end Near

theorem value_pos {x : Extended} : 0 < x.value ↔ 0 < x.significand := by
  rw [value, mul_pos_iff_of_pos_right (zpow_pos two_pos _), Nat.cast_pos]

/-- Rounding a fraction to 64 bits is one rounding. -/
theorem near_ofRatio {n d : Nat} (hn : 0 < n) (hd : 0 < d) :
    Near 1 ((n : ℚ) / d) (ofRatio n d).value := by
  let e := Rounding.floorLog2 n d - 63
  let units := Rounding.inUnits n d e
  have hvalue : (ofRatio n d).value = Rounding.nearest units.1 units.2 * 2 ^ e := rfl
  have hunit : (0 : ℚ) < 2 ^ e := zpow_pos two_pos _
  have hunits : (units.1 : ℚ) / units.2 = n / d / 2 ^ e := Rounding.inUnits_eq n d e
  obtain ⟨hlow, hhigh⟩ := Rounding.nearest_bounds (Rounding.inUnits_pos hd e)
  -- The fraction has 64 places in these units, so a half of one is a small part of it.
  have hplaces : (2 : ℚ) ^ 63 ≤ n / d / 2 ^ e := by
    rw [le_div_iff₀ hunit, ← zpow_natCast, ← zpow_add₀ two_ne_zero]
    have he : ((63 : Nat) : Int) + e = Rounding.floorLog2 n d := by
      simp only [e]
      omega
    rw [he]
    exact (Rounding.floorLog2_bounds hn hd).1
  have hfraction : (n : ℚ) / d = n / d / 2 ^ e * 2 ^ e := (div_mul_cancel₀ _ hunit.ne').symm
  rw [hunits] at hlow hhigh
  rw [hvalue, hfraction]
  constructor
  · rw [pow_one, mul_right_comm]
    refine mul_le_mul_of_nonneg_right (le_trans ?_ hlow) hunit.le
    rw [rounding]
    linarith
  · rw [pow_one, mul_right_comm]
    refine mul_le_mul_of_nonneg_right (le_trans hhigh ?_) hunit.le
    rw [rounding]
    linarith

/-- A product is rounded once. -/
theorem near_mul {x y : Extended} (hx : 0 < x.value) (hy : 0 < y.value) :
    Near 1 (x.value * y.value) (Extended.mul x y).value := by
  have hpos : 0 < x.significand * y.significand :=
    Nat.mul_pos (value_pos.1 hx) (value_pos.1 hy)
  have hproduct := near_ofRatio hpos one_pos
  have hscale : (0 : ℚ) < 2 ^ x.exponent * 2 ^ y.exponent :=
    mul_pos (zpow_pos two_pos _) (zpow_pos two_pos _)
  have hexact : x.value * y.value =
      (x.significand * y.significand : Nat) / (1 : Nat) * (2 ^ x.exponent * 2 ^ y.exponent) := by
    rw [value, value, Nat.cast_one, div_one, Nat.cast_mul, mul_mul_mul_comm]
  have hrounded : (Extended.mul x y).value = (ofRatio (x.significand * y.significand) 1).value *
      (2 ^ x.exponent * 2 ^ y.exponent) := by
    rw [value, value, mul_assoc, ← mul_assoc (2 ^ _), ← zpow_add₀ two_ne_zero,
      ← zpow_add₀ two_ne_zero]
    rfl
  rw [hexact, hrounded]
  constructor
  · rw [mul_right_comm]
    exact mul_le_mul_of_nonneg_right hproduct.lower hscale.le
  · rw [mul_right_comm]
    exact mul_le_mul_of_nonneg_right hproduct.upper hscale.le

/-- A product of approximations approximates the product, with one rounding more. -/
theorem Near.mul_value {k l : Nat} {a b : ℚ} {x y : Extended} (hx : Near k a x.value)
    (hy : Near l b y.value) (ha : 0 < a) (hb : 0 < b) :
    Near (k + l + 1) (a * b) (Extended.mul x y).value :=
  (hx.mul hy ha hb).trans (near_mul (hx.pos ha) (hy.pos hb))

/-- Factors of a number, its tenth and its hundredth power, each rounded once. -/
structure Places.Raises (p : Places) (b : ℚ) : Prop where
  pos : 0 < b
  hundred : Near 1 (b ^ 100) p.hundred.value
  ten : Near 1 (b ^ 10) p.ten.value
  one : Near 1 b p.one.value

/-- The number of products that a move by so many places takes. -/
def products (places : Nat) : Nat := places / 100 + places % 100 / 10 + places % 10

/-- Each product with a rounded factor takes two roundings. -/
theorem Near.iterate {k : Nat} {a b : ℚ} {x factor : Extended} (hx : Near k a x.value)
    (hfactor : Near 1 b factor.value) (ha : 0 < a) (hb : 0 < b) (times : Nat) :
    Near (k + 2 * times) (a * b ^ times) (Nat.repeat (Extended.mul · factor) times x).value := by
  induction times with
  | zero => simpa [Nat.repeat] using hx
  | succ times ih =>
    have hstep := ih.mul_value hfactor (mul_pos ha (pow_pos hb times)) hb
    rw [pow_succ, ← mul_assoc]
    exact hstep

/-- A move by decimal places takes two roundings for each product. -/
theorem near_move {p : Places} {b : ℚ} (hp : p.Raises b) {k : Nat} {a : ℚ} {x : Extended}
    (hx : Near k a x.value) (ha : 0 < a) (places : Nat) :
    Near (k + 2 * products places) (a * b ^ places) (move p places x).value := by
  have hhundred := hx.iterate hp.hundred ha (pow_pos hp.pos _) (places / 100)
  have ha' := mul_pos ha (pow_pos (pow_pos hp.pos 100) (places / 100))
  have hten := hhundred.iterate hp.ten ha' (pow_pos hp.pos _) (places % 100 / 10)
  have ha'' := mul_pos ha' (pow_pos (pow_pos hp.pos 10) (places % 100 / 10))
  have hone := hten.iterate hp.one ha'' hp.pos (places % 10)
  have hplaces : 100 * (places / 100) + 10 * (places % 100 / 10) + places % 10 = places := by omega
  have hpower : a * (b ^ 100) ^ (places / 100) * (b ^ 10) ^ (places % 100 / 10) *
      b ^ (places % 10) = a * b ^ places := by
    rw [← pow_mul, ← pow_mul, mul_assoc, mul_assoc, ← pow_add, ← pow_add, ← add_assoc, hplaces]
  have hcount : k + 2 * (places / 100) + 2 * (places % 100 / 10) + 2 * (places % 10) =
      k + 2 * products places := by
    unfold products
    omega
  rw [hpower, hcount] at hone
  exact hone

theorem near_ten_pow (k : Nat) : Near 1 ((10 : ℚ) ^ k) (ofRatio (Nat.pow 10 k) 1).value := by
  have h := near_ofRatio (Nat.pow_pos (by decide : 0 < 10) : 0 < 10 ^ k) one_pos
  rw [Nat.cast_pow, Nat.cast_ofNat, Nat.cast_one, div_one] at h
  exact h

theorem near_tenth_pow (k : Nat) : Near 1 ((1 / 10 : ℚ) ^ k) (ofRatio 1 (Nat.pow 10 k)).value := by
  have h := near_ofRatio one_pos (Nat.pow_pos (by decide : 0 < 10) : 0 < 10 ^ k)
  rw [Nat.cast_pow, Nat.cast_one, Nat.cast_ofNat, ← one_div_pow] at h
  exact h

theorem raises_raising : raising.Raises 10 :=
  ⟨by norm_num, near_ten_pow 100, near_ten_pow 10, pow_one (10 : ℚ) ▸ near_ten_pow 1⟩

theorem raises_lowering : lowering.Raises (1 / 10) :=
  ⟨by norm_num, near_tenth_pow 100, near_tenth_pow 10, pow_one (1 / 10 : ℚ) ▸ near_tenth_pow 1⟩

end Extended

/-! ## Decimal numbers -/

namespace Decimal

/-- The size of a decimal number. -/
def size (x : Decimal) : ℚ := x.digits * 10 ^ x.exponent

theorem size_pos {x : Decimal} : 0 < x.size ↔ 0 < x.digits := by
  rw [size, mul_pos_iff_of_pos_right (zpow_pos (by norm_num) _), Nat.cast_pos]

theorem size_nonneg (x : Decimal) : 0 ≤ x.size := by
  unfold size
  positivity

/-- Digits are dropped with less than one unit of the last that is kept, and only as long as those
that are kept are enough. -/
theorem dropDigits_bounds (bound n : Nat) :
    (dropDigits bound n).1 * 10 ^ (dropDigits bound n).2 ≤ n ∧
      n < ((dropDigits bound n).1 + 1) * 10 ^ (dropDigits bound n).2 ∧
      ((dropDigits bound n).2 = 0 ∨ enough ≤ (dropDigits bound n).1) := by
  induction bound generalizing n with
  | zero => simp [dropDigits]
  | succ bound ih =>
    rw [dropDigits]
    split
    · next h =>
      obtain ⟨hlow, hhigh, hkept⟩ := ih (n / 10)
      dsimp only
      refine ⟨?_, ?_, .inr ?_⟩
      · rw [pow_succ, ← mul_assoc]
        omega
      · rw [pow_succ, ← mul_assoc]
        omega
      · rcases hkept with hkept | hkept
        · rw [hkept, pow_zero, mul_one] at hhigh
          omega
        · exact hkept
    · simp

/-- Leading digits that are enough make up for those that are dropped. -/
theorem enough_bounds {kept : ℚ} (h : (enough : ℚ) ≤ kept) :
    (kept + 1) * (1 - Extended.rounding) ^ 16 ≤ kept := by
  have hpower : (1 - Extended.rounding) ^ 16 ≤ 1 - 11 * Extended.rounding := by
    norm_num [Extended.rounding]
  have hkept : (1844674407370955160 : ℚ) ≤ kept := h
  have hnonneg : 0 ≤ kept + 1 := by linarith
  refine (mul_le_mul_of_nonneg_left hpower hnonneg).trans ?_
  rw [Extended.rounding]
  linarith

/-- The number by its leading digits is the number up to sixteen roundings. -/
theorem near_leading (x : Decimal) : Extended.Near 16 x.size x.leading.size := by
  let kept := (dropDigits x.digits.log2 x.digits).1
  let dropped := (dropDigits x.digits.log2 x.digits).2
  have hsize : x.leading.size = kept * 10 ^ dropped * 10 ^ x.exponent := by
    change (kept : ℚ) * 10 ^ (x.exponent + dropped) = _
    rw [add_comm, zpow_add₀ (by norm_num), zpow_natCast, mul_assoc]
  obtain ⟨hlow, hhigh, hkept⟩ := dropDigits_bounds x.digits.log2 x.digits
  have hpower : (0 : ℚ) ≤ 10 ^ x.exponent := zpow_nonneg (by norm_num) _
  rw [hsize, size]
  constructor
  · rw [mul_right_comm]
    refine mul_le_mul_of_nonneg_right ?_ hpower
    rcases hkept with hkept | hkept
    · have hdigits : x.digits = kept * 10 ^ dropped := by
        rw [hkept, pow_zero, mul_one] at hlow hhigh
        have hdropped : dropped = 0 := hkept
        rw [hdropped, pow_zero, mul_one]
        exact Nat.le_antisymm (Nat.lt_succ_iff.1 hhigh) hlow
      have hone : (1 - Extended.rounding) ^ 16 ≤ 1 :=
        pow_le_one₀ Extended.one_sub_rounding_pos.le (by linarith [Extended.rounding_pos])
      have hcast : (x.digits : ℚ) = kept * 10 ^ dropped := by exact_mod_cast hdigits
      rw [← hcast]
      exact mul_le_of_le_one_right (Nat.cast_nonneg _) hone
    · have hcast : (x.digits : ℚ) ≤ (kept + 1) * 10 ^ dropped := by exact_mod_cast hhigh.le
      have henough : ((kept : ℚ) + 1) * (1 - Extended.rounding) ^ 16 ≤ kept :=
        enough_bounds (by exact_mod_cast hkept)
      have hfactor : (0 : ℚ) ≤ (1 - Extended.rounding) ^ 16 :=
        pow_nonneg Extended.one_sub_rounding_pos.le 16
      refine (mul_le_mul_of_nonneg_right hcast hfactor).trans ?_
      rw [mul_right_comm]
      exact mul_le_mul_of_nonneg_right henough (by positivity)
  · rw [mul_right_comm (x.digits : ℚ)]
    refine mul_le_mul_of_nonneg_right ?_ hpower
    have hcast : (kept : ℚ) * 10 ^ dropped ≤ x.digits := by exact_mod_cast hlow
    have hone : 1 ≤ (1 + Extended.rounding) ^ 16 :=
      one_le_pow₀ (by linarith [Extended.rounding_pos])
    exact hcast.trans (le_mul_of_one_le_right (Nat.cast_nonneg _) hone)

theorem takeTens_spec (n e : Nat) : (takeTens n e).1 * 10 ^ (takeTens n e).2 = n * 10 ^ e := by
  induction e generalizing n with
  | zero => rfl
  | succ e ih =>
    rw [takeTens]
    split
    · rw [ih, pow_succ]
      ring
    · rfl

theorem cancelTens_spec (n e : Nat) :
    n * 10 ^ (cancelTens n e).2 = (cancelTens n e).1 * 10 ^ e := by
  induction e generalizing n with
  | zero => rfl
  | succ e ih =>
    rw [cancelTens]
    split
    · next h =>
      have hn : n = n / 10 * 10 := by omega
      rw [pow_succ, ← mul_assoc, ← ih (n / 10)]
      nth_rewrite 1 [hn]
      ring
    · rfl

/-- The power of ten is balanced without any change. -/
theorem size_balanced (x : Decimal) : x.balanced.size = x.size := by
  unfold balanced
  split
  · next h =>
    have hspec := takeTens_spec x.digits x.exponent.toNat
    have hcast : ((takeTens x.digits x.exponent.toNat).1 : ℚ) *
        10 ^ (takeTens x.digits x.exponent.toNat).2 = x.digits * 10 ^ x.exponent.toNat := by
      exact_mod_cast hspec
    rw [← zpow_natCast, ← zpow_natCast, Int.toNat_of_nonneg h] at hcast
    exact hcast
  · next h =>
    have hspec := cancelTens_spec x.digits (-x.exponent).toNat
    have hcast : (x.digits : ℚ) * 10 ^ (cancelTens x.digits (-x.exponent).toNat).2 =
        (cancelTens x.digits (-x.exponent).toNat).1 * 10 ^ (-x.exponent).toNat := by
      exact_mod_cast hspec
    have hexponent : ((-x.exponent).toNat : Int) = -x.exponent := Int.toNat_of_nonneg (by omega)
    rw [← zpow_natCast, ← zpow_natCast, hexponent] at hcast
    change ((cancelTens x.digits (-x.exponent).toNat).1 : ℚ) *
      10 ^ (-((cancelTens x.digits (-x.exponent).toNat).2 : Int)) = x.digits * 10 ^ x.exponent
    rw [zpow_neg, ← div_eq_mul_inv, div_eq_iff (by positivity), mul_assoc, mul_comm (_ ^ _),
      ← mul_assoc, hcast, mul_assoc, ← zpow_add₀ (by norm_num), neg_add_cancel, zpow_zero, mul_one]

theorem log2_div_ten_le {bound n : Nat} (h : n.log2 ≤ bound + 1) : (n / 10).log2 ≤ bound := by
  rcases Nat.eq_zero_or_pos (n / 10) with hzero | hpos
  · rw [hzero]
    exact Nat.zero_le bound
  · have hn : n < 2 ^ (bound + 1 + 1) :=
      Nat.lt_log2_self.trans_le (Nat.pow_le_pow_right two_pos (Nat.succ_le_succ h))
    have hlt : n / 10 < 2 ^ (bound + 1) := by
      rw [pow_succ] at hn
      omega
    exact Nat.lt_succ_iff.1 ((Nat.log2_lt hpos.ne').2 hlt)

/-- As many digits are dropped as can be. -/
theorem dropDigits_lt {bound n : Nat} (h : n.log2 ≤ bound) :
    (dropDigits bound n).1 / 10 < enough := by
  induction bound generalizing n with
  | zero =>
    have hn : n < 2 ^ (n.log2 + 1) := Nat.lt_log2_self
    rw [Nat.le_zero.1 h] at hn
    have henough : 0 < enough := by decide
    rw [dropDigits]
    omega
  | succ bound ih =>
    rw [dropDigits]
    split
    · exact ih (log2_div_ten_le h)
    · next hkept => exact Nat.not_le.1 hkept

theorem cancelTens_le (n e : Nat) : (cancelTens n e).1 ≤ n := by
  induction e generalizing n with
  | zero => exact Nat.le_refl n
  | succ e ih =>
    rw [cancelTens]
    split
    · exact (ih (n / 10)).trans (Nat.div_le_self n 10)
    · exact Nat.le_refl n

end Decimal

namespace Extended

variable {x : Decimal}

/-- The places by which the leading digits of a number are moved. -/
def places (x : Decimal) : Nat := x.leading.balanced.exponent.natAbs

/-- The leading digits of a number that is raised. -/
theorem size_raised (h : 0 ≤ x.leading.balanced.exponent) :
    x.leading.size = x.leading.balanced.digits * 10 ^ places x := by
  have hexponent : x.leading.balanced.exponent = places x := by
    unfold places
    omega
  rw [← Decimal.size_balanced, Decimal.size, hexponent, zpow_natCast]

/-- The leading digits of a number that is lowered. -/
theorem size_lowered (h : ¬ 0 ≤ x.leading.balanced.exponent) :
    x.leading.size = x.leading.balanced.digits * (1 / 10) ^ places x := by
  have hexponent : x.leading.balanced.exponent = -(places x : Int) := by
    unfold places
    omega
  rw [← Decimal.size_balanced, Decimal.size, hexponent, zpow_neg, zpow_natCast, one_div_pow,
    one_div]

theorem digits_balanced_pos (hx : 0 < x.digits) : 0 < x.leading.balanced.digits := by
  rw [← Decimal.size_pos, Decimal.size_balanced]
  exact (Decimal.near_leading x).pos (Decimal.size_pos.2 hx)

/-- Whatever is lowered is a word of 64 bits. -/
theorem digits_lowered_le (h : ¬ 0 ≤ x.leading.balanced.exponent) :
    x.leading.balanced.digits ≤ 2 ^ 64 := by
  have hbalanced : x.leading.balanced.digits =
      (Decimal.cancelTens x.leading.digits (-x.leading.exponent).toNat).1 := by
    unfold Decimal.balanced at h ⊢
    split
    · next hraised =>
      rw [if_pos hraised] at h
      exact absurd (Int.natCast_nonneg _) h
    · rfl
  have hleading : x.leading.digits / 10 < Decimal.enough := Decimal.dropDigits_lt le_rfl
  have henough : Decimal.enough * 10 ≤ 2 ^ 64 := by decide
  rw [hbalanced]
  refine (Decimal.cancelTens_le _ _).trans ?_
  omega

/-- A number is read with two roundings for each product, and sixteen for what is dropped. -/
theorem near_ofDecimal (hx : 0 < x.digits) :
    Near (16 + 2 * products (places x)) x.size (ofDecimal x).value := by
  refine (Decimal.near_leading x).trans ?_
  have hdigits : (0 : ℚ) < x.leading.balanced.digits := by exact_mod_cast digits_balanced_pos hx
  have hstart : Near 0 (x.leading.balanced.digits : ℚ) (value ⟨x.leading.balanced.digits, 0⟩) := by
    rw [value, zpow_zero, mul_one]
    exact .refl
  have hmove := fun {p : Places} {b : ℚ} (hp : p.Raises b) =>
    near_move hp hstart hdigits (places x)
  rw [zero_add] at hmove
  rw [ofDecimal]
  split
  · next h =>
    have hplaces : x.leading.balanced.exponent.toNat = places x := by
      unfold places
      omega
    rw [size_raised h, hplaces]
    exact hmove raises_raising
  · next h =>
    have hplaces : (-x.leading.balanced.exponent).toNat = places x := by
      unfold places
      omega
    rw [size_lowered h, hplaces]
    exact hmove raises_lowering

end Extended
end TxIndex
