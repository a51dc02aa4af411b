import TxIndex.Proofs.Decimal.Forms
import TxIndex.Proofs.Decimal.Nearest

/-! # Decimal numbers as binary64

A decimal number is read as binary64 by way of extended precision, so what is rounded in the end is
not quite the number itself, and the outcome need not be the nearest one. It is the number to which
a fraction no more than one part in `2 ^ 57` off is rounded (`Binary64.isReading_ofDecimal`).

By that alone, two numbers are ordered as binary64 as they are if the middle of two neighbours parts
them (`Binary64.IsParted.rank_lt`), and numbers which are themselves binary64 numbers always are so
parted (`Binary64.isParted_of_value_lt`). -/
namespace TxIndex
namespace Extended

variable {x : Decimal}

/-! ### The error of extended precision -/

theorem pow_one_sub_rounding {k : Nat} (hk : k ≤ 64) : 1 - 1 / 2 ^ 58 ≤ (1 - rounding) ^ k := by
  have hall : 1 + (64 : Nat) * (-rounding) ≤ (1 + -rounding) ^ 64 :=
    one_add_mul_le_pow (by norm_num [rounding]) 64
  rw [← sub_eq_add_neg] at hall
  have hle : (1 - rounding) ^ 64 ≤ (1 - rounding) ^ k :=
    pow_le_pow_of_le_one one_sub_rounding_pos.le (sub_le_self 1 rounding_pos.le) hk
  refine le_trans ?_ (hall.trans hle)
  norm_num [rounding]

theorem pow_one_add_rounding {k : Nat} (hk : k ≤ 64) : (1 + rounding) ^ k ≤ 1 + 1 / 2 ^ 57 := by
  have hlow := pow_one_sub_rounding hk
  have hpos : 0 < (1 - rounding) ^ k := pow_pos one_sub_rounding_pos k
  have hproduct : (1 + rounding) ^ k * (1 - rounding) ^ k ≤ 1 := by
    rw [← mul_pow]
    refine pow_le_one₀ ?_ ?_ <;> norm_num [rounding]
  have hhigh : (1 + rounding) ^ k ≤ 1 / (1 - rounding) ^ k := (le_div_iff₀ hpos).2 hproduct
  refine hhigh.trans ((div_le_iff₀ hpos).2 ?_)
  linarith

/-- A move by a few places takes few products. -/
theorem abs_value_sub_le (hx : 0 < x.digits) (hplaces : places x ≤ 400) :
    |(ofDecimal x).value - x.size| ≤ x.size / 2 ^ 57 := by
  have hnear := near_ofDecimal hx
  have hsize := (Decimal.size_pos.2 hx).le
  have hk : 16 + 2 * products (places x) ≤ 64 := by
    unfold products
    omega
  have hlow := (mul_le_mul_of_nonneg_left (pow_one_sub_rounding hk) hsize).trans hnear.lower
  have hhigh := hnear.upper.trans (mul_le_mul_of_nonneg_left (pow_one_add_rounding hk) hsize)
  rw [abs_le]
  constructor <;> linarith

/-- A move by many places takes fewer roundings than places. -/
theorem roundings_many (hplaces : 400 < places x) :
    16 + 2 * products (places x) ≤ places x := by
  unfold products
  omega

/-- A number that is raised by many places is past all numbers, and is read as such. -/
theorem value_raised (hx : 0 < x.digits) (hplaces : 400 < places x)
    (h : 0 ≤ x.leading.balanced.exponent) :
    2 ^ 1025 ≤ x.size ∧ 2 ^ 1025 ≤ (ofDecimal x).value := by
  have hgreat : (2 * 2 ^ 1025 : ℚ) ≤ 9 ^ places x := by
    rw [← pow_succ']
    calc (2 : ℚ) ^ (1025 + 1) ≤ 2 ^ (3 * places x) := pow_le_pow_right₀ one_le_two (by omega)
      _ = 8 ^ places x := by
        rw [pow_mul]
        norm_num
      _ ≤ 9 ^ places x := pow_le_pow_left₀ (by norm_num) (by norm_num) _
  have hleading : (10 : ℚ) ^ places x ≤ x.leading.size := by
    rw [size_raised h]
    exact le_mul_of_one_le_left (by positivity) (by exact_mod_cast digits_balanced_pos hx)
  have hsize : (10 : ℚ) ^ places x ≤ x.size * 2 := by
    refine (hleading.trans (Decimal.near_leading x).upper).trans
      (mul_le_mul_of_nonneg_left ?_ (Decimal.size_pos.2 hx).le)
    norm_num [rounding]
  -- Each rounding takes less than a tenth, and each place makes up for it ninefold.
  have hfactor : (9 / 10 : ℚ) ^ places x ≤ (1 - rounding) ^ (16 + 2 * products (places x)) :=
    (pow_le_pow_left₀ (by norm_num) (by norm_num [rounding]) _).trans
      (pow_le_pow_of_le_one one_sub_rounding_pos.le (sub_le_self 1 rounding_pos.le)
        (roundings_many hplaces))
  have hvalue : x.size * (9 / 10) ^ places x ≤ (ofDecimal x).value :=
    (mul_le_mul_of_nonneg_left hfactor (Decimal.size_pos.2 hx).le).trans (near_ofDecimal hx).lower
  have hnine : (9 : ℚ) ^ places x ≤ x.size * (9 / 10) ^ places x * 2 := by
    have hmul := mul_le_mul_of_nonneg_right hsize
      (pow_nonneg (by norm_num) (places x) : (0 : ℚ) ≤ (9 / 10) ^ places x)
    rw [← mul_pow, mul_right_comm] at hmul
    norm_num at hmul ⊢
    exact hmul
  have hten : (9 : ℚ) ^ places x ≤ 10 ^ places x := pow_le_pow_left₀ (by norm_num) (by norm_num) _
  generalize (2 : ℚ) ^ 1025 = great at hgreat ⊢
  constructor <;> linarith

/-- A number that is lowered by many places is next to nothing, and is read as such. -/
theorem value_lowered (hx : 0 < x.digits) (hplaces : 400 < places x)
    (h : ¬ 0 ≤ x.leading.balanced.exponent) :
    x.size ≤ 1 / 2 ^ 1100 ∧ (ofDecimal x).value ≤ 1 / 2 ^ 1100 := by
  have hsmall : 2 ^ 65 * (1 / 9 : ℚ) ^ places x ≤ 1 / 2 ^ 1100 := by
    have hpower : (1 / 9 : ℚ) ^ places x ≤ (1 / 2) ^ 1165 :=
      calc (1 / 9 : ℚ) ^ places x ≤ (1 / 8) ^ places x :=
            pow_le_pow_left₀ (by norm_num) (by norm_num) _
        _ = (1 / 2) ^ (3 * places x) := by
          rw [pow_mul]
          norm_num
        _ ≤ (1 / 2) ^ 1165 := pow_le_pow_of_le_one (by norm_num) (by norm_num) (by omega)
    refine (mul_le_mul_of_nonneg_left hpower (by norm_num)).trans (le_of_eq ?_)
    rw [one_div_pow, show 1165 = 65 + 1100 from rfl, pow_add]
    field_simp
  have hleading : x.leading.size ≤ 2 ^ 64 * (1 / 10) ^ places x := by
    rw [size_lowered h]
    exact mul_le_mul_of_nonneg_right (by exact_mod_cast digits_lowered_le h) (by positivity)
  have hsize : x.size ≤ 2 ^ 65 * (1 / 10) ^ places x := by
    have hhalf : x.size * (1 / 2) ≤ x.size * (1 - rounding) ^ 16 :=
      mul_le_mul_of_nonneg_left (by norm_num [rounding]) (Decimal.size_pos.2 hx).le
    have := (hhalf.trans (Decimal.near_leading x).lower).trans hleading
    linarith
  -- Each rounding adds less than a ninth, and each place makes up for it ninefold.
  have hfactor : (1 + rounding) ^ (16 + 2 * products (places x)) ≤ (10 / 9) ^ places x :=
    (pow_le_pow_right₀ (le_add_of_nonneg_right rounding_pos.le) (roundings_many hplaces)).trans
      (pow_le_pow_left₀ (by norm_num [rounding]) (by norm_num [rounding]) _)
  have hvalue : (ofDecimal x).value ≤ x.size * (10 / 9) ^ places x :=
    (near_ofDecimal hx).upper.trans
      (mul_le_mul_of_nonneg_left hfactor (Decimal.size_pos.2 hx).le)
  have hninth : x.size * (10 / 9) ^ places x ≤ 2 ^ 65 * (1 / 9) ^ places x := by
    have hmul := mul_le_mul_of_nonneg_right hsize (by positivity : (0 : ℚ) ≤ (10 / 9) ^ places x)
    rw [mul_assoc, ← mul_pow] at hmul
    norm_num at hmul ⊢
    exact hmul
  have hone : x.size ≤ x.size * (10 / 9) ^ places x :=
    le_mul_of_one_le_right (Decimal.size_pos.2 hx).le (one_le_pow₀ (by norm_num))
  exact ⟨hone.trans (hninth.trans hsmall), hvalue.trans (hninth.trans hsmall)⟩

end Extended

/-! ### Readings -/

namespace Binary64

open Rounding

/-- A number in extended precision is ranked as a fraction of its value. -/
theorem isRounded_rankOfExtended (a : Extended) : IsRounded a.value ⟨rankOfExtended a⟩ := by
  have hvalue : ((inUnits a.significand 1 (-a.exponent)).1 : ℚ) /
      (inUnits a.significand 1 (-a.exponent)).2 = a.value := by
    rw [inUnits_eq, Nat.cast_one, div_one, zpow_neg, div_inv_eq_mul, Extended.value]
  exact hvalue ▸ isRounded_rankOfRatio (inUnits_pos one_pos _)

/-- The number is what a fraction is read as: it is what a fraction no more than one part in
`2 ^ 57` off is rounded to. -/
def IsReading (q : ℚ) (b : Binary64) : Prop := ∃ q', |q' - q| ≤ |q| / 2 ^ 57 ∧ IsRounded q' b

variable {q : ℚ} {a b : Binary64} {r : Int}

theorem IsRounded.neg (h : IsRounded q ⟨r⟩) : IsRounded (-q) ⟨-r⟩ := by
  refine ⟨fun hle => (h.nearest (by rwa [abs_neg] at hle)).neg, fun hlt => ?_, fun hlt => ?_⟩
  · have hrank := congrArg rank (h.infinite_neg (by linarith))
    simp only at hrank
    rw [hrank, neg_neg]
  · have hrank := congrArg rank (h.infinite (by linarith))
    simp only at hrank
    rw [hrank]

theorem IsReading.neg (h : IsReading q ⟨r⟩) : IsReading (-q) ⟨-r⟩ := by
  obtain ⟨q', hnear, hround⟩ := h
  refine ⟨-q', ?_, hround.neg⟩
  rwa [neg_sub_neg, abs_sub_comm, abs_neg]

/-- The rank of the size of a decimal number. -/
def sizeRank (x : Decimal) : Nat :=
  if x.digits = 0 then 0 else rankOfExtended (Extended.ofDecimal x)

theorem ofDecimal_eq (x : Decimal) :
    ofDecimal x = ⟨if x.negative then -(sizeRank x : Int) else sizeRank x⟩ := by
  unfold ofDecimal sizeRank
  by_cases h : x.digits = 0
  · simp [h]
  · simp [h]

theorem isReading_size (x : Decimal) : IsReading x.size ⟨sizeRank x⟩ := by
  rcases Nat.eq_zero_or_pos x.digits with hzero | hx
  · have hsize : x.size = 0 := by rw [Decimal.size, hzero, Nat.cast_zero, zero_mul]
    rw [sizeRank, if_pos hzero, hsize]
    exact ⟨0, by simp, isRounded_zero le_rfl midpoint_zero_pos.le⟩
  have hround := isRounded_rankOfExtended (Extended.ofDecimal x)
  have hsize := Decimal.size_pos.2 hx
  rw [sizeRank, if_neg hx.ne']
  rcases Nat.lt_or_ge 400 (Extended.places x) with hplaces | hplaces
  · -- So many places lead past all numbers on either side, where the error makes no difference.
    refine ⟨x.size, by simpa using by positivity, ?_⟩
    by_cases hraised : 0 ≤ x.leading.balanced.exponent
    · obtain ⟨hgreat, hgreat'⟩ := Extended.value_raised hx hplaces hraised
      have hlt := greatest_lt.trans (pow_lt_pow_right₀ one_lt_two (by decide : 1024 < 1025))
      rw [hround.infinite (hlt.trans_le hgreat')]
      exact isRounded_infinity (hlt.trans_le hgreat)
    · obtain ⟨hsmall, hsmall'⟩ := Extended.value_lowered hx hplaces hraised
      have hpos := (Extended.near_ofDecimal hx).pos hsize
      have hmiddle : (1 : ℚ) / 2 ^ 1100 < midpoint 0 := by
        rw [midpoint_zero]
        exact one_div_lt_one_div_of_lt (by positivity) (pow_lt_pow_right₀ one_lt_two (by decide))
      have hfinite : |(Extended.ofDecimal x).value| ≤ greatest := by
        rw [abs_of_pos hpos]
        exact (hsmall'.trans hmiddle.le).trans midpoint_zero_le_greatest
      have hzero : (rankOfExtended (Extended.ofDecimal x) : Int) ≤ 0 :=
        (hround.nearest hfinite).rank_le_of_lt (Nat.zero_le _) (hsmall'.trans_lt hmiddle)
      rw [show rankOfExtended (Extended.ofDecimal x) = 0 by omega]
      exact isRounded_zero hsize.le (hsmall.trans hmiddle.le)
  · refine ⟨(Extended.ofDecimal x).value, ?_, hround⟩
    rw [abs_of_pos hsize]
    exact Extended.abs_value_sub_le hx hplaces

/-- **What a decimal number is read as** is off by no more than one part in `2 ^ 57` before it is
rounded. -/
theorem isReading_ofDecimal (x : Decimal) : IsReading x.value (ofDecimal x) := by
  rw [ofDecimal_eq, Decimal.value]
  cases x.negative
  · exact isReading_size x
  · exact (isReading_size x).neg

/-! ### Order -/

/-- The middle of two neighbours, neither of which is infinity, lies between the two fractions, and
further from each of them than it may be off as it is read. -/
def IsParted (q q' : ℚ) : Prop :=
  ∃ r : Int, -infinityRank < r ∧ r + 1 < infinityRank ∧
    q + |q| / 2 ^ 57 < midpoint r ∧ midpoint r < q' - |q'| / 2 ^ 57

/-- A finite number is no further from zero than the greatest one. -/
theorem value_le_greatest (hr : r < infinityRank) : value ⟨r⟩ ≤ greatest := by
  rw [← size_greatest, ← value_natCast]
  refine value_le_value.2 ?_
  have : 0 < infinityRank := by decide
  simp only
  omega

theorem midpoint_lt_greatest (hr : r + 1 < infinityRank) : midpoint r < greatest := by
  have hnext := value_le_greatest hr
  have hstep : value ⟨r⟩ < value ⟨r + 1⟩ := value_lt_value.2 (Int.lt_succ r)
  unfold midpoint
  linarith

/-- A fraction below a middle is rounded to a number below it. -/
theorem IsRounded.rank_le_of_lt (h : IsRounded q b) (hlow : -infinityRank < r)
    (hhigh : r + 1 < infinityRank) (hq : q < midpoint r) : b.rank ≤ r := by
  have hgreatest := midpoint_lt_greatest hhigh
  by_cases hle : -(greatest : ℚ) ≤ q
  · have hfinite : |q| ≤ greatest := abs_le.2 ⟨hle, by linarith⟩
    exact (h.nearest hfinite).rank_le_of_lt (by omega) hq
  · rw [h.infinite_neg (not_le.1 hle)]
    exact hlow.le

/-- A fraction above a middle is rounded to a number above it. -/
theorem IsRounded.lt_rank_of_lt (h : IsRounded q b) (hlow : -infinityRank < r)
    (hhigh : r + 1 < infinityRank) (hq : midpoint r < q) : r < b.rank := by
  have := h.neg.rank_le_of_lt (by omega) (by omega) (neg_lt_midpoint hq)
  simp only at this
  omega

/-- **Numbers that the middle of two neighbours parts keep their order.** As they are read, neither
gets past the middle, and from there on rounding is monotone. -/
theorem IsParted.rank_lt {q' : ℚ} (h : IsParted q q') (ha : IsReading q a) (hb : IsReading q' b) :
    a.rank < b.rank := by
  obtain ⟨r, hlow, hhigh, hleft, hright⟩ := h
  obtain ⟨s, hs, hround⟩ := ha
  obtain ⟨s', hs', hround'⟩ := hb
  rw [abs_le] at hs hs'
  have hle := hround.rank_le_of_lt hlow hhigh (by linarith)
  have hlt := hround'.lt_rank_of_lt hlow hhigh (by linarith)
  exact hle.trans_lt hlt

theorem IsParted.lt {q' : ℚ} (h : IsParted q q') : q < q' := by
  obtain ⟨r, -, -, hleft, hright⟩ := h
  have hoff : 0 ≤ |q| / 2 ^ 57 := by positivity
  have hoff' : 0 ≤ |q'| / 2 ^ 57 := by positivity
  linarith

/-- Neighbours are further from their middle than they may be off as they are read. -/
theorem midpoint_parts (r : Int) :
    value ⟨r⟩ + |value ⟨r⟩| / 2 ^ 57 < midpoint r ∧
      midpoint r < value ⟨r + 1⟩ - |value ⟨r + 1⟩| / 2 ^ 57 := by
  obtain ⟨hvalue, hnext⟩ := abs_value_le_gap r
  obtain ⟨hbelow, habove⟩ := midpoint_eq r
  have hpos := gap_pos r
  constructor <;> linarith

/-- Numbers that are binary64 numbers are parted by the middle that follows the lesser one. -/
theorem isParted_of_value_lt (ha : a.IsFinite) (hb : b.IsFinite) (h : a.value < b.value) :
    IsParted a.value b.value := by
  have hrank := value_lt_value.1 h
  unfold IsFinite at ha hb
  refine ⟨a.rank, by omega, by omega, (midpoint_parts a.rank).1, ?_⟩
  -- The middle before the greater one is no lower, and parts it from its own neighbour.
  obtain ⟨s, hs⟩ : ∃ s, b.rank = s + 1 := ⟨b.rank - 1, by omega⟩
  obtain rfl : b = ⟨s + 1⟩ := rank_inj.1 hs
  exact (midpoint_mono (by omega)).trans_lt (midpoint_parts s).2

end Binary64
end TxIndex
