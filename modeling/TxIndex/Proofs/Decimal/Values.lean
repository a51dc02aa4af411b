import Mathlib.Algebra.Order.Field.Power
import Mathlib.Algebra.Ring.Int.Parity
import Mathlib.Order.SuccPred.IntervalSucc
import Mathlib.Tactic.Linarith
import Mathlib.Tactic.NormNum
import Mathlib.Tactic.Positivity
import Mathlib.Tactic.Ring
import TxIndex.Decimal.Binary64

/-! # Values of binary64 numbers

A binary64 number is given by its rank. This module says which rational number it is
(`Binary64.value`) and, by that alone, what it means to be the nearest one to a rational number
(`Binary64.IsNearest`), ties and infinity included; no step of a conversion occurs in it.

Numbers grow with their ranks (`value_lt_value`), and neighbours are apart by at least one part in
`2 ^ 53` of each (`abs_value_le_gap`). So a number is the nearest one if the middles between it and
its neighbours lie on either side (`isNearest_of_midpoints`), and the nearest numbers of two
rational numbers are on the two sides of any middle between these (`IsNearest.rank_le`,
`IsNearest.lt_rank`). -/
namespace TxIndex
namespace Binary64

/-! ### Sizes -/

/-- How often the distance of neighbours has doubled up to a rank. It is the same in the first two
rows of `2 ^ 52` ranks, and doubles with each further row. -/
def doublings (r : Nat) : Nat := r / 2 ^ 52 - 1

/-- The distance from the number of a rank to the next one, `2 ^ (-1074)` at the least. -/
def spacing (r : Nat) : ℚ := 2 ^ ((doublings r : Int) - 1074)

/-- How far the numbers of a rank and of its opposite are from zero. -/
def size (r : Nat) : ℚ := (r - doublings r * 2 ^ 52 : Nat) * spacing r

theorem spacing_pos (r : Nat) : 0 < spacing r := zpow_pos two_pos _

/-- A rank comes apart into an exponent and a significand of at most 53 bits, which has all of them
unless the exponent is the least. -/
theorem exists_parts (r : Nat) : ∃ e m, r = e * 2 ^ 52 + m ∧ m < 2 ^ 53 ∧
    (e = 0 ∨ 2 ^ 52 ≤ m) ∧ spacing r = 2 ^ ((e : Int) - 1074) ∧ size r = m * spacing r := by
  refine ⟨doublings r, r - doublings r * 2 ^ 52, ?_, ?_, ?_, rfl, rfl⟩ <;> unfold doublings <;>
    omega

/-- The size that an exponent and a significand make. The significand may be as great as that with
which the next row begins. -/
theorem size_eq {e m : Nat} (hm : m ≤ 2 ^ 53) (h : e = 0 ∨ 2 ^ 52 ≤ m) :
    size (e * 2 ^ 52 + m) = m * 2 ^ ((e : Int) - 1074) := by
  rcases hm.eq_or_lt with rfl | hm
  · have hrow : doublings (e * 2 ^ 52 + 2 ^ 53) = e + 1 := by
      unfold doublings
      omega
    have hfirst : e * 2 ^ 52 + 2 ^ 53 - (e + 1) * 2 ^ 52 = 2 ^ 52 := by omega
    have hexponent : ((e + 1 : Nat) : Int) - 1074 = e - 1074 + 1 := by omega
    rw [size, spacing, hrow, hfirst, hexponent, zpow_add_one₀ two_ne_zero]
    push_cast
    ring
  · have hrow : doublings (e * 2 ^ 52 + m) = e := by
      unfold doublings
      omega
    rw [size, spacing, hrow, Nat.add_sub_cancel_left]

@[simp]
theorem size_zero : size 0 = 0 := by
  rw [size, Nat.zero_sub, Nat.cast_zero, zero_mul]

theorem size_succ (r : Nat) : size (r + 1) = size r + spacing r := by
  obtain ⟨e, m, hr, hm, hparts, hspacing, hsize⟩ := exists_parts r
  have hnext : size (e * 2 ^ 52 + (m + 1)) = (m + 1 : Nat) * 2 ^ ((e : Int) - 1074) :=
    size_eq hm (hparts.imp_right Nat.le_succ_of_le)
  rw [← add_assoc, ← hr] at hnext
  rw [hnext, hsize, ← hspacing]
  push_cast
  ring

theorem size_strictMono : StrictMono size :=
  strictMono_nat_of_lt_succ fun r => by
    rw [size_succ]
    exact lt_add_of_pos_right _ (spacing_pos r)

theorem size_nonneg (r : Nat) : 0 ≤ size r := size_zero ▸ size_strictMono.monotone (Nat.zero_le r)

/-- Neighbours are apart by at least one part in `2 ^ 53` of the greater one. -/
theorem size_succ_le (r : Nat) : size (r + 1) ≤ 2 ^ 53 * spacing r := by
  obtain ⟨e, m, -, hm, -, -, hsize⟩ := exists_parts r
  have hplaces : ((m + 1 : Nat) : ℚ) ≤ 2 ^ 53 := by exact_mod_cast hm
  have hall := mul_le_mul_of_nonneg_right hplaces (spacing_pos r).le
  rw [size_succ, hsize]
  push_cast at hall
  linarith

/-! ### Values -/

/-- The rational number that a binary64 number is. Infinity counts as the number that would follow
the greatest one, as the nearest number is found. -/
def value (b : Binary64) : ℚ := if b.rank < 0 then -size b.rank.natAbs else size b.rank.natAbs

/-- The number is neither infinity nor its opposite. -/
def IsFinite (b : Binary64) : Prop := b.rank.natAbs < infinityRank

theorem rank_inj {a b : Binary64} : a.rank = b.rank ↔ a = b := by
  cases a
  cases b
  simp

theorem value_natCast (r : Nat) : value ⟨r⟩ = size r := if_neg (Int.natCast_nonneg r).not_gt

theorem value_neg (r : Int) : value ⟨-r⟩ = -value ⟨r⟩ := by
  have hsize : size (-r).natAbs = size r.natAbs := by rw [Int.natAbs_neg]
  rcases Int.lt_trichotomy r 0 with h | rfl | h
  · rw [value, value, if_pos h, if_neg (show ¬ -r < 0 by omega), hsize, neg_neg]
  · simp [value]
  · rw [value, value, if_neg h.not_gt, if_pos (show -r < 0 by omega), hsize]

/-- The distance from the number of a rank to the next one, on either side of zero. -/
def gap (r : Int) : ℚ := value ⟨r + 1⟩ - value ⟨r⟩

theorem gap_natCast (r : Nat) : gap r = spacing r := by
  have hnext : value ⟨(r : Int) + 1⟩ = size (r + 1) := value_natCast (r + 1)
  rw [gap, hnext, value_natCast, size_succ, add_sub_cancel_left]

/-- Distances on the two sides of zero are the same. -/
theorem gap_neg (r : Int) : gap (-(r + 1)) = gap r := by
  have hnext : -(r + 1) + 1 = -r := by omega
  rw [gap, gap, hnext, value_neg, value_neg]
  ring

/-- A rank is that of a number above zero, or the opposite of a number above zero follows it. -/
theorem exists_natCast (r : Int) : ∃ k : Nat, r = k ∨ r = -((k : Int) + 1) := by
  rcases lt_or_ge r 0 with h | h
  · exact ⟨(-r - 1).toNat, .inr (by omega)⟩
  · exact ⟨r.toNat, .inl (by omega)⟩

theorem gap_pos (r : Int) : 0 < gap r := by
  obtain ⟨k, rfl | rfl⟩ := exists_natCast r
  · exact gap_natCast k ▸ spacing_pos k
  · exact gap_neg k ▸ gap_natCast k ▸ spacing_pos k

/-- Neighbours are apart by at least one part in `2 ^ 53` of each. -/
theorem abs_value_le_gap (r : Int) :
    |value ⟨r⟩| ≤ 2 ^ 53 * gap r ∧ |value ⟨r + 1⟩| ≤ 2 ^ 53 * gap r := by
  have habove : ∀ k : Nat,
      |value ⟨k⟩| ≤ 2 ^ 53 * gap k ∧ |value ⟨(k : Int) + 1⟩| ≤ 2 ^ 53 * gap k := by
    intro k
    have hnext : value ⟨(k : Int) + 1⟩ = size (k + 1) := value_natCast (k + 1)
    rw [hnext, value_natCast, gap_natCast, abs_of_nonneg (size_nonneg _),
      abs_of_nonneg (size_nonneg _)]
    exact ⟨(size_strictMono k.lt_succ_self).le.trans (size_succ_le k), size_succ_le k⟩
  obtain ⟨k, rfl | rfl⟩ := exists_natCast r
  · exact habove k
  · have hnext : -((k : Int) + 1) + 1 = -k := by omega
    rw [hnext, gap_neg, value_neg, value_neg, abs_neg, abs_neg]
    exact (habove k).symm

/-- Numbers grow with their ranks. -/
theorem value_lt_value {a b : Binary64} : a.value < b.value ↔ a.rank < b.rank := by
  have hmono : StrictMono fun r : Int => value ⟨r⟩ :=
    strictMono_int_of_lt_succ fun r => sub_pos.1 (gap_pos r)
  exact hmono.lt_iff_lt

theorem value_le_value {a b : Binary64} : a.value ≤ b.value ↔ a.rank ≤ b.rank :=
  le_iff_le_iff_lt_iff_lt.2 value_lt_value

/-! ### The nearest number -/

/-- The number is the nearest one to the fraction, a tie being decided for the even one. A fraction
is nearest to infinity from half a step past the greatest number on. -/
structure IsNearest (q : ℚ) (b : Binary64) : Prop where
  rank_le : b.rank.natAbs ≤ infinityRank
  abs_le : ∀ c : Binary64, c.rank.natAbs ≤ infinityRank → |q - b.value| ≤ |q - c.value|
  even : ∀ c : Binary64, c.rank.natAbs ≤ infinityRank → |q - c.value| = |q - b.value| → c ≠ b →
    Even b.rank

/-- The middle between the number of a rank and the next one. -/
def midpoint (r : Int) : ℚ := (value ⟨r⟩ + value ⟨r + 1⟩) / 2

variable {q : ℚ} {a b : Binary64} {r : Int}

theorem midpoint_natCast (r : Nat) : midpoint r = (size r + size (r + 1)) / 2 := by
  have hnext : value ⟨(r : Int) + 1⟩ = size (r + 1) := value_natCast (r + 1)
  rw [midpoint, hnext, value_natCast]

theorem midpoint_neg (r : Int) : midpoint (-(r + 1)) = -midpoint r := by
  have hnext : -(r + 1) + 1 = -r := by omega
  rw [midpoint, midpoint, hnext, value_neg, value_neg]
  ring

theorem neg_lt_midpoint (h : midpoint r < q) : -q < midpoint (-(r + 1)) :=
  midpoint_neg r ▸ neg_lt_neg h

/-- A middle is half a step from the neighbours on its two sides. -/
theorem midpoint_eq (r : Int) :
    midpoint r = value ⟨r⟩ + gap r / 2 ∧ midpoint r = value ⟨r + 1⟩ - gap r / 2 := by
  unfold midpoint gap
  constructor <;> ring

theorem midpoint_mono {s : Int} (h : r ≤ s) : midpoint r ≤ midpoint s := by
  have hvalue : value ⟨r⟩ ≤ value ⟨s⟩ := value_le_value.2 h
  have hnext : value ⟨r + 1⟩ ≤ value ⟨s + 1⟩ := value_le_value.2 (Int.add_le_add_right h 1)
  unfold midpoint
  linarith

/-- The numbers that a fraction is nearest to are symmetric about zero. -/
theorem IsNearest.neg (h : IsNearest q ⟨r⟩) : IsNearest (-q) ⟨-r⟩ := by
  have hopposite : ∀ c : Binary64, |-q - c.value| = |q - value ⟨-c.rank⟩| := fun c => by
    rw [value_neg, ← abs_neg]
    congr 1
    ring
  have hdistance : |-q - value ⟨-r⟩| = |q - value ⟨r⟩| := by
    rw [hopposite, neg_neg]
  refine ⟨?_, fun c hc => ?_, fun c hc heq hne => ?_⟩
  · rw [Int.natAbs_neg]
    exact h.rank_le
  · rw [hdistance, hopposite]
    exact h.abs_le _ (by rwa [Int.natAbs_neg])
  · rw [hdistance, hopposite] at heq
    refine (h.even _ (by rwa [Int.natAbs_neg]) heq fun hsame => hne (rank_inj.1 ?_)).neg
    have hrank := rank_inj.2 hsame
    simp only at hrank ⊢
    omega

/-- **A number is the nearest one between the middles to its neighbours.** Any other number is past
one of the two neighbours, so no nearer than that, and as near only where the fraction is the
middle. -/
theorem isNearest_of_midpoints (hr : r.natAbs ≤ infinityRank) (hlow : midpoint (r - 1) ≤ q)
    (hhigh : q ≤ midpoint r) (heven : q = midpoint (r - 1) ∨ q = midpoint r → Even r) :
    IsNearest q ⟨r⟩ := by
  unfold midpoint at hlow hhigh heven
  rw [Int.sub_add_cancel] at hlow heven
  -- A number further off is past the neighbour on its side.
  have hbelow : ∀ c : Binary64, c.rank < r → c.value ≤ value ⟨r - 1⟩ := fun c hc =>
    value_le_value.2 (Int.le_sub_one_of_lt hc)
  have habove : ∀ c : Binary64, r < c.rank → value ⟨r + 1⟩ ≤ c.value := fun c hc =>
    value_le_value.2 hc
  refine ⟨hr, fun c _ => ?_, fun c _ heq hne => ?_⟩
  · rcases lt_trichotomy c.rank r with hc | hc | hc
    · have := hbelow c hc
      have hlt : c.value < value ⟨r⟩ := value_lt_value.2 hc
      rw [abs_of_nonneg (by linarith : 0 ≤ q - c.value)]
      exact abs_le.2 ⟨by linarith, by linarith⟩
    · rw [← hc]
    · have := habove c hc
      have hlt : value ⟨r⟩ < c.value := value_lt_value.2 hc
      rw [abs_of_nonpos (by linarith : q - c.value ≤ 0)]
      exact abs_le.2 ⟨by linarith, by linarith⟩
  · rcases lt_or_gt_of_ne (mt rank_inj.1 hne) with hc | hc
    · have := hbelow c hc
      have hlt : c.value < value ⟨r⟩ := value_lt_value.2 hc
      refine heven (.inl ?_)
      rcases abs_eq_abs.1 heq with hsame | hsame <;> linarith
    · have := habove c hc
      have hlt : value ⟨r⟩ < c.value := value_lt_value.2 hc
      refine heven (.inr ?_)
      rcases abs_eq_abs.1 heq with hsame | hsame <;> linarith

/-- Of a fraction below a middle the nearest number is below it too. -/
theorem IsNearest.rank_le_of_lt (h : IsNearest q b) (hr : r.natAbs ≤ infinityRank)
    (hq : q < midpoint r) : b.rank ≤ r := by
  by_contra hlt
  have hnext : value ⟨r + 1⟩ ≤ b.value := value_le_value.2 (not_le.1 hlt)
  have hstep : value ⟨r⟩ < value ⟨r + 1⟩ := value_lt_value.2 (Int.lt_succ r)
  unfold midpoint at hq
  have hnearer := h.abs_le ⟨r⟩ hr
  rw [abs_of_nonpos (by linarith : q - b.value ≤ 0)] at hnearer
  rcases abs_choice (q - value ⟨r⟩) with habs | habs <;> rw [habs] at hnearer <;> linarith

/-- Of a fraction above a middle the nearest number is above it too. -/
theorem IsNearest.lt_rank_of_lt (h : IsNearest q b) (hr : (r + 1).natAbs ≤ infinityRank)
    (hq : midpoint r < q) : r < b.rank := by
  have := h.neg.rank_le_of_lt (by rwa [Int.natAbs_neg]) (neg_lt_midpoint hq)
  simp only at this
  omega

/-- The nearest number does not go down as a fraction goes up. -/
theorem IsNearest.rank_mono {q' : ℚ} (h : IsNearest q a) (h' : IsNearest q' b) (hlt : q < q') :
    a.rank ≤ b.rank := by
  by_contra hrank
  have hvalue : b.value < a.value := value_lt_value.2 (not_le.1 hrank)
  have hleft := h.abs_le b h'.rank_le
  have hright := h'.abs_le a h.rank_le
  rcases abs_cases (q - a.value) with ha | ha <;> rcases abs_cases (q - b.value) with hb | hb <;>
    rcases abs_cases (q' - a.value) with ha' | ha' <;>
      rcases abs_cases (q' - b.value) with hb' | hb' <;> linarith

/-- There is one nearest number only. -/
theorem IsNearest.unique (h : IsNearest q a) (h' : IsNearest q b) : a = b := by
  by_contra hne
  wlog hlt : a.rank < b.rank generalizing a b
  · have hrank := mt rank_inj.1 hne
    exact this h' h (Ne.symm hne) (by omega)
  have htie := le_antisymm (h.abs_le b h'.rank_le) (h'.abs_le a h.rank_le)
  have heven := h.even b h'.rank_le htie.symm (Ne.symm hne)
  have heven' := h'.even a h.rank_le htie hne
  -- Both ranks are even, so there is a number between, and it is nearer.
  have hbetween : a.rank + 1 < b.rank := by
    rw [Int.even_iff] at heven heven'
    omega
  have hrange := h.rank_le
  have hrange' := h'.rank_le
  have hnearer := h.abs_le ⟨a.rank + 1⟩ (by simp only; omega)
  have hleft : a.value < value ⟨a.rank + 1⟩ := value_lt_value.2 (Int.lt_succ _)
  have hright : value ⟨a.rank + 1⟩ < b.value := value_lt_value.2 hbetween
  rcases abs_eq_abs.1 htie with hsame | hopposite
  · linarith
  · rw [abs_of_pos (by linarith : 0 < q - a.value)] at hnearer
    exact hnearer.not_gt (abs_lt.2 ⟨by linarith, by linarith⟩)

end Binary64
end TxIndex
