import TxIndex.Proofs.Decimal.Exact
import TxIndex.Proofs.Decimal.Reading
import TxIndex.Proofs.Search.Meaning

/-! # Comparisons with numbers

A value meets a comparison with a number if it is a numeral and the binary64 numbers as which both
are read compare so (`Condition.number_comparesAsBinary64`). That is the answer of the numbers that
are written for one pair of them and not for another: if each is read as the nearest number, all
comparisons are exact if the two are equal or have different nearest numbers, and not otherwise.

A reading need not be the nearest number. What is known of it without that assumption is enough for
equal numbers, for binary64 numbers themselves, and for numbers on two sides of a middle between
neighbours, unless they are as near to it as a reading may be off. -/
namespace TxIndex

namespace Comparison

/-- A comparison depends on the order of the two sides only. -/
theorem relates_congr {α β : Type} [LinearOrder α] [LinearOrder β] {a b : α} {a' b' : β}
    (hlt : a < b → a' < b') (heq : a = b → a' = b') (hgt : b < a → b' < a') (c : Comparison) :
    c.Relates a' b' ↔ c.Relates a b := by
  rcases lt_trichotomy a b with h | h | h
  · have h' := hlt h
    cases c <;> simp [Relates, h, h', h.ne, h'.ne, h.asymm, h'.asymm]
  · have h' := heq h
    cases c <;> simp [Relates, h, h']
  · have h' := hgt h
    cases c <;> simp [Relates, h, h', h.ne', h'.ne', h.asymm, h'.asymm]

end Comparison

namespace Binary64

variable {x y : ℚ} {a b : Binary64}

/-- The nearest numbers compare as the numbers do, if only equal numbers have the same. -/
theorem IsNearest.relates_iff (ha : IsNearest x a) (hb : IsNearest y b) (h : a = b → x = y)
    (c : Comparison) : c.Relates a.rank b.rank ↔ c.Relates x y := by
  refine Comparison.relates_congr (fun hlt => ?_) (fun heq => ?_) (fun hgt => ?_) c
  · exact (ha.rank_mono hb hlt).lt_of_ne fun heq => hlt.ne (h (rank_inj.1 heq))
  · subst heq
    exact rank_inj.2 (ha.unique hb)
  · exact (hb.rank_mono ha hgt).lt_of_ne fun heq => hgt.ne' (h (rank_inj.1 heq.symm))

/-- Readings of parted numbers compare as the numbers do. -/
theorem IsParted.relates_iff (h : IsParted x y ∨ IsParted y x) (ha : IsReading x a)
    (hb : IsReading y b) (c : Comparison) : c.Relates a.rank b.rank ↔ c.Relates x y := by
  rcases h with h | h
  · have hlt := h.lt
    exact Comparison.relates_congr (fun _ => h.rank_lt ha hb) (fun heq => absurd heq hlt.ne)
      (fun hgt => absurd hgt hlt.asymm) c
  · have hgt := h.lt
    exact Comparison.relates_congr (fun hlt => absurd hlt hgt.asymm)
      (fun heq => absurd heq hgt.ne') (fun _ => h.rank_lt hb ha) c

theorem isReading_ofText {s : String} (hs : Decimal.IsNumeral s.toList) :
    IsReading (Decimal.written s.toList) (ofText s) :=
  Decimal.value_read hs ▸ isReading_ofDecimal _

/-- A number is read as one, however it is written. -/
theorem ofText_congr {s t : String} (hs : Decimal.IsNumeral s.toList)
    (ht : Decimal.IsNumeral t.toList)
    (h : Decimal.written s.toList = Decimal.written t.toList) : ofText s = ofText t :=
  ofDecimal_congr (by rw [Decimal.value_read hs, Decimal.value_read ht, h])

end Binary64

namespace Condition

open Binary64 (IsNearest IsReading IsParted ofText)
open Decimal (IsNumeral written)

/-- A value meets the comparison with a number just if it is a numeral and the numbers that are
written compare so. -/
def HoldsExactly (op : Comparison) (key v : String) (n : Literal) : Prop :=
  (compare op key (.number n)).test.holds v = true ↔
    IsNumeral v.toList ∧ op.Relates (written v.toList) (written n.text.toList)

/-- What the comparisons of a value with a number come to. -/
structure ComparesAsBinary64 (key v : String) (n : Literal) : Prop where
  /-- The value is a numeral, and the numbers as which both are read compare so. -/
  holds_iff : ∀ op, (compare op key (.number n)).test.holds v = true ↔
    IsNumeral v.toList ∧ op.Relates (ofText v).rank (ofText n.text).rank
  /-- Both are read as numbers near to those that are written. -/
  reading : IsNumeral v.toList →
    IsReading (written v.toList) (ofText v) ∧ IsReading (written n.text.toList) (ofText n.text)
  /-- If both are read as the nearest numbers, the comparisons are exact unless different numbers
  have the same nearest number. -/
  exact_iff : IsNumeral v.toList → IsNearest (written v.toList) (ofText v) →
    IsNearest (written n.text.toList) (ofText n.text) →
      ((∀ op, HoldsExactly op key v n) ↔
        written v.toList = written n.text.toList ∨ ofText v ≠ ofText n.text)
  /-- Equal numbers compare as such, however they are written. -/
  exact_of_eq : written v.toList = written n.text.toList → ∀ op, HoldsExactly op key v n
  /-- Numbers that are binary64 numbers compare exactly. -/
  exact_of_isFinite : ∀ a b : Binary64, a.IsFinite → b.IsFinite → a.value = written v.toList →
    b.value = written n.text.toList → ∀ op, HoldsExactly op key v n
  /-- Numbers on two sides of a middle between neighbours compare exactly, unless they are too near
  to it. -/
  exact_of_isParted : IsParted (written v.toList) (written n.text.toList) ∨
    IsParted (written n.text.toList) (written v.toList) → ∀ op, HoldsExactly op key v n

variable {op : Comparison} {key s v : String} {n : Literal}

theorem number_holds_iff (hnul : '\x00' ∉ v.toList) :
    (compare op key (.number n)).test.holds v = true ↔
      IsNumeral v.toList ∧ op.Relates (ofText v).rank (ofText n.text).rank := by
  rw [holds_test_iff rfl, accepts_iff_promises hnul]
  exact Iff.rfl

/-- The comparison is exact if the order of the two numbers is the same as binary64. -/
theorem holdsExactly_iff (hnul : '\x00' ∉ v.toList) : HoldsExactly op key v n ↔
    (IsNumeral v.toList → (op.Relates (ofText v).rank (ofText n.text).rank ↔
      op.Relates (written v.toList) (written n.text.toList))) := by
  rw [HoldsExactly, number_holds_iff hnul]
  exact and_congr_right_iff

section

variable (hnul : '\x00' ∉ v.toList) (hs : IsNumeral n.text.toList)
include hnul

/-- Between the nearest numbers all comparisons are exact unless different numbers have the same. -/
theorem holdsExactly_iff_of_isNearest (hv : IsNumeral v.toList)
    (ha : IsNearest (written v.toList) (ofText v))
    (hb : IsNearest (written n.text.toList) (ofText n.text)) :
    (∀ op, HoldsExactly op key v n) ↔
      written v.toList = written n.text.toList ∨ ofText v ≠ ofText n.text := by
  refine ⟨fun h => ?_, fun h op => ?_⟩
  · have heq : ofText v = ofText n.text → written v.toList = written n.text.toList := fun hsame =>
      ((holdsExactly_iff hnul).1 (h .eq) hv).1 (congrArg Binary64.rank hsame)
    exact or_iff_not_imp_right.2 fun hsame => heq (not_not.1 hsame)
  · exact (holdsExactly_iff hnul).2 fun _ =>
      ha.relates_iff hb (fun hsame => h.resolve_right (not_not.2 hsame)) op

include hs

theorem holdsExactly_of_eq (h : written v.toList = written n.text.toList) (op : Comparison) :
    HoldsExactly op key v n :=
  (holdsExactly_iff hnul).2 fun hv => by
    rw [h, Binary64.ofText_congr hv hs h]
    cases op <;> simp [Comparison.Relates]

theorem holdsExactly_of_isParted (h : IsParted (written v.toList) (written n.text.toList) ∨
    IsParted (written n.text.toList) (written v.toList)) (op : Comparison) :
    HoldsExactly op key v n :=
  (holdsExactly_iff hnul).2 fun hv =>
    IsParted.relates_iff h (Binary64.isReading_ofText hv) (Binary64.isReading_ofText hs) op

/-- Different binary64 numbers are parted. -/
theorem holdsExactly_of_isFinite {a b : Binary64} (ha : a.IsFinite) (hb : b.IsFinite)
    (hv : a.value = written v.toList) (hn : b.value = written n.text.toList) (op : Comparison) :
    HoldsExactly op key v n := by
  rcases lt_trichotomy a.value b.value with hlt | heq | hgt
  · have hparted := Binary64.isParted_of_value_lt ha hb hlt
    rw [hv, hn] at hparted
    exact holdsExactly_of_isParted hnul hs (.inl hparted) op
  · exact holdsExactly_of_eq hnul hs (by rw [← hv, ← hn, heq]) op
  · have hparted := Binary64.isParted_of_value_lt hb ha hgt
    rw [hv, hn] at hparted
    exact holdsExactly_of_isParted hnul hs (.inr hparted) op

end

/-- **Comparisons with numbers compare as binary64**, and are exact as far as that tells the numbers
that are written from one another. The first part says what is compared; the others say for which
numbers that makes no difference, first under the assumption that the nearest numbers are compared
and then without it. -/
theorem number_comparesAsBinary64 (hn : Literal.parse? s = some n) (hnul : '\x00' ∉ v.toList) :
    n.text = s ∧ ComparesAsBinary64 key v n := by
  obtain ⟨hs, rfl⟩ := Literal.parse?_eq_some.1 hn
  exact ⟨rfl,
    { holds_iff := fun op => number_holds_iff hnul
      reading := fun hv => ⟨Binary64.isReading_ofText hv, Binary64.isReading_ofText hs⟩
      exact_iff := holdsExactly_iff_of_isNearest hnul
      exact_of_eq := holdsExactly_of_eq hnul hs
      exact_of_isFinite := fun _ _ => holdsExactly_of_isFinite hnul hs
      exact_of_isParted := holdsExactly_of_isParted hnul hs }⟩

/-- Past the numbers up to which binary64 has all whole ones, it still has the even ones. -/
theorem number_comparesAsBinary64_even :
    Literal.parse? "9007199254740992" = some ⟨"9007199254740992"⟩ ∧
      '\x00' ∉ "9007199254740994".toList ∧
      (compare .gt "n.v" (.number ⟨"9007199254740992"⟩)).test.holds "9007199254740994" = true := by
  have hn : Literal.parse? "9007199254740992" = some ⟨"9007199254740992"⟩ := by decide +kernel
  have hnul : '\x00' ∉ "9007199254740994".toList := by decide +kernel
  have hv : IsNumeral "9007199254740994".toList := Decimal.isLiteral_iff.1 (by decide +kernel)
  have hleft : written "9007199254740994".toList = (9007199254740994 : Nat) := rfl
  have hright : written "9007199254740992".toList = (9007199254740992 : Nat) := rfl
  have hvalue : ∀ m : Nat, 2 ^ 52 ≤ m → m ≤ 2 ^ 53 →
      Binary64.value ⟨((1075 * 2 ^ 52 + m : Nat) : Int)⟩ = m * 2 := fun m hlow hhigh => by
    rw [Binary64.value_natCast, Binary64.size_eq hhigh (.inr hlow)]
    norm_num
  have hcompares : ComparesAsBinary64 "n.v" "9007199254740994" ⟨"9007199254740992"⟩ :=
    (number_comparesAsBinary64 hn hnul).2
  refine ⟨hn, hnul, (hcompares.exact_of_isFinite ⟨((1075 * 2 ^ 52 + (2 ^ 52 + 1) : Nat) : Int)⟩
    ⟨((1075 * 2 ^ 52 + 2 ^ 52 : Nat) : Int)⟩ (by unfold Binary64.IsFinite; decide +kernel)
    (by unfold Binary64.IsFinite; decide +kernel) ?_ ?_ .gt).2 ⟨hv, ?_⟩⟩
  · rw [hvalue _ (by decide) (by decide), hleft]
    norm_num
  · rw [hvalue _ (by decide) (by decide), hright]
    norm_num
  · rw [hleft, hright]
    exact Nat.cast_lt.2 (by decide)

-- A reading need not be the nearest number. The value lies half way between the number and the
-- neighbour above, which is the even one, and yet is read as the number.
example : (compare .eq "n.v" (.number ⟨"373045502877322641408"⟩)).test.holds
    "373045502877322674176" = true := by decide +kernel

/-- The first whole number that is no longer small compares as equal to the one before. -/
theorem number_holds_neighbours :
    Literal.parse? "9007199254740992" = some ⟨"9007199254740992"⟩ ∧
      Decimal.IsNumeral "9007199254740993".toList ∧
      (compare .eq "n.v" (.number ⟨"9007199254740992"⟩)).test.holds "9007199254740993" = true ∧
      ¬ Comparison.Relates .eq (Decimal.written "9007199254740993".toList)
        (Decimal.written "9007199254740992".toList) := by
  have hleft : Decimal.written "9007199254740993".toList = (9007199254740993 : Nat) := rfl
  have hright : Decimal.written "9007199254740992".toList = (9007199254740992 : Nat) := rfl
  refine ⟨by decide +kernel, Decimal.isLiteral_iff.1 (by decide +kernel), by decide +kernel, ?_⟩
  rw [hleft, hright]
  exact fun h => absurd (Nat.cast_injective h) (by decide)

end Condition
end TxIndex
