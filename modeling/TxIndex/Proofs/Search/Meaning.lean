import TxIndex.Proofs.Search.Ranking
import TxIndex.Proofs.Text.Bytes
import TxIndex.Proofs.Text.Numerals

/-! # The meaning of a plan

What the window of a plan and its conditions say, without the tests by which a search decides them:
heights between limits, texts in the order of their bytes, texts within texts, decimal numbers.
There are two readings of a comparison with a number. Under the strict one (`Condition.Promises`)
only a decimal number compares; a search goes by the other (`Condition.Accepts`), which leaves out
of account whatever a value has from its first NUL on. The two agree on values without NUL. -/
namespace TxIndex

/-! ## Comparisons -/

namespace Comparison

/-- Two things stand to each other as the comparison says. -/
def Relates {α : Type} [LT α] : Comparison → α → α → Prop
  | .eq, a, b => a = b
  | .lt, a, b => a < b
  | .le, a, b => a < b ∨ a = b
  | .gt, a, b => b < a
  | .ge, a, b => b < a ∨ a = b

/-- A comparison admits the order of two things exactly if they stand as it says. -/
theorem admits_compare_iff {α : Type} [LT α] [Ord α] [Std.OrientedOrd α] [Std.LawfulEqOrd α]
    (hlt : ∀ a b : α, compare a b = .lt ↔ a < b) (c : Comparison) (a b : α) :
    c.admits (compare a b) = true ↔ c.Relates a b := by
  have hgt : compare a b = .gt ↔ b < a := Std.OrientedCmp.gt_iff_lt.trans (hlt b a)
  have heq : compare a b = .eq ↔ a = b := Std.LawfulEqCmp.compare_eq_iff_eq
  cases c <;> simp only [Relates, ← hlt a b, ← hgt, ← heq, admits] <;>
    cases compare a b <;> simp

theorem admits_string {c : Comparison} {a b : String} :
    c.admits (compare a b) = true ↔ c.Relates a b :=
  admits_compare_iff (fun _ _ => compareOfLessAndEq_eq_lt) c a b

theorem admits_int {c : Comparison} {a b : Int} :
    c.admits (compare a b) = true ↔ c.Relates a b :=
  admits_compare_iff (fun _ _ => compareOfLessAndEq_eq_lt) c a b

theorem admits_height {c : Comparison} {a b : Int64} :
    c.admits (compare a b) = true ↔ c.Relates a b :=
  admits_compare_iff (fun _ _ => compareOfLessAndEq_eq_lt) c a b

/-- Texts compare as their bytes do. -/
theorem relates_encode {c : Comparison} {a b : String} :
    c.Relates (Utf8.encode a) (Utf8.encode b) ↔ c.Relates a b := by
  cases c <;> simp only [Relates, Utf8.encode_lt_encode_iff, Utf8.encode_inj]

theorem relates_le_iff {a b : Int64} : Comparison.Relates .le a b ↔ a ≤ b :=
  Int64.le_iff_lt_or_eq.symm

end Comparison

/-! ## Conditions -/

namespace Condition

/-- What a condition says of a value, given what it is for a value to compare with a number. A
condition that lacks its argument says nothing true. -/
def Says (compares : Comparison → Literal → String → Prop) (c : Condition) (value : String) :
    Prop :=
  match c.op, c.arg with
  | .present, _ => True
  | _, none => False
  | .contains, some arg => arg.raw.toList <:+: value.toList
  | .compare o, some (.text s) => o.Relates (Utf8.encode value) (Utf8.encode s)
  | .compare o, some (.number n) => compares o n value

/-- The value is a decimal number and compares as binary64. -/
def IsNumberThat (o : Comparison) (n : Literal) (value : String) : Prop :=
  Decimal.IsNumeral value.toList ∧
    o.Relates (Binary64.ofText value).rank (Binary64.ofText n.text).rank

/-- The value is a decimal number up to its first NUL, and compares as binary64. -/
def BeginsWithNumberThat (o : Comparison) (n : Literal) (value : String) : Prop :=
  Decimal.IsNumeral (Decimal.beforeNul value.toList) ∧
    o.Relates (Binary64.ofText value).rank (Binary64.ofText n.text).rank

/-- What a condition says of a value, only decimal numbers comparing with numbers. -/
def Promises : Condition → String → Prop := Says IsNumberThat

/-- What a search takes a condition to say of a value. -/
def Accepts : Condition → String → Prop := Says BeginsWithNumberThat

theorem IsNumberThat.begins {o : Comparison} {n : Literal} {value : String}
    (h : IsNumberThat o n value) : BeginsWithNumberThat o n value :=
  ⟨by rw [Decimal.beforeNul_eq_self h.1.nul_not_mem]; exact h.1, h.2⟩

theorem Says.imp {p q : Comparison → Literal → String → Prop}
    (h : ∀ o n value, p o n value → q o n value) {c : Condition} {value : String}
    (hc : c.Says p value) : c.Says q value := by
  unfold Says at hc ⊢
  split at hc
  · exact trivial
  · exact hc.elim
  · exact hc
  · exact hc
  · exact h _ _ _ hc

/-- Whatever the strict reading asks for, a search finds. -/
theorem Promises.accepts {c : Condition} {value : String} (h : c.Promises value) :
    c.Accepts value :=
  Says.imp (fun _ _ _ => IsNumberThat.begins) h

/-- On values without NUL the two readings agree. -/
theorem accepts_iff_promises {c : Condition} {value : String} (h : '\x00' ∉ value.toList) :
    c.Accepts value ↔ c.Promises value := by
  refine ⟨fun hc => ?_, Promises.accepts⟩
  unfold Accepts Says at hc
  unfold Promises Says
  split at hc
  · exact trivial
  · exact hc
  · exact hc
  · exact hc
  · exact ⟨by rw [← Decimal.beforeNul_eq_self h]; exact hc.1, hc.2⟩

/-- A search decides what a condition says. -/
theorem holds_test_iff {c : Condition} (h : Plan.lacksArgument c = false) {value : String} :
    c.test.holds value = true ↔ c.Accepts value := by
  rcases c with ⟨tag, op, arg⟩
  cases op with
  | present => simp [test, Test.holds, Accepts, Says]
  | contains =>
    cases arg with
    | none => simp [Plan.lacksArgument] at h
    | some arg => exact Text.occursIn_iff
  | compare o =>
    match arg with
    | none => simp [Plan.lacksArgument] at h
    | some (.text s) => exact Comparison.admits_string.trans Comparison.relates_encode.symm
    | some (.number n) =>
      simp only [test, Test.holds, Accepts, Says, BeginsWithNumberThat, Bool.and_eq_true]
      rw [Decimal.isNumeric_iff, Comparison.admits_int]

end Condition

/-! ## Windows -/

instance lawfulOrderMax_int64 : Std.LawfulOrderMax Int64 where
  max_eq_or a b := by
    show (if a ≤ b then b else a) = a ∨ (if a ≤ b then b else a) = b
    by_cases h : a ≤ b
    · exact .inr (if_pos h)
    · exact .inl (if_neg h)
  max_le_iff a b c := by
    show (if a ≤ b then b else a) ≤ c ↔ a ≤ c ∧ b ≤ c
    by_cases h : a ≤ b
    · rw [if_pos h]
      exact ⟨fun hbc => ⟨Int64.le_trans h hbc, hbc⟩, And.right⟩
    · rw [if_neg h]
      have hba : b ≤ a := Int64.le_of_lt (Int64.not_le.1 h)
      exact ⟨fun hac => ⟨hac, Int64.le_trans hba hac⟩, And.left⟩

/-- A height is one to look at: it lies between the limits, or is the one asked for, or lies no
higher than the greatest recorded block of the chain. -/
def HeightWindow.Admits (db : Database) (chainId : String) (height : Int64) :
    HeightWindow → Prop
  | .range r =>
    (∀ b ∈ r.lower, b.value < height ∨ b.inclusive = true ∧ b.value = height) ∧
      ∀ b ∈ r.upper, height < b.value ∨ b.inclusive = true ∧ height = b.value
  | .exact value => height = value
  | .belowTip => ∃ row ∈ db.blocks.rows, row.chainId = chainId ∧ height ≤ row.height ∧
      ∀ row' ∈ db.blocks.rows, row'.chainId = chainId → row'.height ≤ row.height

namespace Database

variable {db : Database} {chainId : String} {height : Int64}

theorem mem_heights : height ∈ db.heights chainId ↔
    ∃ row ∈ db.blocks.rows, row.chainId = chainId ∧ row.height = height := by
  simp [heights, and_assoc]

/-- The tip is the greatest height of the chain. -/
theorem tip?_eq_some_iff {tip : Int64} : db.tip? chainId = some tip ↔
    ∃ row ∈ db.blocks.rows, row.chainId = chainId ∧ row.height = tip ∧
      ∀ row' ∈ db.blocks.rows, row'.chainId = chainId → row'.height ≤ row.height := by
  rw [tip?, List.max?_eq_some_iff, mem_heights]
  constructor
  · rintro ⟨⟨row, hrow, hc, rfl⟩, hle⟩
    exact ⟨row, hrow, hc, rfl, fun row' hrow' hc' => hle _ (mem_heights.2 ⟨row', hrow', hc', rfl⟩)⟩
  · rintro ⟨row, hrow, hc, rfl, hle⟩
    refine ⟨⟨row, hrow, hc, rfl⟩, fun b hb => ?_⟩
    obtain ⟨row', hrow', hc', rfl⟩ := mem_heights.1 hb
    exact hle row' hrow' hc'

theorem admitsHeight_singleton {c : Comparison} {value : Int64} :
    admitsHeight [(c, value)] height = true ↔ c.Relates height value := by
  simp [admitsHeight, Comparison.admits_height]

theorem admitsHeight_lower {b : Bound} : admitsHeight [HeightWindow.lowerBound b] height = true ↔
    b.value < height ∨ b.inclusive = true ∧ b.value = height := by
  rw [HeightWindow.lowerBound, admitsHeight_singleton]
  cases b.inclusive <;> simp [Comparison.Relates, eq_comm (a := height)]

theorem admitsHeight_upper {b : Bound} : admitsHeight [HeightWindow.upperBound b] height = true ↔
    height < b.value ∨ b.inclusive = true ∧ height = b.value := by
  rw [HeightWindow.upperBound, admitsHeight_singleton]
  cases b.inclusive <;> simp [Comparison.Relates]

theorem admitsHeight_append (xs ys : List (Comparison × Int64)) :
    admitsHeight (xs ++ ys) height = (admitsHeight xs height && admitsHeight ys height) :=
  List.all_append

/-- The comparisons of a window pick out the heights to look at. -/
theorem admits_window_iff (w : HeightWindow) : w.Admits db chainId height ↔
    ∃ bounds, w.bounds? (db.tip? chainId) = some bounds ∧ admitsHeight bounds height = true := by
  cases w with
  | range r =>
    simp only [HeightWindow.Admits, HeightWindow.bounds?, Option.some.injEq, exists_eq_left',
      admitsHeight_append, Bool.and_eq_true]
    rcases r with ⟨lower, upper⟩
    -- A missing side sets no bound, which every height meets.
    refine and_congr ?_ ?_
    · cases lower with
      | none => simp [admitsHeight]
      | some b => simp [admitsHeight_lower]
    · cases upper with
      | none => simp [admitsHeight]
      | some b => simp [admitsHeight_upper]
  | exact value =>
    simp [HeightWindow.Admits, HeightWindow.bounds?, admitsHeight_singleton, Comparison.Relates]
  | belowTip =>
    simp only [HeightWindow.Admits, HeightWindow.bounds?, Option.map_eq_some_iff]
    constructor
    · rintro ⟨row, hrow, hc, hle, hmax⟩
      exact ⟨_, ⟨row.height, tip?_eq_some_iff.2 ⟨row, hrow, hc, rfl, hmax⟩, rfl⟩,
        admitsHeight_singleton.2 (Comparison.relates_le_iff.2 hle)⟩
    · rintro ⟨_, ⟨tip, htip, rfl⟩, hle⟩
      obtain ⟨row, hrow, hc, rfl, hmax⟩ := tip?_eq_some_iff.1 htip
      exact ⟨row, hrow, hc, Comparison.relates_le_iff.1 (admitsHeight_singleton.1 hle), hmax⟩

end Database
end TxIndex
