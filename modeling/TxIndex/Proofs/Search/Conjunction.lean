import Mathlib.Algebra.Order.Group.Int
import Mathlib.Order.WithBot
import TxIndex.Proofs.Search.Compilation
import TxIndex.Store.Basic

/-! # Conjunctions as sets of conditions

A query says the same in any order of its conditions, and however often they are repeated, except
that of several equalities of the height the last one counts (`Query.SameConditions`). Limits of the
height are folded into a range one after the other, and each side of the range is as tight as the
tightest of them (`HeightRange.tightness_foldl`), whatever their order
(`HeightRange.foldl_tighten_congr`). The other conditions are filters, of which a search asks no more
than whether all are met (`Plan.Agrees`). So queries of the same conditions find the same
(`Plan.search_sameConditions`). -/
namespace TxIndex

/-! ## The tightest limits -/

/-- What things are joined to is below a bound if it was and they all are. -/
theorem foldl_sup_le_iff {α β : Type} [SemilatticeSup α] {f : β → α} {bs : List β} {a x : α} :
    bs.foldl (fun a b => a ⊔ f b) a ≤ x ↔ a ≤ x ∧ ∀ b ∈ bs, f b ≤ x := by
  induction bs generalizing a with
  | nil => simp
  | cons b bs ih => rw [List.foldl_cons, ih, sup_le_iff, List.forall_mem_cons, and_assoc]

/-- How tight a lower limit is. Of two at one value the one that excludes it is tighter. -/
def tightnessOf (value : ℤ) (inclusive : Bool) : ℤ := 2 * value + if inclusive then 0 else 1

theorem tightnessOf_inj {value value' : ℤ} {inclusive inclusive' : Bool} :
    tightnessOf value inclusive = tightnessOf value' inclusive' ↔
      value = value' ∧ inclusive = inclusive' := by
  cases inclusive <;> cases inclusive' <;> simp [tightnessOf] <;> omega

/-- A limit takes the place of another if it is no less tight. -/
theorem max_tightnessOf (value value' : ℤ) (inclusive inclusive' : Bool) :
    max (tightnessOf value inclusive) (tightnessOf value' inclusive') =
      if value < value' ∨ (value' = value ∧ inclusive' = false) then tightnessOf value' inclusive'
      else tightnessOf value inclusive := by
  cases inclusive <;> cases inclusive' <;> simp [tightnessOf] <;> split <;> omega

namespace Bound

/-- How tight the bound is as a lower limit. -/
def lowerTightness (b : Bound) : ℤ := tightnessOf b.value.toInt b.inclusive

/-- How tight the bound is as an upper limit: the lower its value, the tighter. -/
def upperTightness (b : Bound) : ℤ := tightnessOf (-b.value.toInt) b.inclusive

variable {b b' : Bound}

/-- Bounds as tight as one another are the same. -/
theorem lowerTightness_inj : b.lowerTightness = b'.lowerTightness ↔ b = b' := by
  obtain ⟨value, inclusive⟩ := b
  obtain ⟨value', inclusive'⟩ := b'
  rw [lowerTightness, lowerTightness, tightnessOf_inj, Int64.toInt_inj, mk.injEq]

theorem upperTightness_inj : b.upperTightness = b'.upperTightness ↔ b = b' := by
  obtain ⟨value, inclusive⟩ := b
  obtain ⟨value', inclusive'⟩ := b'
  rw [upperTightness, upperTightness, tightnessOf_inj, Int.neg_inj, Int64.toInt_inj, mk.injEq]

theorem max_lowerTightness (cur b : Bound) : max cur.lowerTightness b.lowerTightness =
    if cur.value < b.value ∨ (b.value = cur.value ∧ b.inclusive = false) then b.lowerTightness
    else cur.lowerTightness := by
  simp only [lowerTightness, max_tightnessOf, Int64.lt_iff_toInt_lt, ← Int64.toInt_inj]

theorem max_upperTightness (cur b : Bound) : max cur.upperTightness b.upperTightness =
    if b.value < cur.value ∨ (b.value = cur.value ∧ b.inclusive = false) then b.upperTightness
    else cur.upperTightness := by
  simp only [upperTightness, max_tightnessOf, Int64.lt_iff_toInt_lt, ← Int64.toInt_inj,
    Int.neg_lt_neg_iff, Int.neg_inj]

end Bound

/-- How tight the limit is on the lower and on the upper side. -/
def HeightLimit.tightness : HeightLimit → WithBot ℤ × WithBot ℤ
  | .lower b => (b.lowerTightness, ⊥)
  | .upper b => (⊥, b.upperTightness)

namespace HeightRange

/-- How tight the range is on the lower and on the upper side. -/
def tightness (r : HeightRange) : WithBot ℤ × WithBot ℤ :=
  (r.lower.elim ⊥ fun b => b.lowerTightness, r.upper.elim ⊥ fun b => b.upperTightness)

variable {r r' : HeightRange} {limits limits' : List HeightLimit}

/-- Ranges as tight as one another are the same. -/
theorem tightness_inj : r.tightness = r'.tightness ↔ r = r' := by
  obtain ⟨lower, upper⟩ := r
  obtain ⟨lower', upper'⟩ := r'
  rw [tightness, tightness, Prod.mk_inj, mk.injEq]
  apply and_congr
  · cases lower <;> cases lower' <;> simp [Bound.lowerTightness_inj]
  · cases upper <;> cases upper' <;> simp [Bound.upperTightness_inj]

/-- With one more limit the range is as tight as either. -/
theorem tightness_tighten (r : HeightRange) (l : HeightLimit) :
    (r.tighten l).tightness = r.tightness ⊔ l.tightness := by
  obtain ⟨lower, upper⟩ := r
  cases l with
  | lower b =>
    cases lower with
    | none => simp [tighten, tightenLower, tightness, HeightLimit.tightness]
    | some cur =>
      have hmax := cur.max_lowerTightness b
      simp only [tighten, tightenLower]
      split at hmax
      · next htighter =>
        rw [if_pos htighter]
        simpa [tightness, HeightLimit.tightness] using hmax
      · next hlooser =>
        rw [if_neg hlooser]
        simpa [tightness, HeightLimit.tightness] using hmax
  | upper b =>
    cases upper with
    | none => simp [tighten, tightenUpper, tightness, HeightLimit.tightness]
    | some cur =>
      have hmax := cur.max_upperTightness b
      simp only [tighten, tightenUpper]
      split at hmax
      · next htighter =>
        rw [if_pos htighter]
        simpa [tightness, HeightLimit.tightness] using hmax
      · next hlooser =>
        rw [if_neg hlooser]
        simpa [tightness, HeightLimit.tightness] using hmax

/-- A range into which limits were folded is as tight as the range before and all of them. -/
theorem tightness_foldl (r : HeightRange) : (limits.foldl tighten r).tightness =
    limits.foldl (fun t l => t ⊔ l.tightness) r.tightness := by
  induction limits generalizing r with
  | nil => rfl
  | cons l limits ih => rw [List.foldl_cons, List.foldl_cons, ih, tightness_tighten]

/-- **The range is that of the set of the limits**: it depends neither on their order nor on how
often they are given. Limits are ordered by how tight they are, and the range keeps the tightest of
each side, which is a maximum. -/
theorem foldl_tighten_congr (h : ∀ l, l ∈ limits ↔ l ∈ limits') (r : HeightRange) :
    limits.foldl tighten r = limits'.foldl tighten r := by
  apply tightness_inj.1
  rw [tightness_foldl, tightness_foldl]
  apply eq_of_forall_ge_iff
  intro x
  rw [foldl_sup_le_iff, foldl_sup_le_iff]
  simp only [h]

end HeightRange

/-! ## Queries of the same conditions -/

namespace Query

/-- The queries have the same conditions, in whatever order and however often, and the last equality
of the height is the same, if there is one. -/
structure SameConditions (q q' : Query) : Prop where
  mem_iff : ∀ c, c ∈ q.conditions ↔ c ∈ q'.conditions
  lastFixed : (q.conditions.filter Condition.fixesHeight).getLast? =
    (q'.conditions.filter Condition.fixesHeight).getLast?

namespace SameConditions

variable {q q' : Query}

theorem isCompilable_iff (h : q.SameConditions q') : q.IsCompilable ↔ q'.IsCompilable := by
  simp only [IsCompilable, h.mem_iff]

theorem mem_filters_iff (h : q.SameConditions q') (c : Condition) :
    c ∈ q.filters ↔ c ∈ q'.filters := by
  rw [filters, filters, List.mem_filter, List.mem_filter, h.mem_iff]

theorem heightRange_eq (h : q.SameConditions q') : q.heightRange = q'.heightRange := by
  apply HeightRange.foldl_tighten_congr
  intro l
  rw [List.mem_filterMap, List.mem_filterMap]
  simp only [h.mem_iff]

theorem fixed?_eq (h : q.SameConditions q') :
    Condition.fixed? q.conditions = Condition.fixed? q'.conditions := by
  rw [Condition.fixed?, Condition.fixed?, h.lastFixed]

end SameConditions
end Query

namespace Plan

/-- The plans look for the same: in the same window for as many hits, that meet the same filters. -/
structure Agrees (p p' : Plan) : Prop where
  window : p.window = p'.window
  limit : p.limit = p'.limit
  mem_filters_iff : ∀ c, c ∈ p.filters ↔ c ∈ p'.filters

variable {p p' : Plan}

/-- Plans that look for the same find the same, in the same order. -/
theorem Agrees.search_eq (h : p.Agrees p') (db : Database) (chainId : String) :
    db.search chainId p = db.search chainId p' := by
  have hfilters : ∀ txId, p.filters.all (db.meets txId) = p'.filters.all (db.meets txId) := by
    intro txId
    rw [Bool.eq_iff_iff, List.all_eq_true, List.all_eq_true]
    exact forall_congr' fun c => imp_congr_left (h.mem_filters_iff c)
  have hmatches : ∀ bounds limit, db.newestMatches bounds p.filters limit =
      db.newestMatches bounds p'.filters limit := by
    intro bounds limit
    simp only [Database.newestMatches, hfilters]
  rw [Database.search, Database.search, h.window, h.limit]
  simp only [hmatches]

/-- Queries of the same conditions are compiled to plans that look for the same. -/
theorem agrees_of_sameConditions {q q' : Query} (h : q.SameConditions q') {limit ceiling : UInt16}
    (hp : compileWithin q limit ceiling = .ok p) (hp' : compileWithin q' limit ceiling = .ok p') :
    p.Agrees p' := by
  obtain ⟨-, rfl⟩ := compileWithin_eq_ok.1 hp
  obtain ⟨-, rfl⟩ := compileWithin_eq_ok.1 hp'
  exact ⟨by rw [h.heightRange_eq, h.fixed?_eq], rfl, h.mem_filters_iff⟩

/-- **A query says the same in any order of its conditions, and however often they are repeated**,
as long as the last equality of the height stays the same: it compiles or it does not, to the same
window, and every store finds the same transactions in the same order. -/
theorem search_sameConditions {q q' : Query} (h : q.SameConditions q') (limit ceiling : UInt16) :
    ((∃ p, compileWithin q limit ceiling = .ok p) ↔
        ∃ p, compileWithin q' limit ceiling = .ok p) ∧
      ∀ p p', compileWithin q limit ceiling = .ok p → compileWithin q' limit ceiling = .ok p' →
        p.window = p'.window ∧ ∀ (s : Store) (st : Storage), s.search p st = s.search p' st := by
  refine ⟨?_, fun p p' hp hp' => ?_⟩
  · rw [exists_compileWithin, exists_compileWithin, h.isCompilable_iff]
  · have hagree := agrees_of_sameConditions h hp hp'
    refine ⟨hagree.window, fun s st => ?_⟩
    rw [Store.search, Store.search, hagree.search_eq]

/-- The conditions of `manyHeights` in another order, two of them repeated, with the same equality
last. -/
def manyHeightsShuffled : Query :=
  ⟨[.compare .gt txHeightKey (.number ⟨"2"⟩), .compare .eq txHeightKey (.number ⟨"7"⟩),
    .present txHeightKey, .compare .eq txHeightKey (.text "9"), .present txHeightKey,
    .compare .eq txHeightKey (.number ⟨"7"⟩), .compare .ge txHeightKey (.number ⟨"2.0"⟩)]⟩

/-- The general statement at these two queries. -/
theorem search_sameConditions_manyHeights :
    manyHeights.SameConditions manyHeightsShuffled ∧
      ∃ p p', compileWithin manyHeights 10 Plan.ceiling = .ok p ∧
        compileWithin manyHeightsShuffled 10 Plan.ceiling = .ok p' ∧ p ≠ p' ∧
        p.window = p'.window ∧ ∀ (s : Store) (st : Storage), s.search p st = s.search p' st := by
  have hsame : manyHeights.SameConditions manyHeightsShuffled := by
    refine ⟨fun c => ?_, by decide +kernel⟩
    simp only [manyHeights, manyHeightsShuffled, List.mem_cons, List.not_mem_nil]
    tauto
  have hp : compileWithin manyHeights 10 Plan.ceiling =
      .ok ⟨.range ⟨some ⟨2, false⟩, none⟩, [.present txHeightKey], min 10 Plan.ceiling⟩ := by
    decide +kernel
  have hp' : compileWithin manyHeightsShuffled 10 Plan.ceiling =
      .ok ⟨.range ⟨some ⟨2, false⟩, none⟩, [.present txHeightKey, .present txHeightKey],
        min 10 Plan.ceiling⟩ := by
    decide +kernel
  exact ⟨hsame, _, _, hp, hp', by decide, (search_sameConditions hsame 10 Plan.ceiling).2 _ _ hp hp'⟩

end Plan
end TxIndex
