import TxIndex.Plan
import TxIndex.Proofs.Search.Meaning

/-! # Heights in queries

What the conditions of a query say of heights. A condition compares the height if it has the tag of
heights and its operator is a comparison; it fixes the height if that is equality, and limits it
otherwise. Fixing conditions are taken out of a query first (`Condition.splitFixed_eq`), limiting
ones after them (`Condition.splitLimits_eq`), both up to the first whose argument is no height. The
limits are folded into a range, and the range admits the heights that every one of them admits
(`HeightRange.admits_foldl_tighten`). -/
namespace TxIndex

namespace Condition

/-- The condition compares the height of a transaction with its argument. -/
def comparesHeight (c : Condition) : Bool := c.tag = txHeightKey && c.op.comparison?.isSome

/-- The condition compares the height, and not by equality. -/
def limitsHeight (c : Condition) : Bool := c.tag = txHeightKey && c.op.isBound

/-- The height that the argument denotes. -/
def height? (c : Condition) : Option Int64 := c.height.toOption

/-- The failure to read a height from the argument. -/
def heightFault? (c : Condition) : Option Failure :=
  match c.height with
  | .ok _ => none
  | .error failure => some failure

/-- The height stands to that of the condition as the condition says. -/
def IsMetBy (c : Condition) (height : Int64) : Prop :=
  ∃ o value, c.op = .compare o ∧ c.height = .ok value ∧ o.Relates height value

variable {c : Condition} {cs : List Condition}

theorem height?_eq_some {value : Int64} : c.height? = some value ↔ c.height = .ok value := by
  unfold height?
  cases c.height <;> simp [Except.toOption]

theorem heightFault?_eq_some {failure : Failure} :
    c.heightFault? = some failure ↔ c.height = .error failure := by
  unfold heightFault?
  cases c.height <;> simp

theorem heightFault?_eq_none : c.heightFault? = none ↔ ∃ value, c.height = .ok value := by
  unfold heightFault?
  cases c.height <;> simp

/-- A comparison of heights is either an equality or a limit. -/
theorem comparesHeight_eq : c.comparesHeight = (c.fixesHeight || c.limitsHeight) := by
  obtain ⟨tag, op, arg⟩ := c
  cases op with
  | compare o =>
    cases o <;>
      simp [comparesHeight, fixesHeight, limitsHeight, Operator.isBound, Operator.comparison?,
        Comparison.isBound]
  | contains | present =>
    simp [comparesHeight, fixesHeight, limitsHeight, Operator.isBound, Operator.comparison?]

theorem comparesHeight_of_fixesHeight (h : c.fixesHeight = true) : c.comparesHeight = true := by
  rw [comparesHeight_eq, h, Bool.true_or]

theorem comparesHeight_of_limitsHeight (h : c.limitsHeight = true) : c.comparesHeight = true := by
  rw [comparesHeight_eq, h, Bool.or_true]

theorem not_compares (h : c.comparesHeight = false) :
    c.fixesHeight = false ∧ c.limitsHeight = false := by
  rwa [comparesHeight_eq, Bool.or_eq_false_iff] at h

theorem fixesHeight_eq_false (h : c.limitsHeight = true) : c.fixesHeight = false := by
  obtain ⟨tag, op, arg⟩ := c
  simp only [limitsHeight, Bool.and_eq_true] at h
  cases op with
  | compare o => cases o <;> simp [Operator.isBound, Operator.comparison?, Comparison.isBound,
      fixesHeight] at h ⊢
  | contains | present => simp [fixesHeight]

/-- The limits are set by the limiting conditions. -/
theorem isSome_heightLimit? (c : Condition) : c.heightLimit?.isSome = c.limitsHeight := by
  obtain ⟨tag, op, arg⟩ := c
  by_cases htag : tag = txHeightKey
  · cases op with
    | compare o =>
      cases o <;>
        simp [heightLimit?, limitsHeight, htag, Operator.limit?, Operator.isBound,
          Operator.comparison?, Comparison.isBound]
    | contains | present =>
      simp [heightLimit?, limitsHeight, htag, Operator.limit?, Operator.isBound,
        Operator.comparison?]
  · simp [heightLimit?, limitsHeight, htag]

/-- A condition whose argument writes a height, as a number or as a text, compares with it. -/
theorem height_of_raw {o : Comparison} {tag : String} {arg : Argument} {h : Int64}
    (harg : arg.raw = (Literal.ofInt64 h).text) : (compare o tag arg).height = .ok h := by
  cases arg with
  | number n =>
    obtain rfl : n = .ofInt64 h := congrArg Literal.mk harg
    exact Literal.toInt64_ofInt64 h
  | text s =>
    obtain rfl : s = (Literal.ofInt64 h).text := harg
    simp only [height, compare, Literal.parse?_ofInt64]
    exact Literal.toInt64_ofInt64 h

/-- The failure of the first condition of a kind that has no height. -/
def firstFault? (kind : Condition → Bool) (cs : List Condition) : Option Failure :=
  (cs.filter kind).findSome? heightFault?

theorem firstFault?_eq_none {kind : Condition → Bool} : firstFault? kind cs = none ↔
    ∀ c ∈ cs, kind c = true → ∃ value, c.height = .ok value := by
  simp [firstFault?, heightFault?_eq_none]

theorem firstFault?_cons_pos {kind : Condition → Bool} (h : kind c = true) :
    firstFault? kind (c :: cs) = c.heightFault?.or (firstFault? kind cs) := by
  unfold firstFault?
  rw [List.filter_cons_of_pos h, List.findSome?_cons]
  cases c.heightFault? <;> rfl

theorem firstFault?_cons_neg {kind : Condition → Bool} (h : kind c = false) :
    firstFault? kind (c :: cs) = firstFault? kind cs := by
  unfold firstFault?
  rw [List.filter_cons_of_neg (by simp [h])]

/-- The height that the last fixing condition fixes. -/
def fixed? (cs : List Condition) : Option Int64 :=
  (cs.filter fixesHeight).getLast?.bind height?

/-- The limit that the condition sets to the height. -/
def limit? (c : Condition) : Option HeightLimit :=
  c.heightLimit?.bind fun limit => c.height?.map limit

theorem limitsHeight_of_limit? {l : HeightLimit} (h : c.limit? = some l) :
    c.limitsHeight = true := by
  obtain ⟨limit, hlimit, -⟩ := Option.bind_eq_some_iff.1 h
  rw [← isSome_heightLimit?, hlimit]
  rfl

theorem limit?_eq_none (h : c.limitsHeight = false) : c.limit? = none := by
  cases hl : c.limit? with
  | none => rfl
  | some l => exact nomatch h.symm.trans (limitsHeight_of_limit? hl)

/-- A limiting condition that has a height sets a limit. -/
theorem exists_limit? {value : Int64} (h : c.limitsHeight = true) (hvalue : c.height = .ok value) :
    ∃ l, c.limit? = some l := by
  obtain ⟨limit, hlimit⟩ := Option.isSome_iff_exists.1 ((isSome_heightLimit? c).trans h)
  exact ⟨limit value, by simp [limit?, hlimit, height?_eq_some.2 hvalue]⟩

/-- **The fixing conditions are taken out**, up to the first that has no height. The last of them
counts. -/
theorem splitFixed_eq (cs : List Condition) : splitFixed cs =
    match firstFault? fixesHeight cs with
    | some failure => .error failure
    | none => .ok (cs.filter fun c => !c.fixesHeight, fixed? cs) := by
  induction cs with
  | nil => rfl
  | cons c cs ih =>
    by_cases hc : c.fixesHeight = true
    · rw [splitFixed, if_pos hc, firstFault?_cons_pos hc, ih]
      cases hheight : c.height with
      | error failure => simp [heightFault?, hheight, bind, Except.bind]
      | ok value =>
        simp only [heightFault?, hheight, Option.none_or]
        cases hfault : firstFault? fixesHeight cs with
        | some failure => rfl
        | none =>
          have hlast : (fixed? cs).or (some value) = fixed? (c :: cs) := by
            have hall : ∀ c' ∈ cs.filter fixesHeight, ∃ v, c'.height = .ok v := by
              intro c' hc'
              obtain ⟨hmem, hfixes⟩ := List.mem_filter.1 hc'
              exact firstFault?_eq_none.1 hfault c' hmem hfixes
            rw [fixed?, fixed?, List.filter_cons_of_pos hc, List.getLast?_cons]
            -- If another condition follows, its height is there and counts.
            cases hcs : (cs.filter fixesHeight).getLast? with
            | none => simp [height?_eq_some.2 hheight]
            | some c' =>
              obtain ⟨v, hv⟩ := hall c' (List.mem_of_getLast? hcs)
              simp [height?_eq_some.2 hv]
          have hrest : (c :: cs).filter (fun c => !c.fixesHeight) =
              cs.filter fun c => !c.fixesHeight := List.filter_cons_of_neg (by simp [hc])
          rw [hrest, ← hlast]
          rfl
    · have hc := Bool.eq_false_iff.2 hc
      have hrest : (c :: cs).filter (fun c => !c.fixesHeight) =
          c :: cs.filter fun c => !c.fixesHeight := List.filter_cons_of_pos (by simp [hc])
      have hfixed : fixed? (c :: cs) = fixed? cs := by
        rw [fixed?, fixed?, List.filter_cons_of_neg (by simp [hc])]
      rw [splitFixed, if_neg (by simp [hc]), firstFault?_cons_neg hc, ih, hrest, hfixed]
      cases firstFault? fixesHeight cs <;> rfl

/-- **The limiting conditions are taken out**, up to the first that has no height. The others stay
in their order, and so do the limits. -/
theorem splitLimits_eq (cs : List Condition) : splitLimits cs =
    match firstFault? limitsHeight cs with
    | some failure => .error failure
    | none => .ok (cs.filter fun c => !c.limitsHeight, cs.filterMap limit?) := by
  induction cs with
  | nil => rfl
  | cons c cs ih =>
    have hkind := isSome_heightLimit? c
    rw [splitLimits, ih]
    cases hlimit : c.heightLimit? with
    | some limit =>
      rw [hlimit] at hkind
      have hc : c.limitsHeight = true := hkind.symm
      rw [firstFault?_cons_pos hc]
      cases hheight : c.height with
      | error failure => simp [heightFault?, hheight, bind, Except.bind]
      | ok value =>
        have hset : c.limit? = some (limit value) := by
          simp [limit?, hlimit, height?_eq_some.2 hheight]
        simp only [heightFault?, hheight, Option.none_or]
        rw [List.filter_cons_of_neg (by simp [hc]), List.filterMap_cons_some hset]
        cases firstFault? limitsHeight cs <;> rfl
    | none =>
      rw [hlimit] at hkind
      have hc : c.limitsHeight = false := hkind.symm
      have hset : c.limit? = none := by simp [limit?, hlimit]
      rw [firstFault?_cons_neg hc, List.filter_cons_of_pos (by simp [hc]),
        List.filterMap_cons_none hset]
      cases firstFault? limitsHeight cs <;> rfl

end Condition

/-! ## Ranges -/

/-- The height keeps to the limit. -/
def HeightLimit.Admits (height : Int64) : HeightLimit → Prop
  | .lower b => b.value < height ∨ b.inclusive = true ∧ b.value = height
  | .upper b => height < b.value ∨ b.inclusive = true ∧ height = b.value

namespace HeightLimit

variable {cur b : Bound} {height : Int64}

/-- What keeps to the tighter of two lower limits keeps to the other. -/
theorem admits_lower_of_tighter
    (htighter : cur.value < b.value ∨ b.value = cur.value ∧ b.inclusive = false)
    (h : (lower b).Admits height) : (lower cur).Admits height := by
  simp only [Admits, Int64.lt_iff_toInt_lt, ← Int64.toInt_inj] at htighter h ⊢
  rcases htighter with hlt | ⟨heq, hexcl⟩
  · omega
  · simp only [hexcl, Bool.false_eq_true, false_and, or_false] at h
    omega

theorem admits_lower_of_not_tighter
    (hlooser : ¬ (cur.value < b.value ∨ b.value = cur.value ∧ b.inclusive = false))
    (h : (lower cur).Admits height) : (lower b).Admits height := by
  simp only [Admits, Int64.lt_iff_toInt_lt, ← Int64.toInt_inj, not_or, not_and,
    Bool.not_eq_false] at hlooser h ⊢
  rcases Int.lt_or_eq_of_le (Int.not_lt.1 hlooser.1) with hlt | heq
  · omega
  · simp only [hlooser.2 heq, true_and]
    omega

/-- What keeps to the tighter of two upper limits keeps to the other. -/
theorem admits_upper_of_tighter
    (htighter : b.value < cur.value ∨ b.value = cur.value ∧ b.inclusive = false)
    (h : (upper b).Admits height) : (upper cur).Admits height := by
  simp only [Admits, Int64.lt_iff_toInt_lt, ← Int64.toInt_inj] at htighter h ⊢
  rcases htighter with hlt | ⟨heq, hexcl⟩
  · omega
  · simp only [hexcl, Bool.false_eq_true, false_and, or_false] at h
    omega

theorem admits_upper_of_not_tighter
    (hlooser : ¬ (b.value < cur.value ∨ b.value = cur.value ∧ b.inclusive = false))
    (h : (upper cur).Admits height) : (upper b).Admits height := by
  simp only [Admits, Int64.lt_iff_toInt_lt, ← Int64.toInt_inj, not_or, not_and,
    Bool.not_eq_false] at hlooser h ⊢
  rcases Int.lt_or_eq_of_le (Int.not_lt.1 hlooser.1) with hlt | heq
  · omega
  · simp only [hlooser.2 heq.symm, true_and]
    omega

end HeightLimit

namespace HeightRange

/-- The height keeps to both limits of the range. -/
def Admits (r : HeightRange) (height : Int64) : Prop :=
  (∀ b ∈ r.lower, (HeightLimit.lower b).Admits height) ∧
    ∀ b ∈ r.upper, (HeightLimit.upper b).Admits height

variable {r : HeightRange} {height : Int64}

/-- Of two lower limits the tighter one is left, and it stands for both. -/
theorem admits_tightenLower {b : Bound} : (r.tightenLower b).Admits height ↔
    r.Admits height ∧ (HeightLimit.lower b).Admits height := by
  obtain ⟨lower, upper⟩ := r
  cases lower with
  | none => simp [tightenLower, Admits, and_comm]
  | some cur =>
    simp only [tightenLower]
    split
    · rename_i htighter
      simp only [Admits, Option.mem_def, Option.some.injEq, forall_eq']
      exact ⟨fun h => ⟨⟨HeightLimit.admits_lower_of_tighter htighter h.1, h.2⟩, h.1⟩,
        fun h => ⟨h.2, h.1.2⟩⟩
    · rename_i hlooser
      simp only [Admits, Option.mem_def, Option.some.injEq, forall_eq']
      exact ⟨fun h => ⟨h, HeightLimit.admits_lower_of_not_tighter hlooser h.1⟩, And.left⟩

/-- Likewise for upper limits. -/
theorem admits_tightenUpper {b : Bound} : (r.tightenUpper b).Admits height ↔
    r.Admits height ∧ (HeightLimit.upper b).Admits height := by
  obtain ⟨lower, upper⟩ := r
  cases upper with
  | none => simp [tightenUpper, Admits]
  | some cur =>
    simp only [tightenUpper]
    split
    · rename_i htighter
      simp only [Admits, Option.mem_def, Option.some.injEq, forall_eq']
      exact ⟨fun h => ⟨⟨h.1, HeightLimit.admits_upper_of_tighter htighter h.2⟩, h.2⟩,
        fun h => ⟨h.1.1, h.2⟩⟩
    · rename_i hlooser
      simp only [Admits, Option.mem_def, Option.some.injEq, forall_eq']
      exact ⟨fun h => ⟨h, HeightLimit.admits_upper_of_not_tighter hlooser h.2⟩, And.left⟩

theorem admits_tighten {l : HeightLimit} :
    (r.tighten l).Admits height ↔ r.Admits height ∧ l.Admits height := by
  cases l with
  | lower b => exact admits_tightenLower
  | upper b => exact admits_tightenUpper

theorem admits_all : HeightRange.all.Admits height := by simp [all, Admits]

/-- **Folded into a range, limits admit the heights that each of them admits.** One limit changes
the side that it limits, and that only to the tighter of two, which admits what both admit. -/
theorem admits_foldl_tighten {limits : List HeightLimit} :
    (limits.foldl tighten r).Admits height ↔ r.Admits height ∧ ∀ l ∈ limits, l.Admits height := by
  induction limits generalizing r with
  | nil => simp
  | cons l limits ih => rw [List.foldl_cons, ih, admits_tighten, List.forall_mem_cons, and_assoc]

/-- A limit never leaves a range unbounded. -/
theorem isUnbounded_tighten (l : HeightLimit) : (r.tighten l).isUnbounded = false := by
  obtain ⟨lower, upper⟩ := r
  cases l with
  | lower b =>
    cases lower with
    | none => rfl
    | some cur =>
      simp only [tighten, tightenLower]
      split <;> rfl
  | upper b =>
    cases upper with
    | none => simp [tighten, tightenUpper, isUnbounded]
    | some cur =>
      simp only [tighten, tightenUpper]
      split <;> simp [isUnbounded]

theorem isUnbounded_foldl_tighten (limits : List HeightLimit) :
    (limits.foldl tighten .all).isUnbounded = limits.isEmpty := by
  rcases limits.eq_nil_or_concat with rfl | ⟨init, l, rfl⟩
  · rfl
  · rw [List.concat_eq_append, List.foldl_append, List.foldl_cons, List.foldl_nil,
      isUnbounded_tighten]
    simp

end HeightRange

/-- A limit admits the heights that meet its condition. -/
theorem Condition.admits_limit? {c : Condition} {l : HeightLimit} (h : c.limit? = some l)
    (height : Int64) : l.Admits height ↔ c.IsMetBy height := by
  obtain ⟨limit, hlimit, value, hvalue, rfl⟩ : ∃ limit, c.heightLimit? = some limit ∧
      ∃ value, c.height = .ok value ∧ limit value = l := by
    obtain ⟨limit, hlimit, hl⟩ := Option.bind_eq_some_iff.1 h
    obtain ⟨value, hvalue, hl⟩ := Option.map_eq_some_iff.1 hl
    exact ⟨limit, hlimit, value, height?_eq_some.1 hvalue, hl⟩
  have hop : c.op.limit? = some limit := by
    unfold heightLimit? at hlimit
    split at hlimit
    · exact hlimit
    · cases hlimit
  cases hc : c.op with
  | compare o =>
    rw [hc] at hop
    cases o <;> simp only [Operator.limit?, Option.some.injEq, reduceCtorEq] at hop <;>
      subst hop <;> simp [HeightLimit.Admits, IsMetBy, hc, hvalue, Comparison.Relates, eq_comm]
  | contains | present =>
    rw [hc] at hop
    cases hop

end TxIndex
