import TxIndex.Proofs.Query.Heights

/-! # What a query is compiled to

A query compiles if every comparison of the height has a height to compare with and every other
condition has the argument that its operator takes. The plan then filters by the other conditions,
in their order, and its window says of heights what the comparisons say (`Plan.Compiles`). A query
that does not compile fails for the first of its faults, in a fixed order of their kinds
(`Query.fault?`). Compiling is put in one equation (`Plan.compileWithin_eq`), from which both are
read off. -/
namespace TxIndex

namespace Query

/-- The conditions that are not about the height. -/
def filters (q : Query) : List Condition := q.conditions.filter fun c => !c.comparesHeight

/-- The failure for the first of the other conditions that lacks the argument of its operator. -/
def missingValue? (q : Query) : Option Failure :=
  (q.filters.find? fun c => c.op ≠ .present ∧ c.arg = none).map
    fun c => .query s!"missing value for {c.tag}"

/-- Why a query does not compile: for its first equality that has no height, else for its first
limit that has none, else for its first other condition that lacks its argument. -/
def fault? (q : Query) : Option Failure :=
  (Condition.firstFault? Condition.fixesHeight q.conditions).or
    ((Condition.firstFault? Condition.limitsHeight q.conditions).or q.missingValue?)

/-- Every comparison of the height has a height, and every other condition its argument. -/
def IsCompilable (q : Query) : Prop :=
  (∀ c ∈ q.conditions, c.comparesHeight = true → ∃ value, c.height = .ok value) ∧
    ∀ c ∈ q.conditions, c.comparesHeight = false → c.op ≠ .present → c.arg ≠ none

/-- The range that the limits of a query leave. -/
def heightRange (q : Query) : HeightRange :=
  (q.conditions.filterMap Condition.limit?).foldl HeightRange.tighten .all

variable {q : Query}

theorem missingValue?_eq_none : q.missingValue? = none ↔
    ∀ c ∈ q.conditions, c.comparesHeight = false → c.op ≠ .present → c.arg ≠ none := by
  simp [missingValue?, filters]

theorem fault?_eq_none : q.fault? = none ↔ q.IsCompilable := by
  rw [fault?, Option.or_eq_none_iff, Option.or_eq_none_iff, Condition.firstFault?_eq_none,
    Condition.firstFault?_eq_none, missingValue?_eq_none, ← and_assoc]
  refine and_congr_left' ⟨fun h c hc hcompares => ?_, fun h => ⟨fun c hc hfixes => ?_,
    fun c hc hlimits => ?_⟩⟩
  · rw [Condition.comparesHeight_eq, Bool.or_eq_true] at hcompares
    exact hcompares.elim (h.1 c hc) (h.2 c hc)
  · exact h c hc (Condition.comparesHeight_of_fixesHeight hfixes)
  · exact h c hc (Condition.comparesHeight_of_limitsHeight hlimits)

/-- A query whose comparisons of the height have one fails, if at all, for want of an argument. -/
theorem fault?_eq_missingValue?
    (h : ∀ c ∈ q.conditions, c.comparesHeight = true → ∃ value, c.height = .ok value) :
    q.fault? = q.missingValue? := by
  have hfixes : Condition.firstFault? Condition.fixesHeight q.conditions = none :=
    Condition.firstFault?_eq_none.2 fun c hc hkind =>
      h c hc (Condition.comparesHeight_of_fixesHeight hkind)
  have hlimits : Condition.firstFault? Condition.limitsHeight q.conditions = none :=
    Condition.firstFault?_eq_none.2 fun c hc hkind =>
      h c hc (Condition.comparesHeight_of_limitsHeight hkind)
  rw [fault?, hfixes, hlimits, Option.none_or, Option.none_or]

/-- The range of a query that compiles admits the heights that meet all its limits. -/
theorem IsCompilable.admits_heightRange (h : q.IsCompilable) (height : Int64) :
    q.heightRange.Admits height ↔
      ∀ c ∈ q.conditions, c.limitsHeight = true → c.IsMetBy height := by
  rw [heightRange, HeightRange.admits_foldl_tighten]
  constructor
  · rintro ⟨-, hall⟩ c hc hlimits
    obtain ⟨value, hvalue⟩ := h.1 c hc (Condition.comparesHeight_of_limitsHeight hlimits)
    obtain ⟨l, hl⟩ := Condition.exists_limit? hlimits hvalue
    exact (Condition.admits_limit? hl height).1 (hall l (List.mem_filterMap.2 ⟨c, hc, hl⟩))
  · refine fun hall => ⟨HeightRange.admits_all, fun l hl => ?_⟩
    obtain ⟨c, hc, hl⟩ := List.mem_filterMap.1 hl
    exact (Condition.admits_limit? hl height).2 (hall c hc (Condition.limitsHeight_of_limit? hl))

/-- The range of a query that compiles is unbounded exactly if no condition limits the height. -/
theorem IsCompilable.isUnbounded_heightRange (h : q.IsCompilable) :
    q.heightRange.isUnbounded = true ↔ ∀ c ∈ q.conditions, c.limitsHeight = false := by
  rw [heightRange, HeightRange.isUnbounded_foldl_tighten, List.isEmpty_iff,
    List.filterMap_eq_nil_iff]
  constructor
  · intro hnone c hc
    by_contra hlimits
    rw [Bool.not_eq_false] at hlimits
    obtain ⟨value, hvalue⟩ := h.1 c hc (Condition.comparesHeight_of_limitsHeight hlimits)
    obtain ⟨l, hl⟩ := Condition.exists_limit? hlimits hvalue
    exact nomatch (hnone c hc).symm.trans hl
  · exact fun hall c hc => Condition.limit?_eq_none (hall c hc)

end Query

namespace Plan

variable {q : Query} {limit ceiling : UInt16}

/-- Limiting conditions are left when fixing ones are taken out. -/
theorem splitRange_eq (cs : List Condition) :
    Condition.splitRange (cs.filter fun c => !c.fixesHeight) =
      match Condition.firstFault? Condition.limitsHeight cs with
      | some failure => .error failure
      | none => .ok (cs.filter fun c => !c.comparesHeight,
          (cs.filterMap Condition.limit?).foldl HeightRange.tighten .all) := by
  have hfault : Condition.firstFault? Condition.limitsHeight (cs.filter fun c => !c.fixesHeight) =
      Condition.firstFault? Condition.limitsHeight cs := by
    unfold Condition.firstFault?
    rw [List.filter_filter]
    congr 1
    apply List.filter_congr
    intro c _
    cases h : c.limitsHeight with
    | false => rfl
    | true => simp [Condition.fixesHeight_eq_false h]
  have hrest : (cs.filter fun c => !c.fixesHeight).filter (fun c => !c.limitsHeight) =
      cs.filter fun c => !c.comparesHeight := by
    rw [List.filter_filter]
    apply List.filter_congr
    intro c _
    rw [Condition.comparesHeight_eq, Bool.not_or, Bool.and_comm]
  have hlimits : (cs.filter fun c => !c.fixesHeight).filterMap Condition.limit? =
      cs.filterMap Condition.limit? := by
    rw [List.filterMap_filter]
    apply List.filterMap_congr
    intro c _
    cases hc : c.limit? with
    | none => simp
    | some l => simp [Condition.fixesHeight_eq_false (Condition.limitsHeight_of_limit? hc)]
  rw [Condition.splitRange, Condition.splitLimits_eq, hfault, hrest, hlimits]
  cases Condition.firstFault? Condition.limitsHeight cs <;> rfl

/-- **A query fails for its first fault**, or else is compiled from its parts. Faults are looked for
in three rounds over the conditions: equalities that have no height, limits that have none, and
other conditions that lack their argument. A later round is not begun if an earlier one finds one. -/
theorem compileWithin_eq (q : Query) (limit ceiling : UInt16) : compileWithin q limit ceiling =
    match q.fault? with
    | some failure => .error failure
    | none => .ok ⟨windowOf q.heightRange (Condition.fixed? q.conditions), q.filters,
        min limit ceiling⟩ := by
  rw [compileWithin, Condition.splitFixed_eq, Query.fault?]
  cases Condition.firstFault? Condition.fixesHeight q.conditions with
  | some failure => rfl
  | none =>
    simp only [bind, Except.bind, Option.none_or]
    rw [splitRange_eq]
    cases Condition.firstFault? Condition.limitsHeight q.conditions with
    | some failure => rfl
    | none =>
      have hlacks : lacksArgument = fun c => decide (c.op ≠ .present ∧ c.arg = none) := by
        funext c
        cases harg : c.arg <;> simp [lacksArgument, harg]
      simp only [Option.none_or, Query.missingValue?, hlacks]
      unfold Query.filters
      cases List.find? _ _ <;> rfl

theorem compileWithin_eq_ok {p : Plan} : compileWithin q limit ceiling = .ok p ↔
    q.IsCompilable ∧ p = ⟨windowOf q.heightRange (Condition.fixed? q.conditions), q.filters,
      min limit ceiling⟩ := by
  rw [compileWithin_eq, ← Query.fault?_eq_none]
  cases q.fault? with
  | some failure => simp
  | none => simp [eq_comm]

theorem exists_compileWithin :
    (∃ p, compileWithin q limit ceiling = .ok p) ↔ q.IsCompilable := by
  simp only [compileWithin_eq_ok, exists_and_left, exists_eq, and_true]

theorem windowOf_of_bounded {range : HeightRange} (h : ¬ range.isUnbounded = true)
    (fixed : Option Int64) : windowOf range fixed = .range range := if_neg h

theorem windowOf_of_unbounded {range : HeightRange} (h : range.isUnbounded = true)
    (fixed : Option Int64) : windowOf range fixed = fixed.elim .belowTip .exact := by
  rw [windowOf.eq_def, if_pos h]
  cases fixed <;> rfl

/-- If a query does not compare the height, a limit put anywhere into it takes the place of the tip.
Nothing else of the plan changes, nor does whether there is one. -/
theorem compileWithin_tip_or_limit {before after : List Condition} {c : Condition} {l : HeightLimit}
    (hnone : ∀ c' ∈ before ++ after, c'.comparesHeight = false) (hl : c.limit? = some l)
    (limit ceiling : UInt16) :
    (∃ failure, compileWithin ⟨before ++ after⟩ limit ceiling = .error failure ∧
        compileWithin ⟨before ++ c :: after⟩ limit ceiling = .error failure) ∨
      ∃ filters, compileWithin ⟨before ++ after⟩ limit ceiling =
          .ok ⟨.belowTip, filters, min limit ceiling⟩ ∧
        compileWithin ⟨before ++ c :: after⟩ limit ceiling =
          .ok ⟨.range (HeightRange.all.tighten l), filters, min limit ceiling⟩ := by
  have hlimits := Condition.limitsHeight_of_limit? hl
  have hnoLimit : ∀ c' ∈ before ++ after, c'.limit? = none := fun c' hc' =>
    Condition.limit?_eq_none (Condition.not_compares (hnone c' hc')).2
  have hnoFixed : ∀ c' ∈ before ++ after, ¬ c'.fixesHeight = true := fun c' hc' hfixes =>
    nomatch (Condition.not_compares (hnone c' hc')).1.symm.trans hfixes
  have hheights : ∀ c' ∈ before ++ c :: after, c'.comparesHeight = true →
      ∃ value, c'.height = .ok value := by
    intro c' hc' hcompares
    rw [List.perm_middle.mem_iff, List.mem_cons] at hc'
    rcases hc' with rfl | hc'
    · obtain ⟨limit, -, hvalue⟩ := Option.bind_eq_some_iff.1 hl
      obtain ⟨value, hvalue, -⟩ := Option.map_eq_some_iff.1 hvalue
      exact ⟨value, Condition.height?_eq_some.1 hvalue⟩
    · exact nomatch (hnone c' hc').symm.trans hcompares
  -- The added condition is taken out with its limit, and no other compares the height.
  have hfilters : Query.filters ⟨before ++ c :: after⟩ = Query.filters ⟨before ++ after⟩ := by
    simp [Query.filters, Condition.comparesHeight_of_limitsHeight hlimits]
  have hmissing : Query.missingValue? ⟨before ++ c :: after⟩ =
      Query.missingValue? ⟨before ++ after⟩ := by
    rw [Query.missingValue?, Query.missingValue?, hfilters]
  have hrange : Query.heightRange ⟨before ++ c :: after⟩ = HeightRange.all.tighten l := by
    have hbefore := List.filterMap_eq_nil_iff.2 fun c' hc' =>
      hnoLimit c' (List.mem_append_left after hc')
    have hafter := List.filterMap_eq_nil_iff.2 fun c' hc' =>
      hnoLimit c' (List.mem_append_right before hc')
    simp [Query.heightRange, hbefore, hafter, hl]
  have hall : Query.heightRange ⟨before ++ after⟩ = .all := by
    rw [Query.heightRange, List.filterMap_eq_nil_iff.2 hnoLimit]
    rfl
  have hfixed : Condition.fixed? (before ++ after) = none := by
    rw [Condition.fixed?, List.filter_eq_nil_iff.2 hnoFixed]
    rfl
  rw [compileWithin_eq, compileWithin_eq, hfilters, hrange, hall, hfixed,
    Query.fault?_eq_missingValue? hheights, hmissing, Query.fault?_eq_missingValue? fun c' hc' h =>
      nomatch (hnone c' hc').symm.trans h]
  cases Query.missingValue? ⟨before ++ after⟩ with
  | some failure => exact .inl ⟨failure, rfl, rfl⟩
  | none =>
    refine .inr ⟨_, rfl, ?_⟩
    rw [windowOf_of_bounded (by rw [HeightRange.isUnbounded_tighten]; exact Bool.false_ne_true)]

/-- What a query says is what its plan looks for. -/
structure Compiles (q : Query) (limit ceiling : UInt16) (p : Plan) : Prop where
  /-- The other conditions are the filters, in their order. -/
  filters : p.filters = q.conditions.filter fun c => !c.comparesHeight
  limit : p.limit = min limit ceiling
  /-- A range has a limit on one side at least. -/
  bounded : ∀ r, p.window = .range r → r.lower ≠ none ∨ r.upper ≠ none
  /-- If the query limits the height, the window is a range, and it admits the heights that meet all
  limits. -/
  limited : (∃ c ∈ q.conditions, c.limitsHeight = true) → (∃ r, p.window = .range r) ∧
    ∀ db chainId height, p.window.Admits db chainId height ↔
      ∀ c ∈ q.conditions, c.limitsHeight = true → c.IsMetBy height
  /-- Otherwise the last equality, if there is one, gives the one height. -/
  fixed : (∀ c ∈ q.conditions, c.limitsHeight = false) →
    ∀ c, (q.conditions.filter Condition.fixesHeight).getLast? = some c →
      ∃ value, c.height = .ok value ∧ p.window = .exact value
  /-- A query that says nothing of the height is searched up to the tip. -/
  belowTip : (∀ c ∈ q.conditions, c.comparesHeight = false) → p.window = .belowTip

/-- A query that compiles is compiled to what it says. -/
theorem compiles_of_isCompilable (h : q.IsCompilable) (limit ceiling : UInt16) :
    Compiles q limit ceiling ⟨windowOf q.heightRange (Condition.fixed? q.conditions), q.filters,
      min limit ceiling⟩ where
  filters := rfl
  limit := rfl
  bounded r hr := by
    by_cases hunbounded : q.heightRange.isUnbounded = true
    · rw [windowOf_of_unbounded hunbounded] at hr
      cases hfixed : Condition.fixed? q.conditions with
      | none => rw [hfixed] at hr; cases hr
      | some height => rw [hfixed] at hr; cases hr
    · rw [windowOf_of_bounded hunbounded] at hr
      obtain rfl := HeightWindow.range.inj hr
      cases hlower : q.heightRange.lower with
      | some b => exact .inl (Option.some_ne_none b)
      | none =>
        refine .inr fun hupper => hunbounded ?_
        simp [HeightRange.isUnbounded, hlower, hupper]
  limited hlimits := by
    have hbounded : ¬ q.heightRange.isUnbounded = true := by
      obtain ⟨c, hc, hlimits⟩ := hlimits
      intro hall
      rw [h.isUnbounded_heightRange.1 hall c hc] at hlimits
      exact Bool.false_ne_true hlimits
    rw [windowOf_of_bounded hbounded]
    exact ⟨⟨_, rfl⟩, fun _ _ height => h.admits_heightRange height⟩
  fixed hnone c hlast := by
    have hc := List.mem_filter.1 (List.mem_of_getLast? hlast)
    obtain ⟨value, hvalue⟩ := h.1 c hc.1 (Condition.comparesHeight_of_fixesHeight hc.2)
    have hfixed : Condition.fixed? q.conditions = some value := by
      rw [Condition.fixed?, hlast]
      exact Condition.height?_eq_some.2 hvalue
    refine ⟨value, hvalue, ?_⟩
    rw [windowOf_of_unbounded (h.isUnbounded_heightRange.2 hnone), hfixed]
    rfl
  belowTip hnone := by
    have hlimits : ∀ c ∈ q.conditions, c.limitsHeight = false := fun c hc =>
      (Condition.not_compares (hnone c hc)).2
    have hfixes : q.conditions.filter Condition.fixesHeight = [] :=
      List.filter_eq_nil_iff.2 fun c hc => by simp [(Condition.not_compares (hnone c hc)).1]
    rw [windowOf_of_unbounded (h.isUnbounded_heightRange.2 hlimits), Condition.fixed?, hfixes]
    rfl

theorem compiles_of_compileWithin {p : Plan} (hp : compileWithin q limit ceiling = .ok p) :
    Compiles q limit ceiling p := by
  obtain ⟨hcompilable, rfl⟩ := compileWithin_eq_ok.1 hp
  exact compiles_of_isCompilable hcompilable limit ceiling

/-- No filter of a compiled plan lacks the argument of its operator. -/
theorem lacksArgument_of_compile {p : Plan} (hp : compileWithin q limit ceiling = .ok p) :
    ∀ c ∈ p.filters, lacksArgument c = false := by
  obtain ⟨hcompilable, rfl⟩ := compileWithin_eq_ok.1 hp
  intro c hc
  obtain ⟨hc, hother⟩ := List.mem_filter.1 hc
  rw [Bool.not_eq_true'] at hother
  by_contra hlacks
  rw [Bool.not_eq_false, lacksArgument, Bool.and_eq_true, decide_eq_true_eq,
    Option.isNone_iff_eq_none] at hlacks
  exact hcompilable.2 c hc hother hlacks.1 hlacks.2

/-- **What it means to compile a query.** Which queries compile, what their plans look for, and for
which fault the others fail. -/
theorem compile_meaning (q : Query) (limit ceiling : UInt16) :
    ((∃ p, compileWithin q limit ceiling = .ok p) ↔ q.IsCompilable) ∧
      (∀ p, compileWithin q limit ceiling = .ok p → Compiles q limit ceiling p) ∧
      ∀ failure, compileWithin q limit ceiling = .error failure ↔ q.fault? = some failure := by
  refine ⟨?_, fun p hp => compiles_of_compileWithin hp, ?_⟩
  · rw [compileWithin_eq, ← Query.fault?_eq_none]
    cases q.fault? <;> simp
  · rw [compileWithin_eq]
    cases q.fault? <;> simp

/-- A query with two equalities, two lower limits of one value and one condition of another kind. -/
def manyHeights : Query :=
  ⟨[.compare .eq txHeightKey (.text "9"), .compare .ge txHeightKey (.number ⟨"2.0"⟩),
    .present txHeightKey, .compare .gt txHeightKey (.number ⟨"2"⟩),
    .compare .eq txHeightKey (.number ⟨"7"⟩)]⟩

/-- The general statement at that query: the equalities are ignored, and of the lower limits the one
that excludes its value counts. -/
theorem compile_meaning_manyHeights :
    compileWithin manyHeights 10 Plan.ceiling =
        .ok ⟨.range ⟨some ⟨2, false⟩, none⟩, [.present txHeightKey], min 10 Plan.ceiling⟩ ∧
      manyHeights.IsCompilable ∧
      Compiles manyHeights 10 Plan.ceiling
        ⟨.range ⟨some ⟨2, false⟩, none⟩, [.present txHeightKey], min 10 Plan.ceiling⟩ := by
  have hp : compileWithin manyHeights 10 Plan.ceiling =
      .ok ⟨.range ⟨some ⟨2, false⟩, none⟩, [.present txHeightKey], min 10 Plan.ceiling⟩ := by
    decide +kernel
  obtain ⟨hcompiles, hmeans, -⟩ := compile_meaning manyHeights 10 Plan.ceiling
  exact ⟨hp, hcompiles.1 ⟨_, hp⟩, hmeans _ hp⟩

end Plan
end TxIndex
