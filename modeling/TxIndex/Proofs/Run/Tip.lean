import TxIndex.Proofs.Journal.Search
import TxIndex.Proofs.Run.History
import TxIndex.Proofs.Search.Compilation

/-! # The tip hides nothing

A query that does not compare the height is searched up to the tip, the greatest height that the
chain has recorded a block of. A result is recorded only once its block is, in whatever order the
heights come and whichever call brings the block, so on a database of one chain no result lies above
the tip (`Journal.Valid.exists_tip`). The search then finds what it would find if it asked for no
more than the lowest height there is (`History.tip_hides_nothing`). -/
namespace TxIndex

/-- The transactions of a query, the newest first. -/
def Store.find (s : Store) (q : Query) (limit ceiling : UInt16) (st : Storage) :
    Except Failure (List StoredTx) := do
  let plan ← Plan.compileWithin q limit ceiling
  s.search plan st

/-- The window of all heights from the lowest on. -/
def HeightWindow.fromLowest : HeightWindow := .range ⟨some ⟨Int64.minValue, true⟩, none⟩

theorem HeightWindow.bounds?_fromLowest (tip : Option Int64) :
    fromLowest.bounds? tip = some [(.ge, Int64.minValue)] := rfl

theorem Database.admitsHeight_lowest (height : Int64) :
    admitsHeight [(.ge, Int64.minValue)] height = true := by
  rw [admitsHeight_singleton]
  rcases Int64.lt_or_eq_of_le (Int64.minValue_le height) with h | h
  · exact .inl h
  · exact .inr h.symm

namespace Journal

variable {j : Journal} {c : String}

/-- A chain with a result has a tip, and the result lies no higher. -/
theorem Valid.exists_tip (hv : j.Valid) {r : TxResult} (hr : .result c r ∈ j) :
    ∃ tip, (j.heights c).max? = some tip ∧ r.height ≤ tip := by
  obtain ⟨e, he, hplace⟩ := hv.holds_home hr
  have hmem : r.height ∈ j.heights c := by
    cases e with
    | block c' b =>
      obtain ⟨rfl, hheight⟩ : c' = c ∧ b.height = r.height := by
        simpa [Entry.place, Place.home] using hplace
      exact List.mem_filterMap.2 ⟨_, he, by simp [hheight]⟩
    | result | request => simp [Place.home] at hplace
  obtain ⟨tip, htip⟩ := Option.isSome_iff_exists.1 (List.isSome_max?_of_mem hmem)
  exact ⟨tip, htip, (List.max?_eq_some_iff.1 htip).2 _ hmem⟩

/-- On a journal of one chain a search up to the tip is one over all heights. -/
theorem Valid.search_belowTip (hv : j.Valid) (hj : ∀ e ∈ j, e.chainId = c)
    (filters : List Condition) (limit : UInt16) :
    j.search c ⟨.belowTip, filters, limit⟩ = j.search c ⟨.fromLowest, filters, limit⟩ := by
  have htip : ∀ p ∈ j.postings, ∃ tip, (j.heights c).max? = some tip ∧ p.height ≤ tip := by
    intro p hp
    have hr := (mem_postings.1 hp).1
    have hc : p.chainId = c := hj _ hr
    exact hv.exists_tip (hc ▸ hr)
  rw [search, search, HeightWindow.bounds?_fromLowest]
  cases hmax : (j.heights c).max? with
  | none =>
    -- Without a block there is no posting either.
    have hnil : j.postings = [] := List.eq_nil_iff_forall_not_mem.2 fun p hp => by
      obtain ⟨tip, htip, -⟩ := htip p hp
      exact Option.some_ne_none tip (htip.symm.trans hmax)
    simp [HeightWindow.bounds?, ranking, hnil]
  | some tip =>
    have hranking : j.ranking [(.le, tip)] filters = j.ranking [(.ge, Int64.minValue)] filters := by
      rw [ranking, ranking]
      congr 1
      apply List.filter_congr
      intro p hp
      obtain ⟨tip', htip', hle⟩ := htip p hp
      obtain rfl := Option.some.inj (hmax.symm.trans htip')
      have hadmits : Database.admitsHeight [(.le, tip)] p.height = true :=
        Database.admitsHeight_singleton.2 (Comparison.relates_le_iff.2 hle)
      rw [hadmits, Database.admitsHeight_lowest]
    simp only [HeightWindow.bounds?, Option.map_some, hranking]

/-- Every row of the results was made of a result in the journal. -/
theorem Valid.exists_of_mem_results (hv : j.Valid) {row : ResultRow}
    (hrow : row ∈ j.database.results.rows) :
    ∃ c r, .result c r ∈ j ∧ row.height = r.height := by
  rw [hv.results_database, List.mem_filterMap] at hrow
  obtain ⟨e, he, hrow⟩ := hrow
  cases e with
  | result c r =>
    obtain ⟨blockId, -, rfl⟩ := Option.map_eq_some_iff.1 hrow
    exact ⟨c, r, he, rfl⟩
  | block | request => cases hrow

end Journal

namespace History

variable {steps : List Step} {s : Store}

/-- If one chain uses a database, whatever is recorded there is of this chain. -/
theorem keeps_ofOneChain {c : String}
    (hsteps : ∀ op, .operation op ∈ steps → op.store.chainId = c) :
    ∀ op, .operation op ∈ steps → ∀ e, op.call.MayRecord e → ∀ j : Journal,
      (∀ e ∈ j, e.chainId = c) → ∀ e' ∈ j.record e, e'.chainId = c := by
  intro op hop e he j hj e' he'
  rcases Journal.mem_record he' with he' | ⟨rfl, -⟩
  · exact hj e' he'
  · exact he.chainId_eq.trans (hsteps op hop)

/-- A database that one chain uses is that of a journal of this chain. -/
theorem run_ofOneChain {c : String}
    (hsteps : ∀ op, .operation op ∈ steps → op.store.chainId = c) :
    ∃ j closed, run steps .empty = ⟨Journal.database j, closed⟩ ∧ j.Valid ∧
      ∀ e ∈ j, e.chainId = c := by
  have hnil : ∀ e ∈ ([] : Journal), e.chainId = c := fun e he => absurd he List.not_mem_nil
  obtain ⟨j, closed, hrun, hv, hj, -⟩ :=
    @run_journal steps [] [] (fun j => ∀ e ∈ j, e.chainId = c) (keeps_ofOneChain hsteps) .nil hnil
  exact ⟨j, closed, hrun, hv, hj⟩

/-- **The tip hides nothing.** After any history of a database that one chain uses, a query that
does not compare the height is answered like the query that also asks, at any position, for at least
the lowest height there is. No result lies above the tip. As long as no block is recorded, such a query
finds nothing, and does not fail unless it fails to compile. -/
theorem tip_hides_nothing (hsteps : ∀ op, .operation op ∈ steps → op.store.chainId = s.chainId) :
    let st := run steps .empty
    (∀ before after, (∀ c ∈ before ++ after, c.comparesHeight = false) →
      ∀ lowest : Argument, lowest.raw = (Literal.ofInt64 Int64.minValue).text →
      ∀ limit ceiling, s.find ⟨before ++ after⟩ limit ceiling st =
        s.find ⟨before ++ .compare .ge txHeightKey lowest :: after⟩ limit ceiling st) ∧
      (∀ row ∈ st.database.results.rows,
        ∃ tip, st.database.tip? s.chainId = some tip ∧ row.height ≤ tip) ∧
      (st.database.blocks.rows = [] → s.isOpen st = true →
        ∀ q : Query, (∀ c ∈ q.conditions, c.comparesHeight = false) → ∀ limit ceiling p,
          Plan.compileWithin q limit ceiling = .ok p → s.search p st = .ok []) := by
  intro st
  obtain ⟨j, closed, hrun, hv, hj⟩ := run_ofOneChain hsteps
  change st = _ at hrun
  rw [hrun]
  refine ⟨?_, ?_, ?_⟩
  · intro before after hnone lowest hlowest limit ceiling
    have hlimit : (Condition.compare .ge txHeightKey lowest).limit? =
        some (.lower ⟨Int64.minValue, true⟩) := by
      rw [Condition.limit?, Condition.height?_eq_some.2 (Condition.height_of_raw hlowest)]
      rfl
    rcases Plan.compileWithin_tip_or_limit hnone hlimit limit ceiling with
      ⟨failure, htip, hall⟩ | ⟨filters, htip, hall⟩
    · rw [Store.find, Store.find, htip, hall]
    · have hsearch : j.database.search s.chainId ⟨.belowTip, filters, min limit ceiling⟩ =
          j.database.search s.chainId ⟨.fromLowest, filters, min limit ceiling⟩ := by
        rw [hv.search_database, hv.search_database, hv.search_belowTip hj]
      rw [Store.find, Store.find, htip, hall]
      change s.search ⟨.belowTip, filters, _⟩ _ = s.search ⟨.fromLowest, filters, _⟩ _
      rw [Store.search, Store.search, hsearch]
  · intro row hrow
    obtain ⟨c, r, hr, hheight⟩ := hv.exists_of_mem_results hrow
    obtain rfl : c = s.chainId := hj _ hr
    rw [Journal.tip?_database, hheight]
    exact hv.exists_tip hr
  · intro hempty hopen q hnone limit ceiling p hp
    have htip : j.database.tip? s.chainId = none := by
      rw [Database.tip?, Database.heights, hempty]
      rfl
    have hwindow : p.window = .belowTip := (Plan.compiles_of_compileWithin hp).belowTip hnone
    rw [Store.search, if_pos hopen, Database.search, hwindow, htip]
    rfl

/-- A history whose heights go down. The higher block comes with a request that itself says another
height, and a result above both is refused. -/
def descendingSteps (s : Store) : List Step :=
  let result (height : Int64) : TxResult := ⟨height, 0, [], ⟨0, [], "", "", 0, 0, [], ""⟩⟩
  [.operation ⟨s, .insertRequest ⟨5, ⟨0, 0⟩, [], 1⟩ ⟨8, 0, ⟨0, 0⟩, "", [], "", ""⟩⟩,
    .operation ⟨s, .indexTxs [result 5, result 9]⟩,
    .operation ⟨s, .insertRequest ⟨-3, ⟨0, 0⟩, [], 1⟩ ⟨-3, 0, ⟨0, 0⟩, "", [], "", ""⟩⟩,
    .operation ⟨s, .indexTxs [result (-3)]⟩]

/-- The general statement at that history and at the empty one. -/
theorem tip_hides_nothing_descending :
    let s : Store := ⟨0, "testing"⟩
    let lowest : Argument := .number (.ofInt64 Int64.minValue)
    (∀ op, .operation op ∈ descendingSteps s → op.store.chainId = s.chainId) ∧
      (run (descendingSteps s) .empty).database.results.rows.map (·.height) = [5, -3] ∧
      s.find ⟨[.present txHeightKey]⟩ 10 Plan.ceiling (run (descendingSteps s) .empty) =
        s.find ⟨[.present txHeightKey, .compare .ge txHeightKey lowest]⟩ 10 Plan.ceiling
          (run (descendingSteps s) .empty) ∧
      (∀ row ∈ (run (descendingSteps s) .empty).database.results.rows,
        ∃ tip, (run (descendingSteps s) .empty).database.tip? s.chainId = some tip ∧
          row.height ≤ tip) ∧
      s.search ⟨.belowTip, [.present txHeightKey], 10⟩ (run [] .empty) = .ok [] := by
  intro s lowest
  have hsteps : ∀ op, .operation op ∈ descendingSteps s → op.store.chainId = s.chainId := by
    simp [descendingSteps]
  have hrows : (run (descendingSteps s) .empty).database.results.rows.map (·.height) = [5, -3] := by
    decide +kernel
  have hpresent : ∀ c ∈ [Condition.present txHeightKey], c.comparesHeight = false := by decide
  have hplan : Plan.compileWithin ⟨[.present txHeightKey]⟩ 10 Plan.ceiling =
      .ok ⟨.belowTip, [.present txHeightKey], 10⟩ := by decide +kernel
  obtain ⟨hsame, htip, -⟩ := tip_hides_nothing hsteps
  obtain ⟨-, -, hempty⟩ := @tip_hides_nothing [] s (by simp)
  have hfound := hsame [.present txHeightKey] [] hpresent lowest rfl 10 Plan.ceiling
  have hnothing := hempty rfl rfl ⟨[.present txHeightKey]⟩ hpresent 10 Plan.ceiling _ hplan
  exact ⟨hsteps, hrows, hfound, htip, hnothing⟩

end History
end TxIndex
