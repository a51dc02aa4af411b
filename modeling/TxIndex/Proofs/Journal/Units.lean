import TxIndex.Proofs.Journal.Tables

/-! # Units of work on a journal

What each of the three units does to the database of a journal: it records its entry, or an entry
for the block and then its own. A result is refused exactly if its block is not recorded; the other
two never fail.

The three statements are all that later modules use of the units: actions of a store are a unit or a
repetition of one. -/
namespace TxIndex
namespace Journal

variable {j : Journal} {c : String} {h : Int64} {i : UInt32} {blockId : Nat}

/-- A place is taken if a row of an entry passes the test for it. -/
theorem any_filterMap_iff_holds {ρ : Type} {row? : Entry → Option ρ} {test : ρ → Bool} {p : Place}
    (htest : ∀ e row, row? e = some row → (test row = true ↔ e.place = p))
    (hsome : ∀ e : Entry, e.place = p → ∃ row, row? e = some row) :
    (j.filterMap row?).any test = true ↔ j.Holds p := by
  rw [List.any_eq_true]
  constructor
  · rintro ⟨row, hrow, hpass⟩
    obtain ⟨e, he, hrow⟩ := List.mem_filterMap.1 hrow
    exact ⟨e, he, (htest e row hrow).1 hpass⟩
  · rintro ⟨e, he, hp⟩
    obtain ⟨row, hrow⟩ := hsome e hp
    exact ⟨row, List.mem_filterMap.2 ⟨e, he, hrow⟩, (htest e row hrow).2 hp⟩

/-- A look-up of a result by numbers is one by place. -/
theorem Valid.any_isResult (hv : j.Valid) (hid : j.database.blockId? h c = some blockId) :
    j.database.results.rows.any (Database.isResult blockId i) = true ↔
      j.Holds (.result c h i) := by
  rw [hv.results_database]
  apply any_filterMap_iff_holds
  · intro e row hrow
    cases e with
    | result c' r =>
      obtain ⟨id, hid', rfl⟩ := Option.map_eq_some_iff.1 hrow
      simp [Database.isResult, Database.blockId?_eq_iff hid' hid, and_assoc]
    | block | request => cases hrow
  · intro e hp
    cases e with
    | result c' r =>
      obtain ⟨rfl, rfl, rfl⟩ := Place.result.inj hp
      exact ⟨_, congrArg (Option.map _) hid⟩
    | block | request => cases hp

/-- A look-up of a request by numbers is one by place. -/
theorem Valid.any_isRequest (hv : j.Valid) (hid : j.database.blockId? h c = some blockId) :
    j.database.requests.rows.any (Database.isRequest blockId i) = true ↔
      j.Holds (.request c h i) := by
  rw [hv.requests_database]
  apply any_filterMap_iff_holds
  · intro e row hrow
    cases e with
    | request c' h' q =>
      obtain ⟨id, hid', rfl⟩ := Option.map_eq_some_iff.1 hrow
      simp [Database.isRequest, Database.blockId?_eq_iff hid' hid, and_assoc]
    | block | result => cases hrow
  · intro e hp
    cases e with
    | request c' h' q =>
      obtain ⟨rfl, rfl, rfl⟩ := Place.request.inj hp
      exact ⟨_, congrArg (Option.map _) hid⟩
    | block | result => cases hp

/-- Recording a block records its entry. -/
theorem recordBlock_database (j : Journal) (c : String) (b : BlockEvents) :
    j.database.recordBlock c b = (j.record (.block c b)).database := by
  unfold Database.recordBlock
  by_cases hb : j.Holds (.block c b.height)
  · obtain ⟨id, hid⟩ := exists_blockId? hb
    rw [record_of_holds hb, hid]
  · rw [record_of_accepts ⟨hb, .inl rfl⟩, blockId?_eq_none hb, database_snoc]
    rfl

theorem requireBlock_database (hb : j.Holds (.block c h)) :
    ∃ id, j.database.blockId? h c = some id ∧ j.database.requireBlock h c = .ok id := by
  obtain ⟨id, hid⟩ := exists_blockId? hb
  refine ⟨id, hid, ?_⟩
  rw [Database.requireBlock, hid]

theorem requireBlock_eq_error (hb : ¬ j.Holds (.block c h)) :
    j.database.requireBlock h c = .error (.blockNotFound h c) := by
  rw [Database.requireBlock, blockId?_eq_none hb]

/-- Recording a result records its entry if the block is there. -/
theorem Valid.recordResult_database (hv : j.Valid) {r : TxResult}
    (hb : j.Holds (.block c r.height)) :
    j.database.recordResult c r (txHash r.tx) (Wire.txResult.encode r) =
      .ok (j.record (.result c r)).database := by
  obtain ⟨id, hid, hreq⟩ := requireBlock_database hb
  rw [Database.recordResult, hreq]
  by_cases hr : j.Holds (.result c r.height r.index)
  · simp [(hv.any_isResult hid).2 hr, record_of_holds (e := .result c r) hr, bind, Except.bind]
    rfl
  · have hany : j.database.results.rows.any (Database.isResult id r.index) = false := by
      rw [Bool.eq_false_iff, Ne, hv.any_isResult hid]
      exact hr
    rw [record_of_accepts ⟨hr, .inr hb⟩, database_snoc]
    simp [hany, Database.add, hid, bind, Except.bind]
    rfl

/-- Without its block a result is refused. -/
theorem recordResult_eq_error {r : TxResult} (hb : ¬ j.Holds (.block c r.height)) (hash : String)
    (blob : List UInt8) : j.database.recordResult c r hash blob =
      .error (.blockNotFound r.height c) := by
  rw [Database.recordResult, requireBlock_eq_error hb]
  rfl

/-- Recording a request records an entry for its block and then its own, and tells whether its
place was free. -/
theorem Valid.recordRequest_database (hv : j.Valid) (b : BlockEvents) (q : TxRequest) :
    j.database.recordRequest c b q =
      .ok (decide (¬ j.Holds (.request c b.height q.index)),
        ((j.record (.block c b)).record (.request c b.height q)).database) := by
  have hb := holds_record_block (j := j) c b
  obtain ⟨id, hid, hreq⟩ := requireBlock_database hb
  -- The entry for the block takes no place of a request.
  have hplace : (j.record (.block c b)).Holds (.request c b.height q.index) ↔
      j.Holds (.request c b.height q.index) := by
    rw [holds_record_iff (.inl rfl)]
    simp
  rw [Database.recordRequest, recordBlock_database]
  simp only [hreq, bind, Except.bind]
  by_cases hr : j.Holds (.request c b.height q.index)
  · have hr' := hplace.2 hr
    simp [(hv.record.any_isRequest hid).2 hr',
      record_of_holds (e := .request c b.height q) hr', hr]
    rfl
  · have hr' : ¬ (j.record (.block c b)).Holds (.request c b.height q.index) :=
      fun hr' => hr (hplace.1 hr')
    have hany : (j.record (.block c b)).database.requests.rows.any
        (Database.isRequest id q.index) = false := by
      rw [Bool.eq_false_iff, Ne, hv.record.any_isRequest hid]
      exact hr'
    rw [record_of_accepts (e := .request c b.height q) ⟨hr', .inr hb⟩, database_snoc]
    simp [hany, Database.add, hid, hr]
    rfl

end Journal
end TxIndex
