import TxIndex.Proofs.Journal.Renumbering
import TxIndex.Proofs.Run.History
import TxIndex.Proofs.Run.Isolation

/-! # Chains that write side by side

Stores of several chains write to one database, and none of them can tell. A history is compared
with the history of one chain alone, in which only the steps of its stores take place: the database
of the second holds the part of the chain, and of the stores of the chain the same are stopped
(`Storage.Contains`). A step of the chain keeps this and gets the same answer on both sides
(`Storage.Contains.act`), a step of another chain keeps it on the one side
(`Storage.Contains.act_of_ne`). So the calls of a chain get the answers that they would get alone,
and its rows are those that it would have alone, under other numbers (`History.writes_isolated`). -/
namespace TxIndex

namespace Action

variable {α β : Type} {s : Store}

theorem Projects.map {c : String} {act : Action Journal α} (h : act.Projects c) (f : α → β) :
    (act.map f).Projects c := fun j => by simp only [Action.map, h j]

/-- Where the store is stopped the action leaves everything as it is, and its answer is always the
same. -/
def Refuses (s : Store) (act : Action Storage α) : Prop :=
  ∃ answer, ∀ st : Storage, s.id ∈ st.closed → act st = (answer, st)

theorem refuses_const (s : Store) (answer : Except Failure α) :
    Action.Refuses s fun st => (answer, st) :=
  ⟨answer, fun _ _ => rfl⟩

theorem Refuses.map {act : Action Storage α} (h : act.Refuses s) (f : α → β) :
    (act.map f).Refuses s := by
  obtain ⟨answer, h⟩ := h
  exact ⟨answer.map f, fun st hs => by simp only [Action.map, h st hs]⟩

theorem refuses_each {act : α → Action Storage Unit} {as : List α}
    (h : ∀ a ∈ as, (act a).Refuses s) : (each act as).Refuses s := by
  induction as with
  | nil => exact refuses_const s (.ok ())
  | cons a as ih =>
    obtain ⟨answer, ha⟩ := h a List.mem_cons_self
    cases answer with
    | ok _ =>
      obtain ⟨rest, ih⟩ := ih fun b hb => h b (List.mem_cons_of_mem _ hb)
      exact ⟨rest, fun st hs => (each_cons_ok act (ha st hs)).trans (ih st hs)⟩
    | error failure => exact ⟨.error failure, fun st hs => each_cons_error act (ha st hs)⟩

end Action

namespace Store

variable {α : Type} (s : Store)

theorem transact_refuses (work : Database → Except Failure (α × Database)) :
    (s.transact work).Refuses s :=
  ⟨_, fun st hs => s.transact_of_stopped work st hs⟩

theorem indexTx_refuses (r : TxResult) : (s.indexTx r).Refuses s := by
  unfold indexTx
  cases Encoding.encodeResult r with
  | error failure => exact Action.refuses_const s _
  | ok blob => exact s.transact_refuses _

end Store

theorem TxIndexer.insertTx_refuses (t : TxIndexer) (req : FinalizeRequest) (res : FinalizeResponse)
    (tx : List UInt8 × Nat) : (t.insertTx req res tx).Refuses t.store := by
  cases h : t.request req tx.2 tx.1 with
  | error failure =>
    rw [t.insertTx_of_error req res h]
    exact Action.refuses_const _ _
  | ok q =>
    rw [t.insertTx_of_ok req res h]
    exact (t.store.transact_refuses _).map _

theorem Sink.insert_refuses {s : Store} (req : FinalizeRequest) (res : FinalizeResponse)
    (sink : Sink s) : (sink.toModule.insert req res).Refuses s := by
  cases sink with
  | transactions name t hs =>
    have h : (t.insert req res).Refuses t.store :=
      Action.refuses_each fun tx _ => t.insertTx_refuses req res tx
    exact hs ▸ h
  | silent m answer hinsert => exact ⟨answer req res, fun st _ => hinsert req res st⟩

namespace Call

variable {s : Store}

/-- A call of a stopped store gets an answer in which no storage has a part. -/
theorem act_refuses (call : Call s) : call.act.Refuses s := by
  cases call with
  | indexBlock b => exact (s.transact_refuses _).map _
  | indexTxs rs => exact (Action.refuses_each fun r _ => s.indexTx_refuses r).map _
  | insertRequest b q => exact (s.transact_refuses _).map _
  | dispatch registry sinks hm req res =>
    have hdispatch : (registry.dispatch req res).Refuses s :=
      dispatch_eq hm req res ▸ Action.refuses_each fun sink _ => sink.insert_refuses req res
    exact hdispatch.map _

/-- On the part of its own chain a call answers and records as it does on the whole. -/
theorem projects_actOn (call : Call s) : call.actOn.Projects s.chainId := by
  cases call with
  | indexBlock b => exact (Journal.projects_indexBlock s.chainId b).map _
  | indexTxs rs => exact (Journal.projects_indexTxs s.chainId rs).map _
  | insertRequest b q => exact (Journal.projects_insertRequest s.chainId b q).map _
  | dispatch registry sinks hm req res =>
    exact (Action.projects_each fun sink _ => sink.projects_record req res).map _

end Call

/-! ## The history of one chain -/

/-- The store that takes a step. -/
def Step.store : Step → Store
  | .operation op => op.store
  | .stop s => s

namespace History

/-- The steps of the stores of a chain. -/
def ofChain (c : String) (steps : List Step) : List Step :=
  steps.filter fun step => step.store.chainId = c

/-- The calls of a history with their answers. -/
def answers : List Step → Storage → List (Operation × Except Failure Reply)
  | [], _ => []
  | .operation op :: steps, st =>
    (op, (op.call.act st).1) :: answers steps (op.call.perform st)
  | .stop s :: steps, st => answers steps (s.stop st).2

/-- To stop a store stops no store of another chain. -/
def StopsApart (steps : List Step) : Prop :=
  ∀ s, .stop s ∈ steps → ∀ step ∈ steps, step.store.id = s.id → step.store.chainId = s.chainId

end History

namespace Storage

/-- A storage that several chains share, and one that a chain has to itself. The second holds the
part of the chain, and of the stores of the chain that take part the same are stopped. -/
structure Contains (c : String) (steps : List Step) (shared own : Storage) : Prop where
  part : ∃ j : Journal, j.Valid ∧ shared.database = j.database ∧
    own.database = (j.ofChain c).database
  closed : ∀ step ∈ steps, step.store.chainId = c →
    (step.store.id ∈ shared.closed ↔ step.store.id ∈ own.closed)

namespace Contains

variable {c : String} {steps : List Step} {shared own : Storage} {op : Operation} {s : Store}

theorem empty (c : String) (steps : List Step) : Contains c steps .empty .empty :=
  ⟨⟨[], .nil, rfl, rfl⟩, fun _ _ _ => Iff.rfl⟩

/-- A call of the chain gets the same answer on both sides. -/
theorem act (h : Contains c steps shared own) (hop : .operation op ∈ steps)
    (hc : op.store.chainId = c) :
    (op.call.act shared).1 = (op.call.act own).1 ∧
      Contains c steps (op.call.perform shared) (op.call.perform own) := by
  obtain ⟨⟨j, hv, hshared, hown⟩, hclosed⟩ := h
  have hiff := hclosed _ hop hc
  rw [Call.perform_eq, Call.perform_eq]
  by_cases hs : op.store.id ∈ shared.closed
  · obtain ⟨answer, hrefuses⟩ := op.call.act_refuses
    rw [hrefuses shared hs, hrefuses own (hiff.1 hs)]
    exact ⟨rfl, ⟨j, hv, hshared, hown⟩, hclosed⟩
  · obtain ⟨db, closed⟩ := shared
    obtain ⟨db', closed'⟩ := own
    obtain rfl : db = j.database := hshared
    obtain rfl : db' = (j.ofChain c).database := hown
    have hprojects := op.call.projects_actOn j
    have hrecord := op.call.record_ofChain j
    rw [hc] at hprojects hrecord
    rw [op.call.act_of_open hv hs, op.call.act_of_open hv.ofChain (fun hs' => hs (hiff.2 hs')),
      hprojects, hrecord]
    exact ⟨rfl, ⟨_, op.call.valid_record hv, rfl, rfl⟩, hclosed⟩

/-- A call of another chain leaves the part of the chain as it is. -/
theorem act_of_ne (h : Contains c steps shared own) (hc : op.store.chainId ≠ c) :
    Contains c steps (op.call.perform shared) own := by
  obtain ⟨⟨j, hv, hshared, hown⟩, hclosed⟩ := h
  rw [Call.perform_eq]
  by_cases hs : op.store.id ∈ shared.closed
  · obtain ⟨answer, hrefuses⟩ := op.call.act_refuses
    rw [hrefuses shared hs]
    exact ⟨⟨j, hv, hshared, hown⟩, hclosed⟩
  · obtain ⟨db, closed⟩ := shared
    obtain rfl : db = j.database := hshared
    rw [op.call.act_of_open hv hs]
    refine ⟨⟨_, op.call.valid_record hv, rfl, ?_⟩, hclosed⟩
    rw [op.call.ofChain_record_of_ne hc, hown]

/-- A store of the chain is stopped on both sides. -/
theorem stop (h : Contains c steps shared own) (s : Store) :
    Contains c steps (s.stop shared).2 (s.stop own).2 where
  part := h.part
  closed step hstep hc := by
    simp only [Store.stop, List.mem_cons, h.closed step hstep hc]

/-- To stop a store of another chain stops none of the chain. -/
theorem stop_of_ne (h : Contains c steps shared own) (hstops : History.StopsApart steps)
    (hs : .stop s ∈ steps) (hc : s.chainId ≠ c) : Contains c steps (s.stop shared).2 own where
  part := h.part
  closed step hstep hstepc := by
    have hne : step.store.id ≠ s.id := fun hid =>
      hc ((hstops s hs step hstep hid).symm.trans hstepc)
    simp only [Store.stop, List.mem_cons, hne, false_or, h.closed step hstep hstepc]

end Contains
end Storage

namespace History

variable {c : String}

theorem ofChain_cons_pos (step : Step) (steps : List Step) (hc : step.store.chainId = c) :
    ofChain c (step :: steps) = step :: ofChain c steps :=
  List.filter_cons_of_pos (decide_eq_true hc)

theorem ofChain_cons_neg (step : Step) (steps : List Step) (hc : step.store.chainId ≠ c) :
    ofChain c (step :: steps) = ofChain c steps :=
  List.filter_cons_of_neg (by simpa using hc)

/-- The history of a chain keeps beside the history of all. -/
theorem contains_run {all steps : List Step} (hstops : StopsApart all) (hsteps : steps ⊆ all)
    {shared own : Storage} (h : shared.Contains c all own) :
    (answers steps shared).filter (·.1.store.chainId = c) = answers (ofChain c steps) own ∧
      (run steps shared).Contains c all (run (ofChain c steps) own) := by
  induction steps generalizing shared own with
  | nil => exact ⟨rfl, h⟩
  | cons step steps ih =>
    obtain ⟨hstep, hrest⟩ := List.cons_subset.1 hsteps
    replace ih := @ih hrest
    rw [run_cons]
    cases step with
    | operation op =>
      by_cases hc : op.store.chainId = c
      · obtain ⟨hanswer, hnext⟩ := h.act hstep hc
        obtain ⟨hanswers, hrun⟩ := ih hnext
        rw [ofChain_cons_pos (.operation op) steps hc, run_cons]
        refine ⟨?_, hrun⟩
        rw [answers, answers, List.filter_cons, if_pos (decide_eq_true hc), hanswer, hanswers]
      · rw [ofChain_cons_neg (.operation op) steps hc, answers,
          List.filter_cons_of_neg (by simpa using hc)]
        exact ih (h.act_of_ne hc)
    | stop s =>
      by_cases hc : s.chainId = c
      · rw [ofChain_cons_pos (.stop s) steps hc, run_cons]
        exact ih (h.stop s)
      · rw [ofChain_cons_neg (.stop s) steps hc]
        exact ih (h.stop_of_ne hstops hstep hc)

/-- **Chains do not write to each other.** Whatever the stores of other chains do, each call of a
chain gets the answer that it gets in the history of the chain alone, and the rows of the chain are
those of the database of that history. Only their numbers are others, in the same order. -/
theorem writes_isolated {steps : List Step} (hstops : StopsApart steps) (c : String) :
    (answers steps .empty).filter (·.1.store.chainId = c) = answers (ofChain c steps) .empty ∧
      ∃ φ : Renumbering, (run steps .empty).database.partOf c =
        (run (ofChain c steps) .empty).database.numbered.renumber φ := by
  obtain ⟨hanswers, hrun⟩ :=
    contains_run hstops (List.Subset.refl _) (Storage.Contains.empty c steps)
  obtain ⟨j, hv, hshared, hown⟩ := hrun.part
  refine ⟨hanswers, j.database.renumbering c, ?_⟩
  rw [hshared, hown]
  exact hv.partOf_database c

/-- Two chains record a block of one height, and one of them is stopped on the way. -/
def sideBySide : List Step :=
  let home : Store := ⟨0, "home"⟩
  let foreign : Store := ⟨1, "foreign"⟩
  let steps := fun s value => (Operation.oneTransaction s value).map Step.operation
  (steps foreign "5").take 2 ++ .stop foreign :: steps home "7" ++ (steps foreign "5").drop 2

/-- The general statement where both chains have a block and a result at one place. -/
theorem writes_isolated_sideBySide : StopsApart sideBySide ∧
    (answers sideBySide .empty).filter (·.1.store.chainId = "home") =
        answers (ofChain "home" sideBySide) .empty ∧
      ∃ φ : Renumbering, (run sideBySide .empty).database.partOf "home" =
        (run (ofChain "home" sideBySide) .empty).database.numbered.renumber φ :=
  have hstops : StopsApart sideBySide := by
    intro s hs step hstep hid
    obtain rfl : s = ⟨1, "foreign"⟩ := by simpa [sideBySide, Operation.oneTransaction] using hs
    simp only [sideBySide, Operation.oneTransaction, List.map_cons, List.map_nil, List.take,
      List.drop, List.cons_append, List.nil_append, List.mem_cons, List.not_mem_nil,
      or_false] at hstep
    rcases hstep with rfl | rfl | rfl | rfl | rfl | rfl | rfl <;> simp [Step.store] at hid ⊢
  ⟨hstops, writes_isolated hstops "home"⟩

end History
end TxIndex
