import TxIndex.Proofs.Run.Basic

/-! # Histories

A history of a database goes beyond a run: calls of any stores, as they come, and between them
stores are stopped. A store that is stopped stays so, and its calls write nothing. A store that is
open works as if no other store had ever been stopped (`Action.Through`), so a call answers and
records as it does on the journal of the database (`Call.act_of_open`), and the database of a
history is that of a valid journal (`History.run_journal`). -/
namespace TxIndex

namespace Action

variable {σ α β : Type}

/-- The action with its value changed. -/
def map (f : α → β) (act : Action σ α) : Action σ β := fun s => ((act s).1.map f, (act s).2)

theorem Follows.map {act : Action Storage α} {act' : Action Journal α} (h : act.Follows act')
    (f : α → β) : (act.map f).Follows (act'.map f) := by
  intro j hv
  obtain ⟨hact, hv'⟩ := h j hv
  refine ⟨?_, hv'⟩
  simp only [Action.map, hact]

/-- The action goes through the connections of a store. As long as these are open, all others make
no difference to it, and it closes none. Once they are closed, it leaves everything as it is. -/
structure Through (s : Store) (act : Action Storage α) : Prop where
  opened : ∀ db closed, s.id ∉ closed →
    act ⟨db, closed⟩ = ((act ⟨db, []⟩).1, ⟨(act ⟨db, []⟩).2.database, closed⟩)
  stopped : ∀ db closed, s.id ∈ closed → (act ⟨db, closed⟩).2 = ⟨db, closed⟩

variable {s : Store}

theorem Through.map {act : Action Storage α} (h : act.Through s) (f : α → β) :
    (act.map f).Through s where
  opened db closed hs := by simp only [Action.map, h.opened db closed hs]
  stopped db closed hs := h.stopped db closed hs

/-- An action that does nothing to the storage. -/
theorem through_const (s : Store) (answer : Except Failure α) :
    Action.Through s fun st => (answer, st) :=
  ⟨fun _ _ _ => rfl, fun _ _ _ => rfl⟩

theorem through_each {act : α → Action Storage Unit} {as : List α}
    (h : ∀ a ∈ as, (act a).Through s) : (each act as).Through s := by
  induction as with
  | nil => exact through_const s (.ok ())
  | cons a as ih =>
    have ha := h a List.mem_cons_self
    have ih := ih fun b hb => h b (List.mem_cons_of_mem _ hb)
    constructor
    · intro db closed hs
      have hbase := ha.opened db [] List.not_mem_nil
      have hlift := ha.opened db closed hs
      rcases hact : act a ⟨db, []⟩ with ⟨answer, st⟩
      rw [hact] at hbase hlift
      have hst : act a ⟨db, []⟩ = (answer, ⟨st.database, []⟩) := hact.trans hbase
      cases answer with
      | ok _ =>
        rw [each_cons_ok act hlift, each_cons_ok act hst]
        exact ih.opened st.database closed hs
      | error failure => rw [each_cons_error act hlift, each_cons_error act hst]
    · intro db closed hs
      have hkept := ha.stopped db closed hs
      rcases hact : act a ⟨db, closed⟩ with ⟨answer, st⟩
      rw [hact] at hkept
      obtain rfl : st = ⟨db, closed⟩ := hkept
      cases answer with
      | ok _ =>
        rw [each_cons_ok act hact]
        exact ih.stopped db closed hs
      | error failure => rw [each_cons_error act hact]

/-- What an open store does to the storage of a journal, whichever other stores are stopped. -/
theorem Follows.of_open {act : Action Storage α} {act' : Action Journal α} (h : act.Follows act')
    (hs : act.Through s) {j : Journal} (hv : j.Valid) {closed : List Nat} (hid : s.id ∉ closed) :
    act ⟨j.database, closed⟩ = ((act' j).1, ⟨(act' j).2.database, closed⟩) := by
  have hact : act ⟨j.database, []⟩ = ((act' j).1, (act' j).2.storage) := (h j hv).1
  rw [hs.opened _ _ hid, hact]
  rfl

end Action

/-! ## Stores -/

namespace Store

variable (s : Store)

theorem isOpen_iff {st : Storage} : s.isOpen st = true ↔ s.id ∉ st.closed := by
  simp [isOpen]

variable {α : Type} (work : Database → Except Failure (α × Database))

theorem transact_of_open (st : Storage) (h : s.id ∉ st.closed) : s.transact work st =
    match work st.database with
    | .ok (a, db) => (.ok a, { st with database := db })
    | .error failure => (.error failure, st) :=
  if_pos (s.isOpen_iff.2 h)

/-- Once a store is stopped its units fail. -/
theorem transact_of_stopped (st : Storage) (h : s.id ∈ st.closed) :
    s.transact work st = (.error (.storage "begin" closedReason), st) :=
  if_neg fun hs => s.isOpen_iff.1 hs h

theorem transact_through : (s.transact work).Through s where
  opened db closed hs := by
    rw [s.transact_of_open work ⟨db, closed⟩ hs,
      s.transact_of_open work ⟨db, []⟩ List.not_mem_nil]
    cases work db <;> rfl
  stopped db closed hs := by rw [s.transact_of_stopped work ⟨db, closed⟩ hs]

theorem indexTx_through (r : TxResult) : (s.indexTx r).Through s := by
  unfold indexTx
  cases Encoding.encodeResult r with
  | error failure => exact Action.through_const s _
  | ok blob => exact s.transact_through _

end Store

/-- On a journal a transaction that can be read is recorded by its request. -/
theorem Journal.insertTx_of_ok (t : TxIndexer) (req : FinalizeRequest) (res : FinalizeResponse)
    {tx : List UInt8 × Nat} {q : TxRequest} (h : t.request req tx.2 tx.1 = .ok q) :
    Journal.insertTx t req res tx =
      (Journal.insertRequest t.store.chainId (.ofFinalized req res) q).map fun _ => () := by
  funext j
  simp only [Journal.insertTx, h]
  rfl

namespace TxIndexer

variable (t : TxIndexer) (req : FinalizeRequest) (res : FinalizeResponse)

/-- A transaction that cannot be read is not recorded. -/
theorem insertTx_of_error {tx : List UInt8 × Nat} {failure : Failure}
    (h : t.request req tx.2 tx.1 = .error failure) :
    t.insertTx req res tx = fun st => (.error failure, st) := by
  funext st
  simp only [insertTx, h]

/-- A transaction is recorded by its request, and whether that is new is not passed on. -/
theorem insertTx_of_ok {tx : List UInt8 × Nat} {q : TxRequest}
    (h : t.request req tx.2 tx.1 = .ok q) : t.insertTx req res tx =
      (t.store.insertRequest (.ofFinalized req res) q).map fun _ => () := by
  funext st
  simp only [insertTx, h, Action.map]
  rcases t.store.insertRequest (.ofFinalized req res) q st with ⟨_ | _, st'⟩ <;> rfl

theorem insertTx_through (tx : List UInt8 × Nat) : (t.insertTx req res tx).Through t.store := by
  cases h : t.request req tx.2 tx.1 with
  | error failure =>
    rw [t.insertTx_of_error req res h]
    exact Action.through_const _ _
  | ok q =>
    rw [t.insertTx_of_ok req res h]
    exact (t.store.transact_through _).map _

end TxIndexer

theorem Sink.insert_through {s : Store} (req : FinalizeRequest) (res : FinalizeResponse)
    (sink : Sink s) : (sink.toModule.insert req res).Through s := by
  cases sink with
  | transactions name t hs =>
    have h : (t.insert req res).Through t.store :=
      Action.through_each fun tx _ => t.insertTx_through req res tx
    exact hs ▸ h
  | silent m answer hinsert =>
    have hconst : m.insert req res = fun st => (answer req res, st) := funext (hinsert req res)
    simp only [toModule, hconst]
    exact Action.through_const s _

/-! ## Calls -/

/-- What a call answers when it succeeds: that it is done, or whether the request was new. -/
inductive Reply where
  | done
  | inserted (isNew : Bool)
deriving DecidableEq

namespace Call

variable {s : Store}

/-- The call as an action: its answer, and what it leaves. -/
def act : Call s → Action Storage Reply
  | .indexBlock b => (s.indexBlock b).map fun _ => .done
  | .indexTxs rs => (s.indexTxs rs).map fun _ => .done
  | .insertRequest b q => (s.insertRequest b q).map .inserted
  | .dispatch registry _ _ req res => (registry.dispatch req res).map fun _ => .done

/-- The call as an action on a journal. -/
def actOn : Call s → Action Journal Reply
  | .indexBlock b => Action.map (fun _ => .done) (Journal.indexBlock s.chainId b)
  | .indexTxs rs => Action.map (fun _ => .done) (Journal.indexTxs s.chainId rs)
  | .insertRequest b q => Action.map .inserted (Journal.insertRequest s.chainId b q)
  | .dispatch _ sinks _ req res =>
    Action.map (fun _ => .done) (Action.each (Sink.record req res) sinks)

theorem perform_eq (call : Call s) (st : Storage) : call.perform st = (call.act st).2 := by
  cases call <;> rfl

theorem record_eq (call : Call s) (j : Journal) : call.record j = (call.actOn j).2 := by
  cases call <;> rfl

theorem act_follows (call : Call s) : call.act.Follows call.actOn := by
  cases call with
  | indexBlock b => exact (s.indexBlock_follows b).map _
  | indexTxs rs => exact (s.indexTxs_follows rs).map _
  | insertRequest b q => exact (s.insertRequest_follows b q).map _
  | dispatch registry sinks hm req res => exact (dispatch_follows hm req res).map _

theorem act_through (call : Call s) : call.act.Through s := by
  cases call with
  | indexBlock b => exact (s.transact_through _).map _
  | indexTxs rs => exact (Action.through_each fun r _ => s.indexTx_through r).map _
  | insertRequest b q => exact (s.transact_through _).map _
  | dispatch registry sinks hm req res =>
    have hdispatch : (registry.dispatch req res).Through s :=
      dispatch_eq hm req res ▸ Action.through_each fun sink _ => sink.insert_through req res
    exact hdispatch.map _

/-- A call of an open store answers and records as on the journal. -/
theorem act_of_open (call : Call s) {j : Journal} (hv : j.Valid) {closed : List Nat}
    (hs : s.id ∉ closed) :
    call.act ⟨j.database, closed⟩ = ((call.actOn j).1, ⟨(call.record j).database, closed⟩) := by
  rw [call.act_follows.of_open call.act_through hv hs, record_eq]

theorem valid_record (call : Call s) {j : Journal} (hv : j.Valid) : (call.record j).Valid :=
  (call.perform_storage hv).2

end Call

/-! ## Steps -/

/-- What happens to a database: a store makes a call, or is stopped. -/
inductive Step where
  | operation (op : Operation)
  | stop (s : Store)

/-- What a step leaves of the storage. -/
def Step.perform : Step → Storage → Storage
  | .operation op, st => op.call.perform st
  | .stop s, st => (s.stop st).2

namespace History

/-- What steps leave of the storage, one after the other. -/
def run (steps : List Step) (st : Storage) : Storage :=
  steps.foldl (fun st step => step.perform st) st

theorem run_append (steps later : List Step) (st : Storage) :
    run (steps ++ later) st = run later (run steps st) := List.foldl_append

theorem run_cons (step : Step) (steps : List Step) (st : Storage) :
    run (step :: steps) st = run steps (step.perform st) := rfl

variable {steps : List Step} {j : Journal} {closed : List Nat}

/-- **The database of a history is that of a valid journal**, and connections once closed stay
closed. What outlasts the entries that its operations may record holds of the journal in the end, if
it did at the beginning. -/
theorem run_journal {P : Journal → Prop}
    (hkeeps : ∀ op, .operation op ∈ steps → ∀ e, op.call.MayRecord e → ∀ j, P j → P (j.record e))
    (hv : j.Valid) (hj : P j) :
    ∃ k closed', run steps ⟨j.database, closed⟩ = ⟨Journal.database k, closed'⟩ ∧ k.Valid ∧ P k ∧
      closed ⊆ closed' := by
  induction steps generalizing j closed with
  | nil => exact ⟨j, closed, rfl, hv, hj, List.Subset.refl _⟩
  | cons step steps ih =>
    have hlater := fun op hop => hkeeps op (List.mem_cons_of_mem _ hop)
    rw [run_cons]
    cases step with
    | stop s =>
      obtain ⟨k, closed', hrun, hk, hPk, hclosed⟩ := ih hlater hv hj
      exact ⟨k, closed', hrun, hk, hPk, List.subset_of_cons_subset hclosed⟩
    | operation op =>
      rw [Step.perform, Call.perform_eq]
      by_cases hs : op.store.id ∈ closed
      · rw [op.call.act_through.stopped _ _ hs]
        exact ih hlater hv hj
      · rw [op.call.act_of_open hv hs]
        exact ih hlater (op.call.valid_record hv)
          (Call.keeps_record (hkeeps op List.mem_cons_self) hj)

/-- A history only adds to the journal of its database. -/
theorem run_prefix (steps : List Step) (closed : List Nat) (hv : j.Valid) :
    ∃ k closed', run steps ⟨j.database, closed⟩ = ⟨Journal.database k, closed'⟩ ∧ k.Valid ∧
      j <+: k ∧ closed ⊆ closed' :=
  run_journal (fun _ _ _ _ _ hk => hk.trans Journal.prefix_record) hv (List.prefix_refl j)

theorem run_empty (steps : List Step) :
    ∃ j closed, run steps .empty = ⟨Journal.database j, closed⟩ ∧ j.Valid := by
  obtain ⟨j, closed, hrun, hj, -, -⟩ := run_prefix steps [] .nil
  exact ⟨j, closed, hrun, hj⟩

end History
end TxIndex
