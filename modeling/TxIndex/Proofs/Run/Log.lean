import TxIndex.Proofs.Journal.Deeds
import TxIndex.Proofs.Journal.Events
import TxIndex.Proofs.Run.History

/-! # Logs

What a history has done is told by its log: one deed for each unit of work that succeeded, with the
contents it was called with and, for a request, the answer whether it was new. Units that failed,
and those of stopped stores, leave no deed. The database can be read off the log alone: it holds the
entries of the deeds, of those for one place the first (`History.represents_log`).

Deeds are noted on the storage and not on the journal, so that the log is what a caller could write
down. The two meet in `Action.Logs`: a unit of work that follows one on journals leads from a
journal to the next by its deeds, and a repetition by those of its units (`Action.logs_each`). -/
namespace TxIndex

/-! ## Logs of actions -/

namespace Action

variable {σ α : Type}

/-- The log of a unit of work: one deed if it succeeds, none if it fails. -/
def deeds (act : Action σ α) (deed : α → Deed) : σ → List Deed := fun s =>
  match (act s).1 with
  | .ok a => [deed a]
  | .error _ => []

/-- The log of an action for each item, up to the first that fails. -/
def eachDeeds (act : α → Action σ Unit) (log : α → σ → List Deed) : List α → σ → List Deed
  | [], _ => []
  | a :: as, s =>
    log a s ++ match act a s with
      | (.ok (), t) => eachDeeds act log as t
      | (.error _, _) => []

end Action

/-- The log of a result. -/
def Store.resultDeeds (s : Store) (r : TxResult) : Storage → List Deed :=
  (s.indexTx r).deeds fun _ => .result s.chainId r

/-- The log of a request. -/
def Store.requestDeeds (s : Store) (b : BlockEvents) (q : TxRequest) : Storage → List Deed :=
  (s.insertRequest b q).deeds (.request s.chainId b q)

/-- The log of one transaction of a block. -/
def TxIndexer.insertTxDeeds (t : TxIndexer) (req : FinalizeRequest) (res : FinalizeResponse)
    (tx : List UInt8 × Nat) : Storage → List Deed :=
  match t.request req tx.2 tx.1 with
  | .error _ => fun _ => []
  | .ok q => t.store.requestDeeds (.ofFinalized req res) q

/-- The log of a recording hook. -/
def Sink.deeds {s : Store} (req : FinalizeRequest) (res : FinalizeResponse) :
    Sink s → Storage → List Deed
  | .transactions _ t _ =>
    Action.eachDeeds (t.insertTx req res) (t.insertTxDeeds req res) req.txs.zipIdx
  | .silent _ _ _ => fun _ => []

/-- The log of a call. -/
def Call.deeds {s : Store} : Call s → Storage → List Deed
  | .indexBlock b => (s.indexBlock b).deeds fun _ => .block s.chainId b
  | .indexTxs rs => Action.eachDeeds s.indexTx s.resultDeeds rs
  | .insertRequest b q => s.requestDeeds b q
  | .dispatch _ sinks _ req res =>
    Action.eachDeeds (fun sink => sink.toModule.insert req res) (Sink.deeds req res) sinks

/-- The log of a step. -/
def Step.deeds : Step → Storage → List Deed
  | .operation op => op.call.deeds
  | .stop _ => fun _ => []

/-- The log of a history. -/
def History.deeds : List Step → Storage → List Deed
  | [], _ => []
  | step :: steps, st => step.deeds st ++ History.deeds steps (step.perform st)

/-! ## What logs tell -/

namespace Action

variable {α β : Type} {s : Store} {act : Action Storage α} {act' : Action Journal α}

/-- The log of an action tells what the action does to a journal. As long as the store is open, its
deeds lead to what is recorded; once it is stopped there are none. -/
structure Logs (s : Store) (act : Action Storage α) (act' : Action Journal α)
    (log : Storage → List Deed) : Prop where
  follows : act.Follows act'
  through : act.Through s
  opened : ∀ j : Journal, j.Valid → ∀ closed, s.id ∉ closed →
    Leads j (log ⟨j.database, closed⟩) (act' j).2
  stopped : ∀ db closed, s.id ∈ closed → log ⟨db, closed⟩ = []

theorem Logs.map {log : Storage → List Deed} (h : act.Logs s act' log) (f : α → β) :
    (act.map f).Logs s (act'.map f) log where
  follows := h.follows.map f
  through := h.through.map f
  opened := h.opened
  stopped := h.stopped

/-- A unit of work is logged by one deed, if it records nothing when it fails. -/
theorem logs_deeds {deed : α → Deed} (hfollows : act.Follows act') (hthrough : act.Through s)
    (hstopped : ∀ db closed, s.id ∈ closed → ∃ failure, (act ⟨db, closed⟩).1 = .error failure)
    (hok : ∀ j a, (act' j).1 = .ok a → Leads j [deed a] (act' j).2)
    (herror : ∀ j failure, (act' j).1 = .error failure → (act' j).2 = j) :
    act.Logs s act' (act.deeds deed) where
  follows := hfollows
  through := hthrough
  opened j hv closed hs := by
    rw [deeds, hfollows.of_open hthrough hv hs]
    cases hact : (act' j).1 with
    | ok a => exact hok j a hact
    | error failure =>
      rw [herror j failure hact]
      exact .nil
  stopped db closed hs := by
    obtain ⟨failure, hfailure⟩ := hstopped db closed hs
    rw [deeds, hfailure]

theorem logs_each {act : α → Action Storage Unit} {act' : α → Action Journal Unit}
    {log : α → Storage → List Deed} {as : List α} (h : ∀ a ∈ as, (act a).Logs s (act' a) (log a)) :
    (each act as).Logs s (each act' as) (eachDeeds act log as) where
  follows := follows_each fun a ha => (h a ha).follows
  through := through_each fun a ha => (h a ha).through
  opened := by
    induction as with
    | nil => exact fun _ _ _ _ => .nil
    | cons a as ih =>
      intro j hv closed hs
      have ha := h a List.mem_cons_self
      have ih := ih fun b hb => h b (List.mem_cons_of_mem _ hb)
      have hfirst : Leads j (log a ⟨j.database, closed⟩) (act' a j).2 := ha.opened j hv closed hs
      have hvalid := hfirst.valid hv
      rw [eachDeeds, ha.follows.of_open ha.through hv hs]
      rcases hact' : act' a j with ⟨answer, k⟩
      rw [hact'] at hfirst hvalid
      cases answer with
      | ok _ =>
        rw [each_cons_ok act' hact']
        exact hfirst.append (ih k hvalid closed hs)
      | error failure =>
        rw [each_cons_error act' hact']
        exact hfirst.append .nil
  stopped := by
    induction as with
    | nil => exact fun _ _ _ => rfl
    | cons a as ih =>
      intro db closed hs
      have ha := h a List.mem_cons_self
      have hkept := ha.through.stopped db closed hs
      rw [eachDeeds, ha.stopped db closed hs]
      rcases hact : act a ⟨db, closed⟩ with ⟨answer, st⟩
      rw [hact] at hkept
      obtain rfl : st = ⟨db, closed⟩ := hkept
      cases answer with
      | ok _ => exact ih (fun b hb => h b (List.mem_cons_of_mem _ hb)) db closed hs
      | error failure => rfl

end Action

namespace Store

variable (s : Store)

theorem logs_indexBlock (b : BlockEvents) : (s.indexBlock b).Logs s
    (Journal.indexBlock s.chainId b) ((s.indexBlock b).deeds fun _ => .block s.chainId b) := by
  refine Action.logs_deeds (s.indexBlock_follows b) (s.transact_through _) ?_ ?_ ?_
  · exact fun db closed hs => ⟨_, congrArg Prod.fst (s.transact_of_stopped _ ⟨db, closed⟩ hs)⟩
  · exact fun j a _ => .block .nil
  · exact fun j failure h => nomatch h

theorem logs_indexTx (r : TxResult) :
    (s.indexTx r).Logs s (Journal.indexTx s.chainId r) (s.resultDeeds r) := by
  refine Action.logs_deeds (s.indexTx_follows r) (s.indexTx_through r) ?_ ?_ ?_
  · intro db closed hs
    unfold indexTx
    cases Encoding.encodeResult r with
    | error failure => exact ⟨failure, rfl⟩
    | ok blob => exact ⟨_, congrArg Prod.fst (s.transact_of_stopped _ ⟨db, closed⟩ hs)⟩
  · intro j a hok
    unfold Journal.indexTx at hok ⊢
    cases hblob : Encoding.encodeResult r with
    | error failure => simp [hblob] at hok
    | ok blob =>
      simp only [hblob] at hok ⊢
      split at hok
      · rename_i hb
        rw [if_pos hb]
        exact .result hb .nil
      · cases hok
  · intro j failure herror
    unfold Journal.indexTx at herror ⊢
    cases hblob : Encoding.encodeResult r with
    | error failure => rfl
    | ok blob =>
      simp only [hblob] at herror ⊢
      split at herror
      · cases herror
      · rename_i hb
        rw [if_neg hb]

theorem logs_insertRequest (b : BlockEvents) (q : TxRequest) : (s.insertRequest b q).Logs s
    (Journal.insertRequest s.chainId b q) (s.requestDeeds b q) := by
  refine Action.logs_deeds (s.insertRequest_follows b q) (s.transact_through _) ?_ ?_ ?_
  · exact fun db closed hs => ⟨_, congrArg Prod.fst (s.transact_of_stopped _ ⟨db, closed⟩ hs)⟩
  · intro j isNew hok
    obtain rfl := Except.ok.inj hok
    exact .request .nil
  · exact fun j failure h => nomatch h

end Store

theorem TxIndexer.logs_insertTx (t : TxIndexer) (req : FinalizeRequest) (res : FinalizeResponse)
    (tx : List UInt8 × Nat) : (t.insertTx req res tx).Logs t.store (Journal.insertTx t req res tx)
      (t.insertTxDeeds req res tx) := by
  cases hq : t.request req tx.2 tx.1 with
  | error failure =>
    have hlog : t.insertTxDeeds req res tx = fun _ => [] := by simp only [insertTxDeeds, hq]
    refine ⟨t.insertTx_follows req res tx, t.insertTx_through req res tx, ?_, ?_⟩
    · intro j hv closed hs
      simp only [hlog, Journal.insertTx, hq]
      exact .nil
    · exact fun db closed hs => by rw [hlog]
  | ok q =>
    have hlog : t.insertTxDeeds req res tx = t.store.requestDeeds (.ofFinalized req res) q := by
      simp only [insertTxDeeds, hq]
    rw [t.insertTx_of_ok req res hq, Journal.insertTx_of_ok t req res hq, hlog]
    exact (t.store.logs_insertRequest _ q).map _

theorem Sink.logs_insert {s : Store} (req : FinalizeRequest) (res : FinalizeResponse)
    (sink : Sink s) :
    (sink.toModule.insert req res).Logs s (sink.record req res) (sink.deeds req res) := by
  cases sink with
  | transactions name t hs =>
    have h : (t.insert req res).Logs t.store (Journal.insertTxs t req res)
        (Action.eachDeeds (t.insertTx req res) (t.insertTxDeeds req res) req.txs.zipIdx) :=
      Action.logs_each fun tx _ => t.logs_insertTx req res tx
    exact hs ▸ h
  | silent m answer hinsert =>
    exact ⟨Sink.insert_follows req res (.silent m answer hinsert),
      Sink.insert_through req res (.silent m answer hinsert), fun _ _ _ _ => .nil,
      fun _ _ _ => rfl⟩

theorem Call.logs_act {s : Store} (call : Call s) : call.act.Logs s call.actOn call.deeds := by
  cases call with
  | indexBlock b => exact (s.logs_indexBlock b).map _
  | indexTxs rs =>
    have h : (s.indexTxs rs).Logs s (Journal.indexTxs s.chainId rs)
        (Action.eachDeeds s.indexTx s.resultDeeds rs) :=
      Action.logs_each fun r _ => s.logs_indexTx r
    exact h.map _
  | insertRequest b q => exact (s.logs_insertRequest b q).map _
  | dispatch registry sinks hm req res =>
    have h : (registry.dispatch req res).Logs s (Action.each (Sink.record req res) sinks)
        (Action.eachDeeds (fun sink => sink.toModule.insert req res) (Sink.deeds req res) sinks) :=
      dispatch_eq hm req res ▸ Action.logs_each fun sink _ => sink.logs_insert req res
    exact h.map _

namespace History

/-- The deeds of a history lead to the journal of its database. What outlasts the entries that its
operations may record holds of the journal in the end, if it did at the beginning. -/
theorem run_leads_keeping {P : Journal → Prop} {steps : List Step}
    (hkeeps : ∀ op, .operation op ∈ steps → ∀ e, op.call.MayRecord e → ∀ j, P j → P (j.record e))
    {j : Journal} (hv : j.Valid) (hj : P j) (closed : List Nat) :
    ∃ k closed', run steps ⟨j.database, closed⟩ = ⟨Journal.database k, closed'⟩ ∧
      Leads j (deeds steps ⟨j.database, closed⟩) k ∧ P k := by
  induction steps generalizing j closed with
  | nil => exact ⟨j, closed, rfl, .nil, hj⟩
  | cons step steps ih =>
    have hlater := fun op hop => hkeeps op (List.mem_cons_of_mem _ hop)
    rw [run_cons, deeds]
    cases step with
    | stop s => exact ih hlater hv hj (s.id :: closed)
    | operation op =>
      rw [Step.perform, Call.perform_eq, Step.deeds]
      have hlogs := op.call.logs_act
      by_cases hs : op.store.id ∈ closed
      · rw [op.call.act_through.stopped _ _ hs, hlogs.stopped _ _ hs]
        exact ih hlater hv hj closed
      · rw [op.call.act_of_open hv hs]
        obtain ⟨k, closed', hrun, hk, hPk⟩ := ih hlater (op.call.valid_record hv)
          (Call.keeps_record (hkeeps op List.mem_cons_self) hj) closed
        have hfirst := hlogs.opened j hv closed hs
        rw [← Call.record_eq] at hfirst
        exact ⟨k, closed', hrun, hfirst.append hk, hPk⟩

theorem run_leads (steps : List Step) {j : Journal} (hv : j.Valid) (closed : List Nat) :
    ∃ k closed', run steps ⟨j.database, closed⟩ = ⟨Journal.database k, closed'⟩ ∧
      Leads j (deeds steps ⟨j.database, closed⟩) k := by
  obtain ⟨k, closed', hrun, hk, -⟩ :=
    @run_leads_keeping (fun _ => True) steps (fun _ _ _ _ _ _ => trivial) j hv trivial closed
  exact ⟨k, closed', hrun, hk⟩

/-- The entries that a history has made: those of its deeds, for each place the first. -/
def made (steps : List Step) : List Entry :=
  firstOfEach Entry.place ((deeds steps .empty).flatMap Deed.entries)

/-- The number of events that come with an entry: a block has one of its own, a result has two, and
to these come the events with a type. -/
def eventsOf : Entry → Nat
  | .block _ b => 1 + (b.events.filter Event.isTyped).length
  | .result _ r => 2 + (r.result.events.filter Event.isTyped).length
  | .request _ _ _ => 0

theorem eventsOf_eq (e : Entry) : eventsOf e = e.eventCount := by
  cases e with
  | block c b => simp [eventsOf, Entry.eventCount, BlockEvents.recordedEvents, Nat.add_comm]
  | result c r =>
    simp only [eventsOf, Entry.eventCount, TxResult.recordedEvents, List.length_cons]
    omega
  | request c h q => rfl

/-- **What a database holds after any history.** Its tables keep their keys and hold the entries
that the history has made, in their order and no more: the rows of blocks, results and requests, for
each block and result its events, and for each event its attributes. So the events are counted by
the blocks and results made, and the requests by the insertions that found their request new. -/
theorem represents_log (steps : List Step) (s : Store) :
    (run steps .empty).database.WellFormed ∧
      (run steps .empty).database.Represents (made steps) ∧
      s.eventCount (run steps .empty) = (if s.isOpen (run steps .empty) then
        .ok ((made steps).map eventsOf).sum else .error (.storage "count" Store.closedReason)) ∧
      s.requestCount (run steps .empty) = (if s.isOpen (run steps .empty) then
        .ok ((deeds steps .empty).countP Deed.isInsertion)
        else .error (.storage "count" Store.closedReason)) := by
  obtain ⟨k, closed, hrun, hleads⟩ := run_leads steps .nil []
  change run steps .empty = _ at hrun
  have hv : k.Valid := hleads.valid .nil
  have hk : k = made steps := hleads.eq_of_nil
  have hevents : (Journal.database k).events.size = ((made steps).map eventsOf).sum := by
    rw [hv.events_size, hk, funext eventsOf_eq]
  have hrequests : (Journal.database k).requests.size =
      (deeds steps .empty).countP Deed.isInsertion := by
    rw [hv.requests_size, hleads.requestCount_eq]
    exact Nat.zero_add _
  rw [hrun, ← hk]
  refine ⟨hv.wellFormed, hv.represents, ?_, ?_⟩
  · rw [Store.eventCount, hevents, hk]
  · rw [Store.requestCount, hrequests]

end History
end TxIndex
