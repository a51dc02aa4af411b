import TxIndex.Proofs.Journal.Actions
import TxIndex.Proofs.Wire.RoundTrip

/-! # Runs

Several stores work on one database, each by calls that record: a block, results, a request, or a
whole finalized block through a registry. A run is any sequence of such calls, whichever of them
fail. The registry may hold the transaction module of the store, any number of times under
different names, and modules that write nothing. What a run leaves is the storage of a valid journal,
and the journal can be had without the database (`Operation.run_storage`). -/
namespace TxIndex

/-- A module that may stand in the registry of a store. -/
inductive Sink (s : Store) where
  /-- The transaction module of the store under some name. -/
  | transactions (name : String) (t : TxIndexer) (store_eq : t.store = s)
  /-- A module whose recording hook leaves the storage alone, whatever it answers. -/
  | silent (m : Module Storage) (answer : FinalizeRequest → FinalizeResponse → Except Failure Unit)
    (insert_eq : ∀ req res st, m.insert req res st = (answer req res, st))

namespace Sink

variable {s : Store}

/-- The module itself. -/
def toModule : Sink s → Module Storage
  | .transactions name t _ => { t.toModule with name := name }
  | .silent m _ _ => m

/-- What the recording hook does to a journal. -/
def record (req : FinalizeRequest) (res : FinalizeResponse) : Sink s → Action Journal Unit
  | .transactions _ t _ => Journal.insertTxs t req res
  | .silent _ answer _ => fun j => (answer req res, j)

theorem insert_follows (req : FinalizeRequest) (res : FinalizeResponse) (sink : Sink s) :
    (sink.toModule.insert req res).Follows (sink.record req res) := by
  cases sink with
  | transactions name t hs => exact t.insert_follows req res
  | silent m answer hinsert => exact fun j hv => ⟨hinsert req res j.storage, hv⟩

/-- What the recording hook may add to a journal. -/
def MayRecord (req : FinalizeRequest) (res : FinalizeResponse) (e : Entry) : Sink s → Prop
  | .transactions _ t _ => ∃ tx ∈ req.txs.zipIdx, ∃ q, t.request req tx.2 tx.1 = .ok q ∧
      (e = .block t.store.chainId (.ofFinalized req res) ∨
        e = .request t.store.chainId req.height q)
  | .silent _ _ _ => False

theorem keeps_record {P : Journal → Prop} {req : FinalizeRequest} {res : FinalizeResponse}
    {sink : Sink s} (h : ∀ e, sink.MayRecord req res e → ∀ j, P j → P (j.record e)) :
    (sink.record req res).Keeps P := by
  cases sink with
  | transactions name t hs =>
    apply Action.keeps_each
    intro tx htx j hj
    unfold Journal.insertTx
    cases hq : t.request req tx.2 tx.1 with
    | error failure => exact hj
    | ok q => exact h _ ⟨tx, htx, q, hq, .inr rfl⟩ _ (h _ ⟨tx, htx, q, hq, .inl rfl⟩ j hj)
  | silent m answer hinsert => exact fun j hj => hj

end Sink

/-- A call of a store that records. -/
inductive Call (s : Store) where
  | indexBlock (b : BlockEvents)
  | indexTxs (rs : List TxResult)
  | insertRequest (b : BlockEvents) (q : TxRequest)
  | dispatch (registry : Registry Storage) (sinks : List (Sink s))
    (modules_eq : registry.modules = sinks.map Sink.toModule)
    (req : FinalizeRequest) (res : FinalizeResponse)

namespace Call

variable {s : Store}

/-- What a call leaves of the storage, whether it succeeds or fails. -/
def perform : Call s → Storage → Storage
  | .indexBlock b, st => (s.indexBlock b st).2
  | .indexTxs rs, st => (s.indexTxs rs st).2
  | .insertRequest b q, st => (s.insertRequest b q st).2
  | .dispatch registry _ _ req res, st => (registry.dispatch req res st).2

/-- What a call makes of a journal. -/
def record : Call s → Journal → Journal
  | .indexBlock b, j => (j.indexBlock s.chainId b).2
  | .indexTxs rs, j => (Journal.indexTxs s.chainId rs j).2
  | .insertRequest b q, j => (j.insertRequest s.chainId b q).2
  | .dispatch _ sinks _ req res, j => (Action.each (Sink.record req res) sinks j).2

/-- What a call may add to a journal. -/
def MayRecord (e : Entry) : Call s → Prop
  | .indexBlock b => e = .block s.chainId b
  | .indexTxs rs => ∃ r ∈ rs, Wire.txResult.fits r = true ∧ e = .result s.chainId r
  | .insertRequest b q => e = .block s.chainId b ∨ e = .request s.chainId b.height q
  | .dispatch _ sinks _ req res => ∃ sink ∈ sinks, sink.MayRecord req res e

/-- What outlasts the entries that a call may record outlasts the call. -/
theorem keeps_record {P : Journal → Prop} {call : Call s}
    (h : ∀ e, call.MayRecord e → ∀ j, P j → P (j.record e)) {j : Journal} (hj : P j) :
    P (call.record j) := by
  cases call with
  | indexBlock b => exact h _ rfl j hj
  | indexTxs rs =>
    refine Action.keeps_each (fun r hr j hj => ?_) j hj
    unfold Journal.indexTx
    cases hblob : Encoding.encodeResult r with
    | error failure => exact hj
    | ok blob =>
      simp only
      split
      · exact h _ ⟨r, hr, (Encoding.encodeResult_eq_ok.1 hblob).1, rfl⟩ j hj
      · exact hj
  | insertRequest b q => exact h _ (.inr rfl) _ (h _ (.inl rfl) j hj)
  | dispatch registry sinks hm req res =>
    exact Action.keeps_each
      (fun sink hsink => Sink.keeps_record fun e he => h e ⟨sink, hsink, he⟩) j hj

/-- A call records on the chain of its store. -/
theorem MayRecord.chainId_eq {call : Call s} {e : Entry} (h : call.MayRecord e) :
    e.chainId = s.chainId := by
  cases call with
  | indexBlock b =>
    obtain rfl := h
    rfl
  | indexTxs rs =>
    obtain ⟨r, -, -, rfl⟩ := h
    rfl
  | insertRequest b q => rcases h with rfl | rfl <;> rfl
  | dispatch registry sinks hm req res =>
    obtain ⟨sink, -, hsink⟩ := h
    cases sink with
    | transactions name t hs =>
      obtain ⟨tx, -, q, -, rfl | rfl⟩ := hsink <;> exact congrArg Store.chainId hs
    | silent m answer hinsert => exact hsink.elim

/-- The results that a call records can be written. -/
theorem MayRecord.fits {call : Call s} {c : String} {r : TxResult}
    (h : call.MayRecord (.result c r)) : Wire.txResult.fits r = true := by
  cases call with
  | indexBlock b => cases h
  | indexTxs rs =>
    obtain ⟨r', -, hfits, he⟩ := h
    cases he
    exact hfits
  | insertRequest b q => rcases h with h | h <;> cases h
  | dispatch registry sinks hm req res =>
    obtain ⟨sink, -, hsink⟩ := h
    cases sink with
    | transactions name t hs => obtain ⟨tx, -, q, -, he | he⟩ := hsink <;> cases he
    | silent m answer hinsert => exact hsink.elim

/-- A registry hands a block to its modules, one after the other. -/
theorem dispatch_eq {registry : Registry Storage} {sinks : List (Sink s)}
    (h : registry.modules = sinks.map Sink.toModule) (req : FinalizeRequest)
    (res : FinalizeResponse) : registry.dispatch req res =
      Action.each (fun sink : Sink s => sink.toModule.insert req res) sinks := by
  unfold Registry.dispatch
  rw [h, Action.each_map]

/-- A registry hands a block to what its modules do to a journal. -/
theorem dispatch_follows {registry : Registry Storage} {sinks : List (Sink s)}
    (h : registry.modules = sinks.map Sink.toModule) (req : FinalizeRequest)
    (res : FinalizeResponse) :
    (registry.dispatch req res).Follows (Action.each (Sink.record req res) sinks) := by
  rw [dispatch_eq h]
  exact Action.follows_each fun sink _ => sink.insert_follows req res

theorem perform_storage (call : Call s) {j : Journal} (hv : j.Valid) :
    call.perform j.storage = (call.record j).storage ∧ (call.record j).Valid := by
  cases call with
  | indexBlock b =>
    obtain ⟨h, hv'⟩ := s.indexBlock_follows b j hv
    exact ⟨congrArg Prod.snd h, hv'⟩
  | indexTxs rs =>
    obtain ⟨h, hv'⟩ := s.indexTxs_follows rs j hv
    exact ⟨congrArg Prod.snd h, hv'⟩
  | insertRequest b q =>
    obtain ⟨h, hv'⟩ := s.insertRequest_follows b q j hv
    exact ⟨congrArg Prod.snd h, hv'⟩
  | dispatch registry sinks hm req res =>
    obtain ⟨h, hv'⟩ := dispatch_follows hm req res j hv
    exact ⟨congrArg Prod.snd h, hv'⟩

end Call

/-- A call with the store that makes it. -/
structure Operation where
  store : Store
  call : Call store

namespace Operation

/-- What operations leave of the storage, one after the other. -/
def run (ops : List Operation) (st : Storage) : Storage :=
  ops.foldl (fun st op => op.call.perform st) st

/-- What operations make of a journal, one after the other. -/
def record (ops : List Operation) (j : Journal) : Journal :=
  ops.foldl (fun j op => op.call.record j) j

/-- **The storage of a run is that of a valid journal.** Every operation records what it finds free,
so a run adds entries to the journal one by one, each of them accepted. -/
theorem run_storage (ops : List Operation) {j : Journal} (hv : j.Valid) :
    run ops j.storage = (record ops j).storage ∧ (record ops j).Valid := by
  induction ops generalizing j with
  | nil => exact ⟨rfl, hv⟩
  | cons op ops ih =>
    obtain ⟨hop, hv'⟩ := op.call.perform_storage hv
    obtain ⟨hrun, hv''⟩ := ih hv'
    refine ⟨?_, hv''⟩
    rw [run, List.foldl_cons, hop]
    exact hrun

/-- The journal of a run on a fresh database. -/
theorem run_empty (ops : List Operation) :
    run ops .empty = (record ops []).storage ∧ (record ops []).Valid :=
  run_storage ops .nil

/-- What outlasts the entries that operations may record outlasts a run of them. -/
theorem keeps_record {P : Journal → Prop} {ops : List Operation}
    (h : ∀ op ∈ ops, ∀ e, op.call.MayRecord e → ∀ j, P j → P (j.record e)) {j : Journal}
    (hj : P j) : P (record ops j) := by
  induction ops generalizing j with
  | nil => exact hj
  | cons op ops ih =>
    exact ih (fun op' hop' => h op' (List.mem_cons_of_mem _ hop'))
      (Call.keeps_record (h op List.mem_cons_self) hj)

/-- Every entry of a run was recorded by one of its operations. -/
theorem exists_mayRecord {ops : List Operation} {e : Entry} (he : e ∈ record ops []) :
    ∃ op ∈ ops, op.call.MayRecord e := by
  refine keeps_record (P := fun j => ∀ e ∈ j, ∃ op ∈ ops, op.call.MayRecord e) ?_ ?_ e he
  · intro op hop e he j hj e' he'
    rcases Journal.mem_record he' with he' | ⟨rfl, -⟩
    · exact hj e' he'
    · exact ⟨op, hop, he⟩
  · intro e he
    simp at he

end Operation
end TxIndex
