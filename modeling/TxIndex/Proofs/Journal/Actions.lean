import TxIndex.Module.Transactions
import TxIndex.Proofs.Journal.Units

/-! # Actions on a journal

The actions of a store and of the transaction module, said of journals. An action on storage follows
one on journals (`Action.Follows`) if, begun on the storage of a valid journal, it gives the same
answer and leaves the storage of what the other makes of the journal. Repetition over a list
(`Action.each`) carries this over from the single steps, failures included. -/
namespace TxIndex

namespace Action

variable {σ α β : Type}

theorem each_map (act : β → Action σ Unit) (f : α → β) (as : List α) :
    each act (as.map f) = each (fun a => act (f a)) as := by
  induction as with
  | nil => rfl
  | cons a as ih =>
    funext s
    simp only [List.map_cons, each, ih]

/-- A property of states outlasts an action, whether the action succeeds or fails. -/
def Keeps (P : σ → Prop) (act : Action σ α) : Prop := ∀ s, P s → P (act s).2

theorem keeps_each {P : σ → Prop} {act : α → Action σ Unit} {as : List α}
    (h : ∀ a ∈ as, (act a).Keeps P) : (each act as).Keeps P := by
  induction as with
  | nil => exact fun s hs => hs
  | cons a as ih =>
    intro s hs
    have ha := h a List.mem_cons_self s hs
    have ih := ih fun b hb => h b (List.mem_cons_of_mem _ hb)
    rcases hact : act a s with ⟨answer, t⟩
    rw [hact] at ha
    cases answer with
    | ok _ =>
      rw [each_cons_ok act hact]
      exact ih t ha
    | error failure =>
      rw [each_cons_error act hact]
      exact ha

end Action

namespace Journal

/-- The storage of a journal, all connections being open. -/
def storage (j : Journal) : Storage := ⟨j.database, []⟩

@[simp] theorem storage_nil : Journal.storage [] = Storage.empty := rfl

variable (c : String)

/-- Records a block. -/
def indexBlock (b : BlockEvents) : Action Journal Unit := fun j => (.ok (), j.record (.block c b))

/-- Records a result that can be written and whose block is there. -/
def indexTx (r : TxResult) : Action Journal Unit := fun j =>
  match Encoding.encodeResult r with
  | .error failure => (.error failure, j)
  | .ok _ =>
    if j.Holds (.block c r.height) then (.ok (), j.record (.result c r))
    else (.error (.blockNotFound r.height c), j)

/-- Records results in their order, up to the first that fails. -/
def indexTxs (rs : List TxResult) : Action Journal Unit := Action.each (indexTx c) rs

/-- Records a block and then a request in it, and says whether the request is new. -/
def insertRequest (b : BlockEvents) (q : TxRequest) : Action Journal Bool := fun j =>
  (.ok (decide (¬ j.Holds (.request c b.height q.index))),
    (j.record (.block c b)).record (.request c b.height q))

/-- Records the request for one transaction of a block, if the transaction can be read. -/
def insertTx (t : TxIndexer) (req : FinalizeRequest) (res : FinalizeResponse)
    (tx : List UInt8 × Nat) : Action Journal Unit := fun j =>
  match t.request req tx.2 tx.1 with
  | .error failure => (.error failure, j)
  | .ok q =>
    (.ok (), (j.record (.block t.store.chainId (.ofFinalized req res))).record
      (.request t.store.chainId req.height q))

/-- Records the requests for the transactions of a block, up to the first that fails. -/
def insertTxs (t : TxIndexer) (req : FinalizeRequest) (res : FinalizeResponse) :
    Action Journal Unit :=
  Action.each (insertTx t req res) req.txs.zipIdx

end Journal

namespace Action

variable {α : Type}

/-- On the storage of a valid journal the action does what another does to the journal. -/
def Follows (act : Action Storage α) (act' : Action Journal α) : Prop :=
  ∀ j : Journal, j.Valid → act j.storage = ((act' j).1, (act' j).2.storage) ∧ (act' j).2.Valid

theorem follows_each {act : α → Action Storage Unit} {act' : α → Action Journal Unit}
    {as : List α} (h : ∀ a ∈ as, (act a).Follows (act' a)) :
    (each act as).Follows (each act' as) := by
  induction as with
  | nil => exact fun j hv => ⟨rfl, hv⟩
  | cons a as ih =>
    intro j hv
    obtain ⟨hact, hv'⟩ := h a List.mem_cons_self j hv
    have ih := ih fun b hb => h b (List.mem_cons_of_mem _ hb)
    rcases hact' : act' a j with ⟨answer, k⟩
    rw [hact'] at hact hv'
    cases answer with
    | ok _ =>
      rw [each_cons_ok act hact, each_cons_ok act' hact']
      exact ih k hv'
    | error failure =>
      rw [each_cons_error act hact, each_cons_error act' hact']
      exact ⟨rfl, hv'⟩

end Action

variable (s : Store)

theorem Store.transact_storage {α : Type} (work : Database → Except Failure (α × Database))
    (j : Journal) : s.transact work j.storage =
      match work j.database with
      | .ok (a, db) => (.ok a, ⟨db, []⟩)
      | .error failure => (.error failure, j.storage) := rfl

theorem Store.indexBlock_follows (b : BlockEvents) :
    (s.indexBlock b).Follows (Journal.indexBlock s.chainId b) := by
  intro j hv
  refine ⟨?_, hv.record⟩
  rw [Store.indexBlock, s.transact_storage, Journal.recordBlock_database]
  rfl

theorem Store.indexTx_follows (r : TxResult) :
    (s.indexTx r).Follows (Journal.indexTx s.chainId r) := by
  intro j hv
  unfold Store.indexTx Journal.indexTx
  cases hblob : Encoding.encodeResult r with
  | error failure => exact ⟨rfl, hv⟩
  | ok blob =>
    have hencode : blob = Wire.txResult.encode r := by
      unfold Encoding.encodeResult Wire.encodeAs at hblob
      split at hblob
      · exact (Except.ok.inj hblob).symm
      · cases hblob
    subst hencode
    simp only [s.transact_storage]
    by_cases hb : j.Holds (.block s.chainId r.height)
    · rw [if_pos hb, hv.recordResult_database hb]
      exact ⟨rfl, hv.record⟩
    · rw [if_neg hb, Journal.recordResult_eq_error hb]
      exact ⟨rfl, hv⟩

theorem Store.indexTxs_follows (rs : List TxResult) :
    (s.indexTxs rs).Follows (Journal.indexTxs s.chainId rs) :=
  Action.follows_each fun r _ => s.indexTx_follows r

theorem Store.insertRequest_follows (b : BlockEvents) (q : TxRequest) :
    (s.insertRequest b q).Follows (Journal.insertRequest s.chainId b q) := by
  intro j hv
  refine ⟨?_, hv.record.record⟩
  rw [Store.insertRequest, s.transact_storage, hv.recordRequest_database]
  rfl

variable (t : TxIndexer) (req : FinalizeRequest) (res : FinalizeResponse)

theorem TxIndexer.insertTx_follows (tx : List UInt8 × Nat) :
    (t.insertTx req res tx).Follows (Journal.insertTx t req res tx) := by
  intro j hv
  unfold TxIndexer.insertTx Journal.insertTx
  cases t.request req tx.2 tx.1 with
  | error failure => exact ⟨rfl, hv⟩
  | ok q =>
    obtain ⟨hinsert, hv'⟩ := t.store.insertRequest_follows (.ofFinalized req res) q j hv
    simp only
    rw [hinsert]
    exact ⟨rfl, hv'⟩

theorem TxIndexer.insert_follows : (t.insert req res).Follows (Journal.insertTxs t req res) :=
  Action.follows_each fun tx _ => t.insertTx_follows req res tx

end TxIndex
