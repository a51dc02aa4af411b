import TxIndex.Module.Contracts
import TxIndex.Proofs.Run.Finalized
import TxIndex.Proofs.Run.History

/-! # Calls made again

A call that succeeded has taken all the places that it records to, and places once taken stay taken.
So the same call, made again whenever one likes, finds nothing to record: it succeeds and leaves the
database as it is (`History.replay_noop`). This is shown of the actions on journals
(`Action.Replays`), from single units to lists of them.

The one step that needs an argument is a repetition over a list: the calls that come later in the
list must not free what the earlier ones have taken, which holds of all actions as places are only
ever taken (`Action.replays_each`). What other stores did in between is a longer journal with the
same places. -/
namespace TxIndex

namespace Action

variable {α β : Type}

/-- Once the action has succeeded, it succeeds on every journal in which all places taken by then
are taken, gives a certain value there, and records nothing. -/
def Replays (act : Action Journal α) (again : α) : Prop :=
  ∀ ⦃j k : Journal⦄ ⦃a : α⦄, (act j).1 = .ok a → (∀ p, (act j).2.Holds p → k.Holds p) →
    act k = (.ok again, k)

theorem Replays.map {act : Action Journal α} {again : α} (h : act.Replays again) (f : α → β) :
    (act.map f).Replays (f again) := by
  intro j k b hok hlater
  cases hact : (act j).1 with
  | error failure => simp [Action.map, hact, Except.map] at hok
  | ok a =>
    have hk := h hact hlater
    simp only [Action.map, hk]
    rfl

/-- If each step of a list replays and none gives a place up, then the list replays. -/
theorem replays_each {act : α → Action Journal Unit} {as : List α}
    (h : ∀ a ∈ as, (act a).Replays ()) (hkeeps : ∀ a ∈ as, ∀ p, (act a).Keeps (·.Holds p)) :
    (each act as).Replays () := by
  induction as with
  | nil => exact fun j k _ _ _ => rfl
  | cons a as ih =>
    intro j k u hok hlater
    have hrest := fun b hb => hkeeps b (List.mem_cons_of_mem a hb)
    rcases hact : act a j with ⟨answer, i⟩
    cases answer with
    | error failure => simp [each_cons_error act hact] at hok
    | ok _ =>
      rw [each_cons_ok act hact] at hok hlater
      -- What the first step has taken is still taken when the others are done.
      have hfirst : ∀ p, (act a j).2.Holds p → k.Holds p := by
        intro p hp
        rw [hact] at hp
        exact hlater p (keeps_each (fun b hb => hrest b hb p) i hp)
      have hagain : act a k = (.ok (), k) := h a List.mem_cons_self (by rw [hact]) hfirst
      rw [each_cons_ok act hagain]
      exact ih (fun b hb => h b (List.mem_cons_of_mem _ hb)) hrest hok hlater

end Action

namespace Journal

variable (c : String)

theorem replays_indexBlock (b : BlockEvents) : (indexBlock c b).Replays () := by
  intro j k _ _ hlater
  have hblock : k.Holds (.block c b.height) := hlater _ (holds_record_block c b)
  exact congrArg (Prod.mk _) (record_of_holds hblock)

theorem keeps_indexTx (r : TxResult) (p : Place) : (indexTx c r).Keeps (·.Holds p) := by
  intro j hp
  unfold indexTx
  cases Encoding.encodeResult r with
  | error failure => exact hp
  | ok blob =>
    simp only
    split
    · exact hp.record
    · exact hp

theorem replays_indexTx (r : TxResult) : (indexTx c r).Replays () := by
  intro j k _ hok hlater
  unfold indexTx at hok hlater ⊢
  cases hblob : Encoding.encodeResult r with
  | error failure => simp [hblob] at hok
  | ok blob =>
    simp only [hblob] at hok hlater ⊢
    by_cases hb : j.Holds (.block c r.height)
    · simp only [if_pos hb] at hlater
      have hblock : k.Holds (.block c r.height) := hlater _ hb.record
      have hresult : k.Holds (Entry.result c r).place := hlater _ (holds_record (.inr hb))
      rw [if_pos hblock, record_of_holds hresult]
    · simp [if_neg hb] at hok

theorem replays_insertRequest (b : BlockEvents) (q : TxRequest) :
    (insertRequest c b q).Replays false := by
  intro j k _ _ hlater
  have hb := holds_record_block (j := j) c b
  have hblock : k.Holds (Entry.block c b).place := hlater _ hb.record
  have hrequest : k.Holds (Entry.request c b.height q).place :=
    hlater _ (holds_record (.inr hb))
  have hold : decide (¬ k.Holds (.request c b.height q.index)) = false :=
    decide_eq_false (not_not_intro hrequest)
  simp only [insertRequest, record_of_holds hblock, record_of_holds hrequest, hold]

variable (t : TxIndexer) (req : FinalizeRequest) (res : FinalizeResponse)
  (tx : List UInt8 × Nat)

theorem keeps_insertTx (p : Place) : (insertTx t req res tx).Keeps (·.Holds p) := by
  intro j hp
  unfold insertTx
  cases t.request req tx.2 tx.1 with
  | error failure => exact hp
  | ok q => exact hp.record.record

theorem replays_insertTx : (insertTx t req res tx).Replays () := by
  cases hq : t.request req tx.2 tx.1 with
  | error failure =>
    intro j k _ hok _
    simp [insertTx, hq] at hok
  | ok q =>
    rw [insertTx_of_ok t req res hq]
    exact (replays_insertRequest t.store.chainId (.ofFinalized req res) q).map _

end Journal

namespace Sink

variable {s : Store} (req : FinalizeRequest) (res : FinalizeResponse) (sink : Sink s)

theorem keeps_place (p : Place) : (sink.record req res).Keeps (·.Holds p) :=
  keeps_record fun _ _ _ hp => hp.record

theorem replays_record : (sink.record req res).Replays () := by
  cases sink with
  | transactions name t hs =>
    exact Action.replays_each (fun tx _ => Journal.replays_insertTx t req res tx)
      fun tx _ => Journal.keeps_insertTx t req res tx
  | silent m answer hinsert =>
    intro j k u hok _
    exact congrArg (Prod.mk · k) hok

end Sink

namespace Call

variable {s : Store}

/-- What the call answers when it is made again: a request is no longer new. -/
def again : Call s → Reply
  | .insertRequest _ _ => .inserted false
  | _ => .done

theorem replays_actOn (call : Call s) : call.actOn.Replays call.again := by
  cases call with
  | indexBlock b => exact (Journal.replays_indexBlock s.chainId b).map _
  | indexTxs rs =>
    have h : (Journal.indexTxs s.chainId rs).Replays () :=
      Action.replays_each (fun r _ => Journal.replays_indexTx s.chainId r)
        fun r _ => Journal.keeps_indexTx s.chainId r
    exact h.map _
  | insertRequest b q => exact (Journal.replays_insertRequest s.chainId b q).map _
  | dispatch registry sinks hm req res =>
    have h : (Action.each (Sink.record req res) sinks).Replays () :=
      Action.replays_each (fun sink _ => sink.replays_record req res)
        fun sink _ => sink.keeps_place req res
    exact h.map _

end Call

/-- On a later journal the call of an open store is no news. -/
theorem Call.act_of_later {s : Store} (call : Call s) {j k : Journal} {reply : Reply}
    (hok : (call.actOn j).1 = .ok reply) (hk : k.Valid) (hlater : call.record j <+: k)
    {closed : List Nat} (hs : s.id ∉ closed) :
    call.act ⟨k.database, closed⟩ = (.ok call.again, ⟨k.database, closed⟩) := by
  have hagain : call.actOn k = (.ok call.again, k) := by
    apply call.replays_actOn hok
    rintro p ⟨e, he, hp⟩
    rw [← Call.record_eq] at he
    exact ⟨e, hlater.subset he, hp⟩
  rw [call.act_of_open hk hs, Call.record_eq, hagain]

namespace History

/-- **To make a call again is to do nothing.** A call succeeds in a history that begins with the
empty database; whatever happens after it, and as long as its store is not stopped, the same call
succeeds again, and leaves all tables as they are. If it inserts a request, it says that the request
is not new. -/
theorem replay_noop {s : Store} (call : Call s) (earlier later : List Step) {reply : Reply}
    (hok : (call.act (run earlier .empty)).1 = .ok reply)
    (hopen : s.isOpen (run (earlier ++ .operation ⟨s, call⟩ :: later) .empty) = true) :
    call.act (run (earlier ++ .operation ⟨s, call⟩ :: later) .empty) =
      (.ok call.again, run (earlier ++ .operation ⟨s, call⟩ :: later) .empty) := by
  obtain ⟨j, closed, hearlier, hj⟩ := run_empty earlier
  rw [run_append, run_cons, hearlier, Step.perform, Call.perform_eq] at hopen ⊢
  rw [hearlier] at hok
  by_cases hs : s.id ∈ closed
  · -- A store that is stopped is not open later on.
    rw [call.act_through.stopped _ _ hs] at hopen
    obtain ⟨k, closed', hrun, -, -, hclosed⟩ := run_prefix later closed hj
    rw [hrun, s.isOpen_iff] at hopen
    exact absurd (hclosed hs) hopen
  · rw [call.act_of_open hj hs] at hok hopen ⊢
    obtain ⟨k, closed', hrun, hk, hlater, -⟩ := run_prefix later closed (call.valid_record hj)
    rw [hrun, s.isOpen_iff] at hopen
    rw [hrun]
    exact call.act_of_later hok hk hlater hopen

/-- A finalized block is handed to a registry that holds a transaction module and a contract
module. -/
def dispatchOf {s : Store} (t : TxIndexer) (hs : t.store = s) (b : Finalized) : Call s :=
  let contracts := Contracts.toModule s t.encoding
  .dispatch ⟨[t.toModule, contracts], by simp [contracts, TxIndexer.toModule, Contracts.toModule,
      TxIndexer.name, Contracts.name]⟩
    [.transactions TxIndexer.name t hs, .silent contracts (fun _ _ => .ok ()) fun _ _ _ => rfl]
    rfl b.req b.res

/-- Another store of the chain brings other contents of the block and its results, and is
stopped. -/
def interference (s : Store) (b : Finalized) : List Step :=
  [.operation ⟨s, .indexBlock ⟨b.height, ⟨5, 0⟩, [], 0⟩⟩, .operation ⟨s, .indexTxs b.results⟩,
    .stop s]

/-- The general statement at a block that is handed over twice. -/
theorem replay_noop_dispatch :
    let t : TxIndexer := ⟨⟨0, "testing"⟩, .standard, 100, id⟩
    let b := Finalized.withOneTx 1
    let earlier := interference ⟨1, "testing"⟩ (.withOneTx 2)
    let later := interference ⟨2, "testing"⟩ b
    let call := dispatchOf t (s := ⟨0, "testing"⟩) rfl b
    let st := run (earlier ++ .operation ⟨t.store, call⟩ :: later) .empty
    (call.act (run earlier .empty)).1 = .ok .done ∧ t.store.isOpen st = true ∧
      call.act st = (.ok .done, st) := by
  intro t b earlier later call st
  have hok : (call.act (run earlier .empty)).1 = .ok .done := by decide +kernel
  have hopen : t.store.isOpen st = true := by decide +kernel
  exact ⟨hok, hopen, replay_noop call earlier later hok hopen⟩

end History
end TxIndex
