import TxIndex.Proofs.Journal.Chain
import TxIndex.Proofs.Run.Search

/-! # Chains on one database

What the operations of one chain record does not depend on those of the others
(`Operation.record_filter`): the journal of a run has, for each chain, the journal of the run in
which only the operations of that chain took place. Whether the answer of a search is that of the
lone run as well is another matter. The candidates of a search are drawn from all chains, before the
limit is applied, so a transaction of another chain may be a hit and may take the place of one
(`Operation.search_isolated_iff`). -/
namespace TxIndex

namespace Sink

variable {s : Store}

theorem projects_record (req : FinalizeRequest) (res : FinalizeResponse) (sink : Sink s) :
    (sink.record req res).Projects s.chainId := by
  cases sink with
  | transactions name t hs =>
    have h : (Journal.insertTxs t req res).Projects t.store.chainId :=
      Action.projects_each fun tx _ => Journal.projects_insertTx t req res tx
    rw [hs] at h
    exact h
  | silent m answer hinsert => exact fun j => rfl

end Sink

namespace Call

variable {s : Store}

/-- On the part of its own chain a call does what it does on the whole. -/
theorem record_ofChain (call : Call s) (j : Journal) :
    call.record (j.ofChain s.chainId) = (call.record j).ofChain s.chainId := by
  cases call with
  | indexBlock b => exact congrArg Prod.snd (Journal.projects_indexBlock s.chainId b j)
  | indexTxs rs => exact congrArg Prod.snd (Journal.projects_indexTxs s.chainId rs j)
  | insertRequest b q =>
    exact congrArg Prod.snd (Journal.projects_insertRequest s.chainId b q j)
  | dispatch registry sinks hm req res =>
    have h : (Action.each (Sink.record req res) sinks).Projects s.chainId :=
      Action.projects_each fun sink _ => sink.projects_record req res
    exact congrArg Prod.snd (h j)

/-- The part of another chain is left as it is. -/
theorem ofChain_record_of_ne (call : Call s) {c : String} (hc : s.chainId ≠ c) (j : Journal) :
    (call.record j).ofChain c = j.ofChain c := by
  refine keeps_record (P := fun k => k.ofChain c = j.ofChain c) ?_ rfl
  intro e he k hk
  rw [Journal.ofChain_record_of_ne (he.chainId_eq ▸ hc), hk]

end Call

/-- The transaction of a match belongs to a block of the chain. -/
def Database.isOfChain (db : Database) (c : String) (m : Match) : Bool :=
  (db.blocks.get? m.result.blockId).any fun row => row.chainId = c

theorem Match.Shows.isOfChain_eq {db : Database} {m : Match} {p : Posting} (h : m.Shows db p)
    (c : String) : db.isOfChain c m = decide (p.chainId = c) := by
  obtain ⟨row, hrow, -, hc⟩ := Database.blockId?_spec h.row.block
  have hget : db.blocks.get? m.result.blockId = some row := hrow
  have hchain : row.chainId = p.chainId := hc
  rw [Database.isOfChain, hget, ← hchain]
  rfl

namespace Operation

/-- The operations of the stores of a chain. -/
def ofChain (c : String) (ops : List Operation) : List Operation :=
  ops.filter fun op => op.store.chainId = c

/-- **The journal of a chain is that of its own operations.** Whether an operation records anything
depends on the places of its own chain only. -/
theorem record_filter (ops : List Operation) (c : String) (j : Journal) :
    record (ofChain c ops) (j.ofChain c) = (record ops j).ofChain c := by
  induction ops generalizing j with
  | nil => rfl
  | cons op ops ih =>
    by_cases hc : op.store.chainId = c
    · have hfilter : ofChain c (op :: ops) = op :: ofChain c ops :=
        List.filter_cons_of_pos (decide_eq_true hc)
      have hop : op.call.record (j.ofChain c) = (op.call.record j).ofChain c :=
        hc ▸ op.call.record_ofChain j
      show record (ofChain c (op :: ops)) (j.ofChain c) = (record ops (op.call.record j)).ofChain c
      rw [hfilter, ← ih (op.call.record j), ← hop]
      rfl
    · have hfilter : ofChain c (op :: ops) = ofChain c ops :=
        List.filter_cons_of_neg (by simpa using hc)
      show record (ofChain c (op :: ops)) (j.ofChain c) = (record ops (op.call.record j)).ofChain c
      rw [hfilter, ← ih (op.call.record j), op.call.ofChain_record_of_ne hc]

/-- **When a chain has its search to itself.** A search in a shared run gives the head of all answers
of the plan, of whichever chain; in the run of its own chain alone it would give the head of those
that belong to the chain. So the search is the same as in that run, and finds nothing but
transactions of its chain, exactly if no transaction of another chain is among the newest that the
limit lets through. -/
theorem search_isolated_iff (ops : List Operation) (s : Store) (p : Plan) :
    ∃ found : List Match,
      (found.Pairwise Match.Newer ∧ ∀ m, m ∈ found ↔
        (run ops .empty).database.Answers s.chainId p (fun c v => c.test.holds v) m) ∧
      s.search p (run ops .empty) = .ok ((found.take p.limit.toNat).map Match.stored) ∧
      s.search p (run (ofChain s.chainId ops) .empty) =
        .ok (((found.filter ((run ops .empty).database.isOfChain s.chainId)).take
          p.limit.toNat).map Match.stored) ∧
      ((s.search p (run ops .empty) = s.search p (run (ofChain s.chainId ops) .empty) ∧
          ∀ m ∈ found.take p.limit.toNat,
            (run ops .empty).database.isOfChain s.chainId m = true) ↔
        ∀ m ∈ found.take p.limit.toNat,
          (run ops .empty).database.isOfChain s.chainId m = true) := by
  obtain ⟨hrun, hv⟩ := run_empty ops
  have hown : run (ofChain s.chainId ops) .empty =
      ((record ops []).ofChain s.chainId).storage := by
    rw [(run_empty _).1, ← record_filter]
    rfl
  rw [hrun, hown]
  generalize record ops [] = j at *
  have hshared : s.search p j.storage = .ok (j.database.search s.chainId p) := rfl
  have hlone : s.search p (j.ofChain s.chainId).storage =
      .ok ((j.ofChain s.chainId).search s.chainId p) :=
    congrArg Except.ok (hv.ofChain.search_database s.chainId p)
  rw [hshared, hlone, hv.distinctRequests.search_eq, Journal.search, Journal.heights_ofChain,
    ← Journal.tip?_database]
  cases hbounds : p.window.bounds? (j.database.tip? s.chainId) with
  | none =>
    refine ⟨[], ⟨.nil, fun m => ⟨fun hm => by simp at hm, fun hm => ?_⟩⟩, by simp⟩
    exact absurd hm (Database.not_answers_of_bounds?_eq_none hbounds)
  | some bounds =>
    have hshows := hv.shows_ranking bounds p.filters
    -- The ranking of the chain alone is the shared one without the matches of other chains.
    have hpart : ((j.ofChain s.chainId).ranking bounds p.filters).map Posting.stored =
        ((j.database.ranking bounds p.filters).filter (j.database.isOfChain s.chainId)).map
          Match.stored := by
      have howned := List.rel_filter
        (fun m q h => Bool.eq_iff_iff.1 (h.isOfChain_eq s.chainId)) hshows
      rw [Journal.ranking_ofChain]
      exact (Journal.map_eq_of_forall₂ (fun m q h => h.stored_eq) howned).symm
    simp only
    rw [List.map_take, List.map_take (f := Posting.stored), hpart, ← List.map_take,
      ← List.map_take]
    refine ⟨j.database.ranking bounds p.filters, ⟨hv.distinctRequests.pairwise_ranking,
      fun m => Database.mem_ranking_iff_answers hbounds⟩, rfl, rfl, And.right, fun h => ⟨?_, h⟩⟩
    exact congrArg (fun ms => Except.ok (ms.map Match.stored)) (take_filter_of_forall h).symm

/-- A transaction of one chain is found through the store of another, which recorded nothing. -/
theorem search_finds_foreign_transaction :
    (Store.search ⟨0, "home"⟩ ⟨.exact 1, [], 10⟩
        (run (oneTransaction ⟨1, "foreign"⟩ "5") .empty)).map List.length = .ok 1 ∧
      Store.search ⟨0, "home"⟩ ⟨.exact 1, [], 10⟩
        (run (ofChain "home" (oneTransaction ⟨1, "foreign"⟩ "5")) .empty) = .ok [] := by
  decide +kernel

end Operation
end TxIndex
