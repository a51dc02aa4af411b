import TxIndex.Proofs.Run.Indexed
import TxIndex.Proofs.Run.Tip

/-! # Searching by hash

Every transaction is recorded with an event that has its hash, in the same table and under the same
kind of composite key as the events that it emitted. A search by hash on a database of one chain
therefore finds the transactions that have the hash, and those with an event that says so
(`History.search_finds_hash`); a transaction may say this of a hash that is not its own
(`History.search_finds_claimed_hash`).

A condition on the hash is met by a posting in one of two ways, by the attribute that the index adds
to its events and by one that the transaction emitted (`Posting.meets_hash`). The window of the
search is that up to the tip, below which all results of the chain lie, so nothing else decides. -/
namespace TxIndex

namespace Event

variable {e : Event} {key : String} {a : EventAttribute}

/-- The first indexed attribute of each key is recorded, and no other. -/
theorem mem_recordedAttributes_iff :
    a ∈ e.recordedAttributes ↔ e.firstIndexed? a.key = some a := by
  refine ⟨fun h => ?_, mem_recordedAttributes⟩
  rw [recordedAttributes, firstOfEachKey_eq, mem_firstOfEach] at h
  obtain ⟨before, after, hsplit, hbefore⟩ := h
  have hindexed : a.indexed = true := by
    have ha : a ∈ e.attributes.filter (·.indexed) := by simp [hsplit]
    exact (List.mem_filter.1 ha).2
  have hfirst : e.firstIndexed? a.key =
      (e.attributes.filter (·.indexed)).find? (·.key = a.key) := by
    simp [firstIndexed?, List.find?_filter]
  have hnone : before.find? (·.key = a.key) = none :=
    List.find?_eq_none.2 fun b hb => by simpa using hbefore b hb
  rw [hfirst, hsplit, List.find?_append, hnone, List.find?_cons_of_pos (by simp)]
  rfl

/-- An attribute has the composite key of hashes only if its type and its key are those. -/
theorem compositeKey_eq_txHashKey :
    e.compositeKey key = txHashKey ↔ e.kind = "tx" ∧ key = "hash" := by
  have hsplit : "tx.hash".toList = "tx".toList ++ '.' :: "hash".toList := by decide
  have hpoint : ".".toList = ['.'] := rfl
  rw [compositeKey, txHashKey, ← String.toList_inj, String.toList_append, String.toList_append,
    hpoint, List.append_assoc, List.singleton_append, hsplit, eq_comm,
    List.append_cons_inj_of_notMem (by decide) (by decide), ← String.toList_inj,
    ← String.toList_inj]
  simp [eq_comm]

end Event

/-- An event of the transaction says that a hash is its own. -/
def TxResult.ClaimsHash (r : TxResult) (hash : String) : Prop :=
  ∃ e ∈ r.result.events, e.kind = "tx" ∧ ∃ a, e.firstIndexed? "hash" = some a ∧ a.value = hash

/-- Under the composite key of hashes a transaction has its own hash, and what its events claim. -/
theorem TxResult.mem_indexedValues_hash {r : TxResult} {hash : String} :
    (txHashKey, hash) ∈ r.indexedValues ↔ txHash r.tx = hash ∨ r.ClaimsHash hash := by
  have hown : (Event.ofCompositeKey txHashKey (txHash r.tx)).indexedValues =
      [(txHashKey, txHash r.tx)] := rfl
  have hheight : (Event.ofCompositeKey txHeightKey (toString r.height)).indexedValues =
      [(txHeightKey, toString r.height)] := rfl
  constructor
  · intro h
    obtain ⟨e, he, hvalue⟩ := List.mem_flatMap.1 h
    rw [recordedEvents, List.mem_cons, List.mem_cons] at he
    rcases he with rfl | rfl | he
    · rw [hown, List.mem_singleton] at hvalue
      exact .inl (Prod.mk.inj hvalue).2.symm
    · rw [hheight, List.mem_singleton] at hvalue
      exact absurd (Prod.mk.inj hvalue).1 (by decide)
    · obtain ⟨a, ha, hvalue⟩ := List.mem_map.1 hvalue
      obtain ⟨hcomposite, rfl⟩ := Prod.mk.inj hvalue
      obtain ⟨hkind, hkey⟩ := Event.compositeKey_eq_txHashKey.1 hcomposite
      exact .inr ⟨e, (List.mem_filter.1 he).1, hkind, a,
        hkey ▸ Event.mem_recordedAttributes_iff.1 ha, rfl⟩
  · rintro (rfl | ⟨e, he, hkind, a, ha, rfl⟩)
    · exact List.mem_flatMap.2 ⟨_, List.mem_cons_self, by rw [hown, List.mem_singleton]⟩
    · have hkey : a.key = "hash" := by
        have hfirst := List.find?_some ha
        simp only [Bool.and_eq_true, decide_eq_true_eq] at hfirst
        exact hfirst.2
      have htyped : e.kind ≠ "" := by
        rw [hkind]
        decide
      rw [← Event.compositeKey_eq_txHashKey.2 ⟨hkind, hkey⟩]
      exact mem_indexedValues he htyped (Event.mem_recordedAttributes ha)

namespace Posting

variable {p : Posting} {hash : String}

/-- A posting meets the condition on a hash if it has the hash or claims it. -/
theorem meets_hash : p.meets (.compare .eq txHashKey (.text hash)) = true ↔
    txHash p.result.tx = hash ∨ p.result.ClaimsHash hash := by
  have htest : ∀ v, (Condition.compare .eq txHashKey (.text hash)).test.holds v = true ↔
      v = hash := by
    intro v
    change Comparison.eq.admits (compare v hash) = true ↔ _
    exact Comparison.admits_string
  rw [← TxResult.mem_indexedValues_hash, meets, List.any_eq_true]
  constructor
  · rintro ⟨⟨key, v⟩, hmem, hmeets⟩
    rw [Bool.and_eq_true, decide_eq_true_eq, htest] at hmeets
    obtain ⟨rfl, rfl⟩ : key = txHashKey ∧ v = hash := hmeets
    exact hmem
  · intro hmem
    refine ⟨_, hmem, ?_⟩
    rw [Bool.and_eq_true, decide_eq_true_eq, htest]
    exact ⟨rfl, rfl⟩

end Posting

namespace Journal

variable {j : Journal} {c : String}

theorem Valid.length_pairs (hv : j.Valid) : j.database.pairs.length = j.postings.length :=
  hv.shows_postings.length_eq

/-- On a journal of one chain a search up to the tip whose limit lets everything through finds all
postings that meet its conditions. -/
theorem Valid.search_belowTip_all (hv : j.Valid) (hj : ∀ e ∈ j, e.chainId = c)
    (filters : List Condition) {limit : UInt16}
    (hlimit : j.database.pairs.length ≤ limit.toNat) :
    ∃ found : List Posting, j.search c ⟨.belowTip, filters, limit⟩ = found.map Posting.stored ∧
      (found.map fun a => Place.result a.chainId a.height a.result.index).Nodup ∧
      ∀ a, a ∈ found ↔ a ∈ j.postings ∧ ∀ c ∈ filters, a.meets c = true := by
  refine ⟨j.ranking [(.ge, Int64.minValue)] filters, ?_, hv.nodup_ranking _ _, fun a => ?_⟩
  · have hlength : (j.ranking [(.ge, Int64.minValue)] filters).length ≤ limit.toNat := by
      refine Nat.le_trans ?_ (hv.length_pairs ▸ hlimit)
      rw [ranking, (newestFirst_perm _).length_eq]
      exact List.length_filter_le _ _
    rw [hv.search_belowTip hj, search, HeightWindow.bounds?_fromLowest]
    simp only [List.take_of_length_le hlength]
  · rw [mem_ranking, and_iff_right (Database.admitsHeight_lowest a.height)]

end Journal

namespace History

variable {steps : List Step} {s : Store}

/-- The query for a hash. -/
def hashQuery (hash : String) : Query := ⟨[.compare .eq txHashKey (.text hash)]⟩

/-- What a history of one chain has made are entries of this chain. -/
theorem run_made {c : String} (hsteps : ∀ op, .operation op ∈ steps → op.store.chainId = c) :
    ∃ closed, run steps .empty = ⟨Journal.database (made steps), closed⟩ ∧
      Journal.Valid (made steps) ∧ ∀ e ∈ made steps, e.chainId = c := by
  have hnil : ∀ e ∈ ([] : Journal), e.chainId = c := fun e he => absurd he List.not_mem_nil
  obtain ⟨j, closed, hrun, hleads, hj⟩ := run_leads_keeping (keeps_ofOneChain hsteps) .nil hnil []
  obtain rfl : j = made steps := hleads.eq_of_nil
  exact ⟨closed, hrun, hleads.valid .nil, hj⟩

/-- **What a search by hash finds.** A chain has used a database on its own, and the limit lets all
its transactions through. Then the search for a hash finds, each once, the transactions whose result
and request have been made and which have the hash, or an event of the type `tx` whose first indexed
attribute with the key `hash` has it as its value; and it finds no others. -/
theorem search_finds_hash (hsteps : ∀ op, .operation op ∈ steps → op.store.chainId = s.chainId)
    (hopen : s.isOpen (run steps .empty) = true) (hash : String) {limit ceiling : UInt16}
    (hlimit : (run steps .empty).database.pairs.length ≤ (min limit ceiling).toNat) :
    ∃ (p : Plan) (found : List Posting), Plan.compileWithin (hashQuery hash) limit ceiling = .ok p ∧
      s.search p (run steps .empty) = .ok (found.map Posting.stored) ∧
      (found.map fun a => Place.result a.chainId a.height a.result.index).Nodup ∧
      ∀ a : Posting, a ∈ found ↔ (.result a.chainId a.result ∈ made steps ∧
          .request a.chainId a.result.height a.request ∈ made steps ∧
          a.request.index = a.result.index) ∧
        (a.stored.txHash = hash ∨ a.result.ClaimsHash hash) := by
  obtain ⟨closed, hrun, hv, hj⟩ := run_made hsteps
  rw [hrun] at hopen hlimit ⊢
  obtain ⟨found, hsearch, hplaces, hfound⟩ :=
    hv.search_belowTip_all hj [.compare .eq txHashKey (.text hash)] hlimit
  refine ⟨⟨.belowTip, [.compare .eq txHashKey (.text hash)], min limit ceiling⟩, found, rfl, ?_,
    hplaces, fun a => ?_⟩
  · rw [Store.search, if_pos hopen, hv.search_database, hsearch]
  · rw [hfound, Journal.mem_postings, List.forall_mem_singleton, Posting.meets_hash]
    rfl

/-- A result with an event that claims a hash. -/
def claimedHashResult : TxResult :=
  ⟨1, 0, [], ⟨0, [], "", "", 0, 0, [⟨"tx", [⟨"hash", "AB", true⟩]⟩], ""⟩⟩

/-- The request at its place. -/
def claimedHashRequest : TxRequest := ⟨1, 0, ⟨0, 0⟩, "", [], "", ""⟩

/-- A history that records both. -/
def claimedHashSteps (s : Store) : List Step :=
  [.operation ⟨s, .indexBlock ⟨1, ⟨0, 0⟩, [], 1⟩⟩, .operation ⟨s, .indexTxs [claimedHashResult]⟩,
    .operation ⟨s, .insertRequest ⟨1, ⟨0, 0⟩, [], 1⟩ claimedHashRequest⟩]

/-- The general statement at that history. -/
theorem search_finds_hash_claimed :
    let s : Store := ⟨0, "testing"⟩
    let steps := claimedHashSteps s
    (∀ op, .operation op ∈ steps → op.store.chainId = s.chainId) ∧
      s.isOpen (run steps .empty) = true ∧
      (run steps .empty).database.pairs.length ≤ (min 10 Plan.ceiling).toNat ∧
      ∃ (p : Plan) (found : List Posting),
        Plan.compileWithin (hashQuery "AB") 10 Plan.ceiling = .ok p ∧
        s.search p (run steps .empty) = .ok (found.map Posting.stored) ∧
        ⟨s.chainId, claimedHashResult, claimedHashRequest⟩ ∈ found := by
  intro s steps
  have hsteps : ∀ op, .operation op ∈ steps → op.store.chainId = s.chainId := by
    simp [steps, claimedHashSteps]
  have hopen : s.isOpen (run steps .empty) = true := by decide +kernel
  have hlimit : (run steps .empty).database.pairs.length ≤ (min 10 Plan.ceiling).toNat := by
    decide +kernel
  have hclaims : claimedHashResult.ClaimsHash "AB" :=
    ⟨_, List.mem_singleton_self _, rfl, _, rfl, rfl⟩
  have hr : .result s.chainId claimedHashResult ∈ made steps := by decide +kernel
  have hq : .request s.chainId 1 claimedHashRequest ∈ made steps := by decide +kernel
  obtain ⟨p, found, hp, hsearch, -, hfound⟩ := search_finds_hash hsteps hopen "AB" hlimit
  exact ⟨hsteps, hopen, hlimit, p, found, hp, hsearch, (hfound _).2 ⟨⟨hr, hq, rfl⟩, .inr hclaims⟩⟩

/-- The search for the claimed hash gives the transaction, which has another hash. -/
theorem search_finds_claimed_hash :
    let s : Store := ⟨0, "testing"⟩
    let steps := claimedHashSteps s
    (∀ op, .operation op ∈ steps → op.store.chainId = s.chainId) ∧
      s.isOpen (run steps .empty) = true ∧
      (run steps .empty).database.pairs.length ≤ (min 10 Plan.ceiling).toNat ∧
      ∃ p row, Plan.compileWithin (hashQuery "AB") 10 Plan.ceiling = .ok p ∧
        s.search p (run steps .empty) = .ok [row] ∧ row.txHash ≠ "AB" := by
  refine ⟨by simp [claimedHashSteps], by decide +kernel, by decide +kernel,
    ⟨.belowTip, [.compare .eq txHashKey (.text "AB")], 10⟩,
    (Posting.mk "testing" claimedHashResult claimedHashRequest).stored, rfl, ?_, ?_⟩
  · decide +kernel
  · decide +kernel

end History
end TxIndex
