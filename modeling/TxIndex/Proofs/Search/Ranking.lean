import Mathlib.Data.List.Nodup
import TxIndex.Proofs.Journal.Attributes

/-! # The ranking of a search

A search narrows the results down to candidates, keeps some of the newest, and then joins these
again with results and requests. Put side by side, every result with its request
(`Database.pairs`), the two steps come down to one list: those pairs that meet the plan, ranked from
the newest (`Database.ranking`). As long as no two requests share a place, neither join repeats a
row or loses one, and the search is the head of that list (`Database.search_eq`). -/
namespace TxIndex

/-- A numbered result with a request at its place. -/
structure Match where
  txId : Nat
  result : ResultRow
  request : TxRequest
deriving DecidableEq

namespace Match

/-- The row that a search gives for a match. -/
def stored (m : Match) : StoredTx := Database.storedTx m.result m.request

/-- The match as a candidate. -/
def candidate (m : Match) : Candidate := ⟨m.txId, m.result.height⟩

/-- The first lies higher, or at the same height and was recorded later. -/
def Newer (a b : Match) : Prop :=
  b.result.height < a.result.height ∨ a.result.height = b.result.height ∧ b.txId < a.txId

/-- The first is at least as new as the second. -/
def notOlder (a b : Match) : Bool := a.candidate.isNewer b.candidate

theorem notOlder_iff {a b : Match} : a.notOlder b = true ↔ b.result.height < a.result.height ∨
    a.result.height = b.result.height ∧ b.txId ≤ a.txId := by
  simp only [notOlder, Candidate.isNewer, Bool.or_eq_true, Bool.and_eq_true, decide_eq_true_eq]
  rfl

theorem notOlder_trans (a b c : Match) (hab : a.notOlder b = true) (hbc : b.notOlder c = true) :
    a.notOlder c = true := by
  rw [notOlder_iff, Int64.lt_iff_toInt_lt, ← Int64.toInt_inj] at *
  omega

theorem notOlder_total (a b : Match) : (a.notOlder b || b.notOlder a) = true := by
  rw [Bool.or_eq_true, notOlder_iff, notOlder_iff, Int64.lt_iff_toInt_lt, Int64.lt_iff_toInt_lt,
    ← Int64.toInt_inj, ← Int64.toInt_inj]
  omega

theorem newer_of_notOlder {a b : Match} (h : a.notOlder b = true) (hne : a.txId ≠ b.txId) :
    a.Newer b := by
  rcases notOlder_iff.1 h with h | ⟨h, hle⟩
  · exact .inl h
  · exact .inr ⟨h, Nat.lt_of_le_of_ne hle (Ne.symm hne)⟩

end Match

namespace Database

variable (db : Database)

/-- No two requests share a place. -/
def DistinctRequests : Prop :=
  db.requests.rows.Pairwise fun a b => ¬ (a.blockId = b.blockId ∧ a.request.index = b.request.index)

/-- Every result with the requests at its place, in the order of the results. -/
def pairs : List Match :=
  db.results.numbered.flatMap fun (r, txId) => (db.requestsOf r).map (⟨txId, r, ·⟩)

/-- The pairs whose height is within bounds and which meet all conditions. -/
def selected (bounds : List (Comparison × Int64)) (filters : List Condition) : List Match :=
  db.pairs.filter fun m => admitsHeight bounds m.result.height && filters.all (db.meets m.txId)

/-- The selected pairs, the newest first. -/
def ranking (bounds : List (Comparison × Int64)) (filters : List Condition) : List Match :=
  (db.selected bounds filters).mergeSort Match.notOlder

variable {db} {bounds : List (Comparison × Int64)} {filters : List Condition}

theorem mem_requestsOf {r : ResultRow} {q : TxRequest} :
    q ∈ db.requestsOf r ↔ ⟨r.blockId, q⟩ ∈ db.requests.rows ∧ q.index = r.index := by
  simp only [requestsOf, List.mem_map, List.mem_filter, isRequest, Bool.and_eq_true,
    decide_eq_true_eq]
  constructor
  · rintro ⟨⟨blockId, q'⟩, ⟨hmem, rfl, hindex⟩, rfl⟩
    exact ⟨hmem, hindex⟩
  · rintro ⟨hmem, hindex⟩
    exact ⟨_, ⟨hmem, rfl, hindex⟩, rfl⟩

theorem mem_pairs {m : Match} : m ∈ db.pairs ↔ db.results.get? m.txId = some m.result ∧
    ⟨m.result.blockId, m.request⟩ ∈ db.requests.rows ∧ m.request.index = m.result.index := by
  simp only [pairs, List.mem_flatMap, List.mem_map, Prod.exists]
  constructor
  · rintro ⟨r, txId, hnum, q, hq, rfl⟩
    exact ⟨db.results.mem_numbered_iff.1 hnum, mem_requestsOf.1 hq⟩
  · rintro ⟨hnum, hq⟩
    exact ⟨m.result, m.txId, db.results.mem_numbered_iff.2 hnum, m.request,
      mem_requestsOf.2 hq, rfl⟩

theorem mem_selected {m : Match} : m ∈ db.selected bounds filters ↔
    m ∈ db.pairs ∧ admitsHeight bounds m.result.height = true ∧
      ∀ c ∈ filters, db.meets m.txId c = true := by
  simp [selected]

theorem mem_ranking {m : Match} : m ∈ db.ranking bounds filters ↔
    m ∈ db.pairs ∧ admitsHeight bounds m.result.height = true ∧
      ∀ c ∈ filters, db.meets m.txId c = true := by
  rw [ranking, List.mem_mergeSort, mem_selected]

/-- At the place of a result there is at most one request. -/
theorem DistinctRequests.requestsOf_eq (hd : db.DistinctRequests) {r : ResultRow} {q : TxRequest}
    (hq : q ∈ db.requestsOf r) : db.requestsOf r = [q] := by
  have hall : ∀ row ∈ db.requests.rows.filter (isRequest r.blockId r.index),
      row.blockId = r.blockId ∧ row.request.index = r.index := by
    intro row hrow
    simpa [isRequest] using (List.mem_filter.1 hrow).2
  have hpw := hd.sublist (List.filter_sublist (p := isRequest r.blockId r.index))
  unfold requestsOf at hq ⊢
  generalize db.requests.rows.filter (isRequest r.blockId r.index) = rows at *
  match rows with
  | [] => simp at hq
  | [row] =>
    rw [List.map_singleton, List.mem_singleton] at hq
    rw [hq, List.map_singleton]
  | row :: row' :: rows =>
    have h := hall row List.mem_cons_self
    have h' := hall row' (List.mem_cons_of_mem _ List.mem_cons_self)
    exact absurd ⟨h.1.trans h'.1.symm, h.2.trans h'.2.symm⟩
      ((List.pairwise_cons.1 hpw).1 row' List.mem_cons_self)

/-- The pairs come in the order of their numbers, each number once. -/
theorem DistinctRequests.pairwise_pairs (hd : db.DistinctRequests) :
    db.pairs.Pairwise fun a b => a.txId < b.txId := by
  refine List.pairwise_flatMap.2 ⟨?_, ?_⟩
  · rintro ⟨r, txId⟩ -
    simp only
    cases hq : db.requestsOf r with
    | nil => exact .nil
    | cons q qs =>
      have hone := hd.requestsOf_eq (r := r) (q := q) (by simp [hq])
      rw [← hq, hone]
      exact List.pairwise_singleton _ _
  · apply db.results.pairwise_numbered.imp
    rintro ⟨r, txId⟩ ⟨r', txId'⟩ hlt m hm m' hm'
    obtain ⟨q, -, rfl⟩ := List.mem_map.1 hm
    obtain ⟨q', -, rfl⟩ := List.mem_map.1 hm'
    exact hlt

/-- The ranking goes strictly from newer to older. -/
theorem DistinctRequests.pairwise_ranking (hd : db.DistinctRequests) :
    (db.ranking bounds filters).Pairwise Match.Newer := by
  have hle : (db.ranking bounds filters).Pairwise fun a b => a.notOlder b = true :=
    List.pairwise_mergeSort Match.notOlder_trans Match.notOlder_total _
  have hne : (db.ranking bounds filters).Pairwise fun a b => a.txId ≠ b.txId := by
    apply ((List.mergeSort_perm _ _).pairwise_iff fun h => Ne.symm h).2
    exact (hd.pairwise_pairs.sublist List.filter_sublist).imp Nat.ne_of_lt
  exact (hle.and hne).imp fun h => Match.newer_of_notOlder h.1 h.2

/-- The candidates are the pairs within bounds. -/
theorem candidates_eq : db.candidates bounds =
    (db.pairs.filter fun m => admitsHeight bounds m.result.height).map Match.candidate := by
  unfold candidates pairs
  rw [List.filter_flatMap, List.map_flatMap]
  apply List.flatMap_congr
  rintro ⟨r, txId⟩ _
  simp only
  by_cases h : admitsHeight bounds r.height = true
  · rw [if_pos h, List.filter_eq_self.2]
    · simp [Function.comp_def, Match.candidate]
    · simp [h]
  · rw [if_neg h, List.filter_eq_nil_iff.2]
    · rfl
    · simp [h]

/-- The first step of a search gives the head of the ranking. -/
theorem newestMatches_eq {limit : Nat} : db.newestMatches bounds filters limit =
    ((db.ranking bounds filters).take limit).map Match.candidate := by
  unfold newestMatches ranking selected
  have hfilter : db.pairs.filter (fun m => admitsHeight bounds m.result.height &&
        filters.all (db.meets m.txId)) =
      (db.pairs.filter fun m => admitsHeight bounds m.result.height).filter
        fun m => filters.all (db.meets m.candidate.txId) := by
    rw [List.filter_filter]
    exact List.filter_congr fun m _ => Bool.and_comm _ _
  rw [candidates_eq, List.filter_map, List.map_take, hfilter]
  refine congrArg (List.take limit) (Eq.symm ?_)
  exact List.map_mergeSort (s := Candidate.isNewer) fun _ _ _ _ => rfl

/-- The second step of a search finds a pair again, once. -/
theorem DistinctRequests.joined_eq (hd : db.DistinctRequests) {m : Match} (hm : m ∈ db.pairs) :
    db.joined m.txId = [m.stored] := by
  obtain ⟨hnum, hq⟩ := mem_pairs.1 hm
  rw [joined, hnum]
  simp only [hd.requestsOf_eq (mem_requestsOf.2 hq)]
  rfl

/-- **The two steps of a search give the head of the ranking.** The second step looks up again what
the first has found by its number, and finds that one row. -/
theorem DistinctRequests.search_eq (hd : db.DistinctRequests) (chainId : String) (p : Plan) :
    db.search chainId p =
      match p.window.bounds? (db.tip? chainId) with
      | none => []
      | some bounds => ((db.ranking bounds p.filters).take p.limit.toNat).map Match.stored := by
  unfold search
  cases p.window.bounds? (db.tip? chainId) with
  | none => rfl
  | some bounds =>
    simp only
    rw [newestMatches_eq, List.flatMap_map, List.map_eq_flatMap]
    apply List.flatMap_congr
    intro m hm
    exact hd.joined_eq (mem_ranking.1 (List.mem_of_mem_take hm)).1

end Database
end TxIndex
