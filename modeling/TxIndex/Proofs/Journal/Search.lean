import TxIndex.Proofs.Journal.Units
import TxIndex.Proofs.Search.Newest
import TxIndex.Proofs.Search.Ranking

/-! # Searching a journal

The answer of a search, said of the entries of a journal. A posting is a result with a request at
the same place of the same chain; a search takes the postings that meet the plan, the newest first,
up to the limit (`Journal.Valid.search_database`). No row number is left in this, so two databases
whose journals have the same postings in the same order give the same answers.

The step from tables to entries is made once: the joined rows of the tables correspond to the
postings, in their order (`Journal.Valid.shows_postings`). Filters and sorting respect such a
correspondence, so the ranked lists correspond as well (`Journal.Valid.shows_ranking`), and a hit is
made of what two corresponding items share (`Match.Shows.stored_eq`). -/
namespace TxIndex

/-- A result of a chain with a request at its place. -/
structure Posting where
  chainId : String
  result : TxResult
  request : TxRequest
deriving DecidableEq

namespace Posting

variable (p : Posting)

/-- The height of a posting. -/
def height : Int64 := p.result.height

/-- The row that a search gives for a posting. -/
def stored : StoredTx :=
  ⟨p.result.height, p.request.createdAt, txHash p.result.tx, p.request.messages, p.request.memo,
    p.request.fee, Wire.txResult.encode p.result⟩

/-- An attribute of the transaction is as the condition asks. -/
def meets (c : Condition) : Bool :=
  p.result.indexedValues.any fun kv => kv.1 = c.tag && c.test.holds kv.2

end Posting

namespace Match

/-- A match shows a posting: its row and its attributes are those of the posting. -/
structure Shows (db : Database) (m : Match) (p : Posting) : Prop where
  row : db.Shows (m.result, m.txId) (p.chainId, p.result)
  request : m.request = p.request

variable {db : Database} {m : Match} {p : Posting}

theorem Shows.stored_eq (h : m.Shows db p) : m.stored = p.stored := by
  have hheight : m.result.height = p.result.height := h.row.height
  have hhash : m.result.txHash = txHash p.result.tx := h.row.txHash
  have hblob : m.result.blob = Wire.txResult.encode p.result := h.row.blob
  simp [stored, Database.storedTx, Posting.stored, hheight, hhash, hblob, h.request]

theorem Shows.meets_eq (h : m.Shows db p) (c : Condition) : db.meets m.txId c = p.meets c := by
  rw [Bool.eq_iff_iff, Database.meets_iff, h.row.values, Posting.meets, List.any_eq_true]
  simp

/-- Since numbers grow along a list of matches, ranking them is sorting them by height. -/
theorem mergeSort_eq_newestFirst {ms : List Match} (h : ms.Pairwise fun a b => a.txId < b.txId) :
    ms.mergeSort notOlder = newestFirst (·.result.height) ms := by
  have hsorted : (ms.mergeSort notOlder).Pairwise fun a b => a.notOlder b = true :=
    List.pairwise_mergeSort notOlder_trans notOlder_total _
  have hnewest : (newestFirst (·.result.height) ms).Pairwise fun a b => a.notOlder b = true :=
    (pairwise_newestFirst h).imp fun h =>
      notOlder_iff.2 (h.imp_right fun ⟨hh, hlt⟩ => ⟨hh, Nat.le_of_lt hlt⟩)
  have hperm : (ms.mergeSort notOlder).Perm (newestFirst (·.result.height) ms) :=
    (List.mergeSort_perm ms notOlder).trans (newestFirst_perm ms).symm
  refine hperm.eq_of_pairwise ?_ hsorted hnewest
  intro a b ha hb hab hba
  have hid : a.txId = b.txId := by
    rw [notOlder_iff, Int64.lt_iff_toInt_lt, ← Int64.toInt_inj] at hab hba
    omega
  -- Matches of one number are one match.
  have hinj : (ms.map txId).Nodup := List.pairwise_map.2 (h.imp Nat.ne_of_lt)
  exact List.inj_on_of_nodup_map hinj (List.mem_mergeSort.1 ha) (mem_newestFirst.1 hb) hid

end Match

namespace Journal

variable {j : Journal}

/-- The requests at a place of a chain. -/
def requestsAt (j : Journal) (c : String) (h : Int64) (i : UInt32) : List TxRequest :=
  j.filterMap fun
    | .request c' h' q => if c' = c ∧ h' = h ∧ q.index = i then some q else none
    | _ => none

/-- Every result with the requests at its place, in the order of the results. -/
def postings (j : Journal) : List Posting :=
  j.results.flatMap fun (c, r) => (j.requestsAt c r.height r.index).map (⟨c, r, ·⟩)

/-- The heights recorded for a chain. -/
def heights (j : Journal) (chainId : String) : List Int64 :=
  j.filterMap fun
    | .block c b => if c = chainId then some b.height else none
    | _ => none

/-- The postings within bounds that meet all conditions, the newest first. -/
def ranking (j : Journal) (bounds : List (Comparison × Int64)) (filters : List Condition) :
    List Posting :=
  newestFirst Posting.height (j.postings.filter fun p =>
    Database.admitsHeight bounds p.height && filters.all p.meets)

/-- The transactions that a plan finds. -/
def search (j : Journal) (chainId : String) (p : Plan) : List StoredTx :=
  match p.window.bounds? (j.heights chainId).max? with
  | none => []
  | some bounds => ((j.ranking bounds p.filters).take p.limit.toNat).map Posting.stored

theorem mem_requestsAt {c : String} {h : Int64} {i : UInt32} {q : TxRequest} :
    q ∈ j.requestsAt c h i ↔ .request c h q ∈ j ∧ q.index = i := by
  simp only [requestsAt, List.mem_filterMap]
  constructor
  · rintro ⟨e, he, hq⟩
    cases e with
    | request c' h' q' =>
      simp only [Option.ite_none_right_eq_some] at hq
      obtain ⟨⟨rfl, rfl, rfl⟩, rfl⟩ := hq.imp_right Option.some.inj
      exact ⟨he, rfl⟩
    | block | result => simp at hq
  · rintro ⟨he, rfl⟩
    exact ⟨_, he, by simp⟩

theorem mem_postings {p : Posting} : p ∈ j.postings ↔ .result p.chainId p.result ∈ j ∧
    .request p.chainId p.result.height p.request ∈ j ∧ p.request.index = p.result.index := by
  simp only [postings, List.mem_flatMap, List.mem_map, Prod.exists]
  constructor
  · rintro ⟨c, r, hr, q, hq, rfl⟩
    exact ⟨mem_results.1 hr, mem_requestsAt.1 hq⟩
  · rintro ⟨hr, hq⟩
    exact ⟨_, _, mem_results.2 hr, _, mem_requestsAt.2 hq, rfl⟩

/-- No two postings share a place. -/
theorem Valid.pairwise_postings (hv : j.Valid) : j.postings.Pairwise fun p p' =>
    Place.result p.chainId p.result.height p.result.index ≠
      .result p'.chainId p'.result.height p'.result.index := by
  have hplaces := List.pairwise_map.1 hv.nodup_places
  refine List.pairwise_flatMap.2 ⟨?_, ?_⟩
  · -- At one place there are no two requests.
    rintro ⟨c, r⟩ -
    refine List.pairwise_map.2 (List.pairwise_filterMap.2 (hplaces.imp ?_))
    intro e e' hne q hq q' hq'
    cases e with
    | request c' h q₀ =>
      cases e' with
      | request c'' h' q₀' =>
        obtain ⟨⟨rfl, rfl, hi⟩, -⟩ := Option.ite_none_right_eq_some.1 hq
        obtain ⟨⟨rfl, rfl, hi'⟩, -⟩ := Option.ite_none_right_eq_some.1 hq'
        exact absurd (congrArg (Place.request _ _) (hi.trans hi'.symm)) hne
      | block | result => simp at hq'
    | block | result => simp at hq
  · refine List.pairwise_filterMap.2 (hplaces.imp ?_)
    intro e e' hne cr hcr cr' hcr' p hp p' hp'
    cases e with
    | result c r =>
      cases e' with
      | result c' r' =>
        obtain rfl := Option.some.inj hcr
        obtain rfl := Option.some.inj hcr'
        obtain ⟨q, -, rfl⟩ := List.mem_map.1 hp
        obtain ⟨q', -, rfl⟩ := List.mem_map.1 hp'
        exact hne
      | block | request => simp at hcr'
    | block | request => simp at hcr

theorem mem_ranking {bounds : List (Comparison × Int64)} {filters : List Condition} {p : Posting} :
    p ∈ j.ranking bounds filters ↔ p ∈ j.postings ∧
      Database.admitsHeight bounds p.height = true ∧ ∀ c ∈ filters, p.meets c = true := by
  simp [ranking, mem_newestFirst]

/-- The recorded heights are read off the blocks. -/
theorem heights_database (j : Journal) (c : String) : j.database.heights c = j.heights c := by
  rw [Database.heights, blocks_database, List.filter_filterMap, List.map_filterMap]
  apply List.filterMap_congr
  intro e _
  cases e with
  | block c' b => by_cases hc : c' = c <;> simp [Entry.blockRow?, hc]
  | result | request => rfl

theorem tip?_database (j : Journal) (c : String) : j.database.tip? c = (j.heights c).max? := by
  rw [Database.tip?, heights_database]

/-- The requests at the place of a row are those at the place of its result. -/
theorem Valid.requestsOf_database (hv : j.Valid) {numbered : ResultRow × Nat}
    {cr : String × TxResult} (h : j.database.Shows numbered cr) :
    j.database.requestsOf numbered.1 = j.requestsAt cr.1 cr.2.height cr.2.index := by
  rw [Database.requestsOf, hv.requests_database, List.filter_filterMap, List.map_filterMap]
  apply List.filterMap_congr
  intro e he
  cases e with
  | request c' h' q =>
    obtain ⟨id, hid⟩ := exists_blockId? (hv.holds_home he)
    have hiff : (id = numbered.1.blockId ∧ q.index = numbered.1.index) ↔
        c' = cr.1 ∧ h' = cr.2.height ∧ q.index = cr.2.index := by
      rw [h.index, Database.blockId?_eq_iff hid h.block, and_assoc]
    have hplace : Database.isRequest numbered.1.blockId numbered.1.index ⟨id, q⟩ =
        decide (c' = cr.1 ∧ h' = cr.2.height ∧ q.index = cr.2.index) := by
      rw [Bool.eq_iff_iff]
      simpa [Database.isRequest] using hiff
    simp only [Entry.requestRow?, hid, Option.map_some, Option.filter_some, hplace,
      decide_eq_true_eq]
    split <;> rfl
  | block | result => rfl

/-- The pairs of the tables show the postings of the journal, in their order. -/
theorem Valid.shows_postings (hv : j.Valid) :
    List.Forall₂ (Match.Shows j.database) j.database.pairs j.postings := by
  apply List.rel_flatMap hv.shows
  rintro ⟨row, txId⟩ ⟨c, r⟩ h
  simp only
  rw [hv.requestsOf_database h]
  refine List.forall₂_map_left_iff.2 (List.forall₂_map_right_iff.2 (List.forall₂_same.2 ?_))
  exact fun q _ => ⟨h, rfl⟩

theorem Valid.distinctRequests (hv : j.Valid) : j.database.DistinctRequests := by
  rw [Database.DistinctRequests, hv.requests_database, List.pairwise_filterMap]
  have hplaces := List.pairwise_map.1 hv.nodup_places
  apply hplaces.imp_of_mem
  intro e e' he he' hne row hrow row' hrow'
  cases e with
  | request c h q =>
    cases e' with
    | request c' h' q' =>
      obtain ⟨id, hid, rfl⟩ := Option.map_eq_some_iff.1 hrow
      obtain ⟨id', hid', rfl⟩ := Option.map_eq_some_iff.1 hrow'
      rintro ⟨rfl, hi⟩
      obtain ⟨rfl, rfl⟩ := Database.blockId?_inj hid hid'
      exact hne (congrArg (Place.request c h) hi)
    | block | result => simp [Entry.requestRow?] at hrow'
  | block | result => simp [Entry.requestRow?] at hrow

/-- Lists that correspond have the same images under maps that agree on what corresponds. -/
theorem map_eq_of_forall₂ {α β γ : Type} {R : α → β → Prop} {as : List α} {bs : List β}
    {f : α → γ} {g : β → γ} (hfg : ∀ a b, R a b → f a = g b) (h : List.Forall₂ R as bs) :
    as.map f = bs.map g := by
  have hmap := List.rel_map (P := Eq) (fun a b hab => hfg a b hab) h
  rwa [List.forall₂_eq_eq_eq] at hmap

/-- The ranking of the tables shows that of the journal. -/
theorem Valid.shows_ranking (hv : j.Valid) (bounds : List (Comparison × Int64))
    (filters : List Condition) : List.Forall₂ (Match.Shows j.database)
      (j.database.ranking bounds filters) (j.ranking bounds filters) := by
  have hnumbers : (j.database.selected bounds filters).Pairwise fun a b => a.txId < b.txId :=
    hv.distinctRequests.pairwise_pairs.sublist List.filter_sublist
  rw [Database.ranking, Match.mergeSort_eq_newestFirst hnumbers]
  apply forall₂_newestFirst (fun m p h => h.row.height)
  refine List.rel_filter (fun m p h => Bool.eq_iff_iff.1 ?_) hv.shows_postings
  rw [h.row.height, Posting.height]
  apply congrArg (Database.admitsHeight bounds p.result.height && ·)
  exact congrArg filters.all (funext h.meets_eq)

/-- No two ranked postings share a place. -/
theorem Valid.nodup_ranking (hv : j.Valid) (bounds : List (Comparison × Int64))
    (filters : List Condition) : ((j.ranking bounds filters).map fun a =>
      Place.result a.chainId a.height a.result.index).Nodup := by
  have hpostings : (j.postings.map fun a =>
      Place.result a.chainId a.height a.result.index).Nodup :=
    List.pairwise_map.2 hv.pairwise_postings
  exact ((newestFirst_perm _).map _).nodup_iff.2 (hpostings.sublist (List.filter_sublist.map _))

/-- An answer comes of postings, and no two of them share a place. -/
theorem Valid.exists_postings (hv : j.Valid) (c : String) (p : Plan) :
    ∃ found : List Posting, j.search c p = found.map Posting.stored ∧
      (∀ a ∈ found, a ∈ j.postings) ∧
      (found.map fun a => Place.result a.chainId a.height a.result.index).Nodup := by
  rw [search]
  cases p.window.bounds? (j.heights c).max? with
  | none => exact ⟨[], rfl, fun a ha => absurd ha List.not_mem_nil, .nil⟩
  | some bounds =>
    exact ⟨_, rfl, fun a ha => (mem_ranking.1 (List.mem_of_mem_take ha)).1,
      (hv.nodup_ranking bounds p.filters).sublist ((List.take_sublist _ _).map _)⟩

/-- **A search gives the head of the ranked postings.** What is left of the database in this are
heights, requests and the values of attributes, all of them read off the entries. -/
theorem Valid.search_database (hv : j.Valid) (c : String) (p : Plan) :
    j.database.search c p = j.search c p := by
  rw [hv.distinctRequests.search_eq, search, tip?_database]
  cases p.window.bounds? (j.heights c).max? with
  | none => rfl
  | some bounds =>
    simp only
    rw [List.map_take, List.map_take]
    apply congrArg (List.take p.limit.toNat)
    exact map_eq_of_forall₂ (fun m q h => h.stored_eq) (hv.shows_ranking bounds p.filters)

end Journal
end TxIndex
