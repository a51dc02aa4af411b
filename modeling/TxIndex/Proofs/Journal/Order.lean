import Mathlib.Algebra.Ring.Nat
import Mathlib.Data.List.Perm.Basic
import TxIndex.Proofs.Journal.Search
import TxIndex.Proofs.Search.Meaning
import TxIndex.Proofs.Wire.RoundTrip

/-! # The order of entries

Two journals with the same entries in different orders differ in their row numbers, and row numbers
decide between hits of one height. If in both the results of each height come in the order of their
positions (`Journal.Ascending`), nothing else of the order shows: all searches and the numbers of
rows agree (`Journal.search_eq_of_perm`, `Journal.Valid.events_size`,
`Journal.Valid.requests_size`).

Sorting by height and then by number makes no use of the numbers as such, but of which of two
postings is the earlier; if the results of a height come in the order of their positions, positions
can stand in for numbers (`Journal.Ascending.pairwise_ranking`). Two ranked lists with the same
members, in an order that excludes its opposite (`Posting.Before`), are the same list. -/
namespace TxIndex

namespace Posting

/-- The first lies higher, or at the same height and further back in its block. -/
def Before (p p' : Posting) : Prop :=
  p'.height < p.height ∨ p.height = p'.height ∧ p'.result.index < p.result.index

theorem Before.asymm {p p' : Posting} (h : p.Before p') : ¬ p'.Before p := by
  intro h'
  simp only [Before, Int64.lt_iff_toInt_lt, ← Int64.toInt_inj, UInt32.lt_iff_toNat_lt] at h h'
  omega

end Posting

/-- Of two rows of one height, the first is of a transaction further back in its block. -/
def StoredTx.Descends (row row' : StoredTx) : Prop :=
  row.height = row'.height → ∃ r r', Encoding.decodeResult row.result = .ok r ∧
    Encoding.decodeResult row'.result = .ok r' ∧ r'.index < r.index

namespace Journal

variable {j k : Journal}

/-- At each height results come in the order of their positions. -/
def Ascending (j : Journal) : Prop :=
  j.results.Pairwise fun a b => a.2.height = b.2.height → a.2.index < b.2.index

/-- Hits of an ascending journal come by height and position. -/
theorem Ascending.pairwise_ranking (ha : j.Ascending) (hv : j.Valid)
    (bounds : List (Comparison × Int64)) (filters : List Condition) :
    (j.ranking bounds filters).Pairwise Posting.Before := by
  have hpostings : j.postings.Pairwise fun p p' =>
      p.height = p'.height → p.result.index < p'.result.index := by
    refine List.pairwise_flatMap.2 ⟨?_, ?_⟩
    · -- At the place of one result there is one posting.
      intro cr hcr
      have hplaces := hv.pairwise_postings
      have hone := (List.pairwise_flatMap.1 hplaces).1 cr hcr
      apply hone.imp_of_mem
      intro p p' hp hp' hne
      obtain ⟨q, -, rfl⟩ := List.mem_map.1 hp
      obtain ⟨q', -, rfl⟩ := List.mem_map.1 hp'
      exact absurd rfl hne
    · apply ha.imp
      intro cr cr' hlt p hp p' hp'
      obtain ⟨q, -, rfl⟩ := List.mem_map.1 hp
      obtain ⟨q', -, rfl⟩ := List.mem_map.1 hp'
      exact hlt
  have hsorted : (j.ranking bounds filters).Pairwise fun p p' => p'.height < p.height ∨
      p.height = p'.height ∧ (p'.height = p.height → p'.result.index < p.result.index) :=
    pairwise_newestFirst (hpostings.sublist List.filter_sublist)
  exact hsorted.imp fun h => h.imp_right fun ⟨hh, hlt⟩ => ⟨hh, hlt hh.symm⟩

/-- Answers of an ascending journal come by position within a height. -/
theorem Ascending.pairwise_search (ha : j.Ascending) (hv : j.Valid)
    (hfits : ∀ c r, .result c r ∈ j → Wire.txResult.fits r = true) (c : String) (p : Plan) :
    (j.search c p).Pairwise StoredTx.Descends := by
  have hread : ∀ p' ∈ j.postings, Encoding.decodeResult p'.stored.result = .ok p'.result := by
    intro p' hp'
    have hencode : Encoding.encodeResult p'.result = .ok (Wire.txResult.encode p'.result) :=
      if_pos (hfits _ _ (mem_postings.1 hp').1)
    exact Encoding.decodeResult_of_encode hencode
  rw [search]
  cases p.window.bounds? (j.heights c).max? with
  | none => exact .nil
  | some bounds =>
    refine List.pairwise_map.2 (.sublist (List.take_sublist _ _) ?_)
    apply (ha.pairwise_ranking hv bounds p.filters).imp_of_mem
    intro a b hm hm' hbefore heq
    refine ⟨_, _, hread a (mem_ranking.1 hm).1, hread b (mem_ranking.1 hm').1, ?_⟩
    rcases hbefore with hlt | ⟨-, hlt⟩
    · have hsame : a.height = b.height := heq
      rw [hsame] at hlt
      exact absurd hlt Int64.lt_irrefl
    · exact hlt

/-! ## Journals with the same entries -/

theorem requestsAt_perm (h : j.Perm k) (c : String) (height : Int64) (i : UInt32) :
    (j.requestsAt c height i).Perm (k.requestsAt c height i) := h.filterMap _

theorem postings_perm (h : j.Perm k) : j.postings.Perm k.postings := by
  have hresults : j.results.Perm k.results := h.filterMap _
  apply hresults.flatMap
  intro cr _
  exact (requestsAt_perm h _ _ _).map _

/-- The greatest height is the same. -/
theorem max?_heights_perm (h : j.Perm k) (c : String) :
    (j.heights c).max? = (k.heights c).max? := by
  have hheights : (j.heights c).Perm (k.heights c) := h.filterMap _
  apply Option.ext
  intro height
  rw [List.max?_eq_some_iff, List.max?_eq_some_iff, hheights.mem_iff]
  simp only [hheights.mem_iff]

/-- **Searches do not depend on the order of entries**, as long as the results of each height come
in the order of their positions. The postings are then the same, and so is their ranking, since of
two at one height it is the position that decides. -/
theorem search_eq_of_perm (h : j.Perm k) (hj : j.Valid) (hk : k.Valid) (ha : j.Ascending)
    (ha' : k.Ascending) (c : String) (p : Plan) : j.search c p = k.search c p := by
  rw [search, search, max?_heights_perm h]
  cases p.window.bounds? (k.heights c).max? with
  | none => rfl
  | some bounds =>
    have hperm : (j.ranking bounds p.filters).Perm (k.ranking bounds p.filters) :=
      (newestFirst_perm _).trans (((postings_perm h).filter _).trans (newestFirst_perm _).symm)
    have heq : j.ranking bounds p.filters = k.ranking bounds p.filters :=
      hperm.eq_of_pairwise (fun a b _ _ hab hba => absurd hba hab.asymm)
        (ha.pairwise_ranking hj bounds p.filters) (ha'.pairwise_ranking hk bounds p.filters)
    simp only [heq]

end Journal

/-! ## Numbers of rows -/

namespace Entry

/-- The number of events that an entry brings. -/
def eventCount : Entry → Nat
  | .block _ b => b.recordedEvents.length
  | .result _ r => (r.recordedEvents (txHash r.tx)).length
  | .request _ _ _ => 0

/-- The number of requests that an entry brings. -/
def requestCount : Entry → Nat
  | .request _ _ _ => 1
  | _ => 0

end Entry

namespace Database

theorem size_events_addEvents (db : Database) (blockId : Nat) (txId : Option Nat)
    (es : List Event) :
    (db.addEvents blockId txId es).events.size = db.events.size + es.length := by
  induction es generalizing db with
  | nil => rfl
  | cons e es ih =>
    have hone : (addEvent blockId txId db e).events.size = db.events.size + 1 :=
      Table.size_insert _ _
    rw [addEvents_cons, ih, hone, List.length_cons, Nat.add_assoc, Nat.add_comm 1]

end Database

namespace Journal

variable {j k : Journal} {e : Entry}

theorem size_events_add (ha : j.Accepts e) :
    (j.database.add e).events.size = j.database.events.size + e.eventCount := by
  cases e with
  | block c b => exact Database.size_events_addEvents _ _ _ _
  | result c r =>
    obtain ⟨id, hid⟩ := ha.exists_blockId? rfl (by simp)
    simp only [Database.add, hid]
    exact Database.size_events_addEvents _ _ _ _
  | request c h q =>
    simp only [Database.add]
    split <;> rfl

theorem size_requests_add (ha : j.Accepts e) :
    (j.database.add e).requests.size = j.database.requests.size + e.requestCount := by
  cases e with
  | block c b => simp [Database.add, Database.addBlock, Entry.requestCount]
  | result c r =>
    simp only [Database.add]
    split <;> simp [Database.addResult, Entry.requestCount]
  | request c h q =>
    obtain ⟨id, hid⟩ := ha.exists_blockId? rfl (by simp)
    simp only [Database.add, hid]
    exact Table.size_insert _ _

/-- The number of events is the sum of what the entries bring. -/
theorem Valid.events_size (hv : j.Valid) :
    j.database.events.size = (j.map Entry.eventCount).sum := by
  induction hv with
  | nil => rfl
  | @snoc j e _ ha ih =>
    rw [database_snoc, size_events_add ha, ih, List.map_append, List.sum_append]
    simp

/-- The number of requests is the sum of what the entries bring. -/
theorem Valid.requests_size (hv : j.Valid) :
    j.database.requests.size = (j.map Entry.requestCount).sum := by
  induction hv with
  | nil => rfl
  | @snoc j e _ ha ih =>
    rw [database_snoc, size_requests_add ha, ih, List.map_append, List.sum_append]
    simp

end Journal
end TxIndex
