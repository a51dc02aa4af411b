import TxIndex.Proofs.Journal.Actions
import TxIndex.Proofs.Journal.Search

/-! # The journal of one chain

Several chains share one journal, and each has its part of it (`Journal.ofChain`). Recording looks at
places of its own chain only: on the part of a chain an action of that chain does what it does on the
whole (`Action.Projects`), and the actions of other chains do nothing. So does the search in one
respect: the heights of a chain are those of its part. But it ranks the postings of all chains, and
the postings of a part are no more than a filter of these (`Journal.postings_ofChain`). -/
namespace TxIndex
namespace Journal

variable {j : Journal} {c : String} {e : Entry} {p : Place}

/-- The entries of a chain. -/
def ofChain (c : String) (j : Journal) : Journal := j.filter fun e => e.chainId = c

@[simp] theorem ofChain_nil : Journal.ofChain c [] = [] := rfl

theorem mem_ofChain : e ∈ j.ofChain c ↔ e ∈ j ∧ e.chainId = c := by
  simp [ofChain]

/-- A place of the chain is taken in the part exactly if it is in the whole. -/
theorem holds_ofChain (hp : p.chainId = c) : (j.ofChain c).Holds p ↔ j.Holds p := by
  constructor
  · rintro ⟨e, he, rfl⟩
    exact ⟨e, (mem_ofChain.1 he).1, rfl⟩
  · rintro ⟨e, he, rfl⟩
    exact ⟨e, mem_ofChain.2 ⟨he, hp⟩, rfl⟩

theorem accepts_ofChain (he : e.chainId = c) : (j.ofChain c).Accepts e ↔ j.Accepts e := by
  have hhome : e.place.home.chainId = c := (Place.chainId_home _).trans he
  rw [Accepts, Accepts, holds_ofChain he, holds_ofChain hhome]

/-- Recording an entry of the chain in the part records it in the whole. -/
theorem record_ofChain (he : e.chainId = c) : (j.ofChain c).record e = (j.record e).ofChain c := by
  by_cases h : j.Accepts e
  · rw [record_of_accepts h, record_of_accepts ((accepts_ofChain he).2 h)]
    simp [ofChain, he]
  · rw [record_of_not_accepts h, record_of_not_accepts fun h' => h ((accepts_ofChain he).1 h')]

/-- An entry of another chain leaves the part as it is. -/
theorem ofChain_record_of_ne (he : e.chainId ≠ c) : (j.record e).ofChain c = j.ofChain c := by
  by_cases h : j.Accepts e
  · rw [record_of_accepts h]
    simp [ofChain, he]
  · rw [record_of_not_accepts h]

end Journal

namespace Action

variable {α : Type} {c : String}

/-- On the part of a chain the action does what it does on the whole. -/
def Projects (c : String) (act : Action Journal α) : Prop :=
  ∀ j : Journal, act (j.ofChain c) = ((act j).1, (act j).2.ofChain c)

theorem projects_each {act : α → Action Journal Unit} {as : List α}
    (h : ∀ a ∈ as, (act a).Projects c) : (each act as).Projects c := by
  induction as with
  | nil => exact fun j => rfl
  | cons a as ih =>
    intro j
    have ha := h a List.mem_cons_self j
    have ih := ih fun b hb => h b (List.mem_cons_of_mem _ hb)
    rcases hact : act a j with ⟨answer, k⟩
    rw [hact] at ha
    cases answer with
    | ok _ =>
      rw [each_cons_ok act hact, each_cons_ok act ha]
      exact ih k
    | error failure => rw [each_cons_error act hact, each_cons_error act ha]

end Action

namespace Journal

variable {c : String}

theorem projects_indexBlock (c : String) (b : BlockEvents) :
    Action.Projects c (fun j => indexBlock c b j) :=
  fun _ => congrArg (Prod.mk _) (record_ofChain rfl)

theorem projects_indexTx (c : String) (r : TxResult) :
    Action.Projects c (fun j => indexTx c r j) := by
  intro j
  unfold indexTx
  cases Encoding.encodeResult r with
  | error failure => rfl
  | ok blob =>
    have hplace : (j.ofChain c).Holds (.block c r.height) ↔ j.Holds (.block c r.height) :=
      holds_ofChain rfl
    have hresult : (Entry.result c r).chainId = c := rfl
    simp only [hplace, record_ofChain hresult]
    split <;> rfl

theorem projects_indexTxs (c : String) (rs : List TxResult) :
    Action.Projects c (fun j => indexTxs c rs j) :=
  Action.projects_each fun r _ => projects_indexTx c r

theorem projects_insertRequest (c : String) (b : BlockEvents) (q : TxRequest) :
    Action.Projects c (fun j => insertRequest c b q j) := by
  intro j
  have hplace : (j.ofChain c).Holds (.request c b.height q.index) ↔
      j.Holds (.request c b.height q.index) := holds_ofChain rfl
  have hblock : (Entry.block c b).chainId = c := rfl
  have hrequest : (Entry.request c b.height q).chainId = c := rfl
  simp only [insertRequest, hplace, record_ofChain hblock, record_ofChain hrequest]

theorem projects_insertTx (t : TxIndexer) (req : FinalizeRequest) (res : FinalizeResponse)
    (tx : List UInt8 × Nat) : Action.Projects t.store.chainId (insertTx t req res tx) := by
  intro j
  unfold insertTx
  cases t.request req tx.2 tx.1 with
  | error failure => rfl
  | ok q =>
    have hblock : (Entry.block t.store.chainId (.ofFinalized req res)).chainId =
      t.store.chainId := rfl
    have hrequest : (Entry.request t.store.chainId req.height q).chainId = t.store.chainId := rfl
    simp only [record_ofChain hblock, record_ofChain hrequest]

/-! ## The search on a part -/

variable {j : Journal}

theorem Valid.ofChain (hv : j.Valid) : (j.ofChain c).Valid := by
  induction hv with
  | nil => exact .nil
  | @snoc j e hv ha ih =>
    by_cases he : e.chainId = c
    · rw [← record_of_accepts ha, ← record_ofChain he]
      exact ih.record
    · rw [← record_of_accepts ha, ofChain_record_of_ne he]
      exact ih

theorem results_ofChain (j : Journal) (c : String) :
    (j.ofChain c).results = j.results.filter fun cr => cr.1 = c := by
  rw [ofChain, results, results, List.filterMap_filter, List.filter_filterMap]
  apply List.filterMap_congr
  intro e _
  cases e with
  | result c' r =>
    by_cases h : c' = c <;> simp [Entry.chainId, Place.chainId, Option.filter, h]
  | block | request => simp

theorem requestsAt_ofChain (j : Journal) (c : String) (h : Int64) (i : UInt32) :
    (j.ofChain c).requestsAt c h i = j.requestsAt c h i := by
  rw [ofChain, requestsAt, requestsAt, List.filterMap_filter]
  apply List.filterMap_congr
  intro e _
  cases e with
  | request c' h' q =>
    by_cases hc : c' = c <;> simp [Entry.chainId, Place.chainId, hc]
  | block | result => simp

theorem heights_ofChain (j : Journal) (c : String) : (j.ofChain c).heights c = j.heights c := by
  rw [ofChain, heights, heights, List.filterMap_filter]
  apply List.filterMap_congr
  intro e _
  cases e with
  | block c' b => by_cases hc : c' = c <;> simp [Entry.chainId, Place.chainId, hc]
  | result | request => simp

/-- Where items that are dropped have no image, dropping them does not show. -/
theorem flatMap_filter_eq {α β : Type} {p : α → Bool} {f g : α → List β} {l : List α}
    (hpos : ∀ a, p a = true → f a = g a) (hneg : ∀ a, ¬ p a = true → g a = []) :
    (l.filter p).flatMap f = l.flatMap g := by
  induction l with
  | nil => rfl
  | cons a l ih =>
    rw [List.flatMap_cons]
    by_cases ha : p a = true
    · rw [List.filter_cons_of_pos ha, List.flatMap_cons, ih, hpos a ha]
    · rw [List.filter_cons_of_neg ha, ih, hneg a ha, List.nil_append]

/-- The postings of the part are those of the chain. -/
theorem postings_ofChain (j : Journal) (c : String) :
    (j.ofChain c).postings = j.postings.filter fun p => p.chainId = c := by
  rw [postings, postings, results_ofChain, List.filter_flatMap]
  refine flatMap_filter_eq (fun cr hcr => ?_) fun cr hcr => ?_
  · obtain rfl := of_decide_eq_true hcr
    simp only [requestsAt_ofChain]
    refine (List.filter_eq_self.2 fun p hp => ?_).symm
    obtain ⟨q, -, rfl⟩ := List.mem_map.1 hp
    exact decide_eq_true rfl
  · apply List.filter_eq_nil_iff.2
    intro p hp
    obtain ⟨q, -, rfl⟩ := List.mem_map.1 hp
    exact hcr

/-- The ranking of the part is that of the chain. -/
theorem ranking_ofChain (j : Journal) (c : String) (bounds : List (Comparison × Int64))
    (filters : List Condition) : (j.ofChain c).ranking bounds filters =
      (j.ranking bounds filters).filter fun p => p.chainId = c := by
  rw [ranking, ranking, postings_ofChain, ← newestFirst_filter, List.filter_filter,
    List.filter_filter]
  exact congrArg _ (List.filter_congr fun p _ => Bool.and_comm _ _)

end Journal
end TxIndex
