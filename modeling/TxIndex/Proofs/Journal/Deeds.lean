import TxIndex.Proofs.Journal.Events

/-! # Deeds

A deed is a unit of work that succeeded: it recorded its block, its result or its request, or found
the place taken. Deeds done one after the other lead from a journal to another (`Leads`). What is
new there are the entries of the deeds, of those for one place the first, if the place was free
(`Leads.eq_append`). -/
namespace TxIndex

/-- A unit of work that succeeded. -/
inductive Deed where
  | block (chainId : String) (b : BlockEvents)
  | result (chainId : String) (r : TxResult)
  | request (chainId : String) (b : BlockEvents) (q : TxRequest) (isNew : Bool)

namespace Deed

/-- The entries that a unit of work has for the database. A request brings its block along. -/
def entries : Deed → List Entry
  | .block c b => [.block c b]
  | .result c r => [.result c r]
  | .request c b q _ => [.block c b, .request c b.height q]

/-- A request was inserted and found to be new. -/
def isInsertion : Deed → Bool
  | .request _ _ _ isNew => isNew
  | _ => false

end Deed

/-- The deeds, done one after the other, lead from a journal to another. A result was done if its
block was there, and a request was new if its place was free. -/
inductive Leads : Journal → List Deed → Journal → Prop where
  | nil {j : Journal} : Leads j [] j
  | block {j k : Journal} {c : String} {b : BlockEvents} {ds : List Deed}
    (rest : Leads (j.record (.block c b)) ds k) : Leads j (.block c b :: ds) k
  | result {j k : Journal} {c : String} {r : TxResult} {ds : List Deed}
    (home : j.Holds (.block c r.height)) (rest : Leads (j.record (.result c r)) ds k) :
    Leads j (.result c r :: ds) k
  | request {j k : Journal} {c : String} {b : BlockEvents} {q : TxRequest} {ds : List Deed}
    (rest : Leads ((j.record (.block c b)).record (.request c b.height q)) ds k) :
    Leads j (.request c b q (decide (¬ j.Holds (.request c b.height q.index))) :: ds) k

namespace Journal

variable {j : Journal} {e : Entry}

/-- What is left of later entries is what they have for places that are free. -/
theorem record_append_filter (h : e.place.home = e.place ∨ j.Holds e.place.home)
    (es : List Entry) :
    j.record e ++ (firstOfEach Entry.place es).filter (fun e' => ¬ (j.record e).Holds e'.place) =
      j ++ (firstOfEach Entry.place (e :: es)).filter fun e' => ¬ j.Holds e'.place := by
  rw [firstOfEach]
  by_cases hp : j.Holds e.place
  · rw [record_of_holds hp, List.filter_cons_of_neg (by simpa using hp), List.filter_filter]
    congr 1
    apply List.filter_congr
    intro e' _
    by_cases hp' : j.Holds e'.place
    · simp [hp']
    · have hne : e'.place ≠ e.place := fun heq => hp' (heq ▸ hp)
      simp [hp', hne]
  · rw [record_of_accepts ⟨hp, h⟩, List.filter_cons_of_pos (by simpa using hp),
      List.filter_filter, List.append_assoc, List.singleton_append]
    congr 2
    apply List.filter_congr
    intro e' _
    simp [holds_snoc, eq_comm]

theorem sum_requestCount_record : ((j.record e).map Entry.requestCount).sum =
    (j.map Entry.requestCount).sum + if j.Accepts e then e.requestCount else 0 := by
  unfold Journal.record
  split <;> simp

end Journal

namespace Leads

variable {i j k : Journal} {ds ds' : List Deed}

theorem append (h : Leads i ds j) (h' : Leads j ds' k) : Leads i (ds ++ ds') k := by
  induction h with
  | nil => exact h'
  | block _ ih => exact .block (ih h')
  | result home _ ih => exact .result home (ih h')
  | request _ ih => exact .request (ih h')

theorem valid (h : Leads j ds k) (hv : j.Valid) : k.Valid := by
  induction h with
  | nil => exact hv
  | block _ ih => exact ih hv.record
  | result _ _ ih => exact ih hv.record
  | request _ ih => exact ih hv.record.record

/-- The journal grows by the entries of the deeds whose places are free, the first of each place. -/
theorem eq_append (h : Leads j ds k) : k = j ++
    (firstOfEach Entry.place (ds.flatMap Deed.entries)).filter fun e => ¬ j.Holds e.place := by
  induction h with
  | nil => simp [firstOfEach]
  | block _ ih => exact ih.trans (Journal.record_append_filter (.inl rfl) _)
  | result home _ ih => exact ih.trans (Journal.record_append_filter (.inr home) _)
  | @request j k c b q ds _ ih =>
    have hb := Journal.holds_record_block (j := j) c b
    exact ih.trans ((Journal.record_append_filter (.inr hb) _).trans
      (Journal.record_append_filter (.inl rfl) _))

theorem eq_of_nil (h : Leads [] ds k) :
    k = firstOfEach Entry.place (ds.flatMap Deed.entries) := by
  rw [h.eq_append, List.nil_append, List.filter_eq_self]
  simp

/-- As many requests were recorded as were found to be new. -/
theorem requestCount_eq (h : Leads j ds k) : (k.map Entry.requestCount).sum =
    (j.map Entry.requestCount).sum + ds.countP Deed.isInsertion := by
  induction h with
  | nil => simp
  | block _ ih =>
    rw [ih, Journal.sum_requestCount_record]
    simp [Entry.requestCount, Deed.isInsertion]
  | result _ _ ih =>
    rw [ih, Journal.sum_requestCount_record]
    simp [Entry.requestCount, Deed.isInsertion]
  | @request j k c b q ds _ ih =>
    have hb := Journal.holds_record_block (j := j) c b
    have haccepts : (j.record (.block c b)).Accepts (.request c b.height q) ↔
        ¬ j.Holds (.request c b.height q.index) := by
      rw [Journal.Accepts, Journal.holds_record_iff (.inl rfl)]
      exact ⟨fun h h' => h.1 (.inl h'), fun h => ⟨by simpa using h, .inr hb⟩⟩
    rw [ih, Journal.sum_requestCount_record, Journal.sum_requestCount_record, List.countP_cons]
    by_cases hr : j.Holds (.request c b.height q.index)
    · simp [Entry.requestCount, Deed.isInsertion, haccepts, hr]
    · simp [Entry.requestCount, Deed.isInsertion, haccepts, hr, Nat.add_comm, Nat.add_left_comm]

end Leads

end TxIndex
