import TxIndex.Action

/-! # Repeated actions

An action for each item of a list ends at the first item on which it fails. If what was done for the
items before makes no difference to whether it fails (`Action.Decided`), that item can be told
beforehand, and the state that is left is that of the list in front of it
(`Action.Decided.each_eq`). -/
namespace TxIndex

/-- The first item of a list with a property, and its position. -/
def IsFirst {α : Type} (p : α → Prop) (as : List α) (k : Nat) (a : α) : Prop :=
  as[k]? = some a ∧ p a ∧ ∀ b ∈ as.take k, ¬ p b

section First

variable {α : Type} {p : α → Prop} {as : List α} {k : Nat} {a : α}

theorem forall_not_or_exists_isFirst (p : α → Prop) (as : List α) :
    (∀ a ∈ as, ¬ p a) ∨ ∃ k a, IsFirst p as k a := by
  induction as with
  | nil => exact .inl fun a ha => absurd ha List.not_mem_nil
  | cons a as ih =>
    by_cases ha : p a
    · exact .inr ⟨0, a, rfl, ha, fun b hb => absurd hb List.not_mem_nil⟩
    · rcases ih with hnone | ⟨k, a', hk, ha', hbefore⟩
      · exact .inl (List.forall_mem_cons.2 ⟨ha, hnone⟩)
      · exact .inr ⟨k + 1, a', hk, ha', List.forall_mem_cons.2 ⟨ha, hbefore⟩⟩

/-- The list in front of the item, the item, and what follows. -/
theorem split_at_getElem? (h : as[k]? = some a) : as = as.take k ++ a :: as.drop (k + 1) := by
  obtain ⟨hk, rfl⟩ := List.getElem?_eq_some_iff.1 h
  rw [← List.drop_eq_getElem_cons hk, List.take_append_drop]

theorem mem_take_succ (h : as[k]? = some a) {b : α} :
    b ∈ as.take (k + 1) ↔ b ∈ as.take k ∨ b = a := by
  rw [List.take_add_one, h, List.mem_append, Option.toList_some, List.mem_singleton]

theorem zipIdx_take (as : List α) (k : Nat) : (as.take k).zipIdx = as.zipIdx.take k := by
  apply List.ext_getElem?
  intro i
  rw [List.getElem?_zipIdx, List.getElem?_take, List.getElem?_take, List.getElem?_zipIdx]
  by_cases hi : i < k
  · rw [if_pos hi, if_pos hi]
  · rw [if_neg hi, if_neg hi, Option.map_none]

end First

namespace Action

variable {σ α : Type}

/-- In states of a kind the item alone decides how its action ends. Either something is done, and
the state stays of the kind, or the action fails and does nothing. -/
structure Decided (P : σ → Prop) (fault? : α → Option Failure) (act : α → Action σ Unit) :
    Prop where
  done : ∀ a s, P s → fault? a = none → ∃ t, act a s = (.ok (), t) ∧ P t
  failed : ∀ a s failure, P s → fault? a = some failure → act a s = (.error failure, s)

namespace Decided

variable {P : σ → Prop} {fault? : α → Option Failure} {act : α → Action σ Unit} {as : List α}
  {s : σ}

theorem each_ok (h : Decided P fault? act) (hs : P s) (hnone : ∀ a ∈ as, fault? a = none) :
    ∃ t, each act as s = (.ok (), t) := by
  induction as generalizing s with
  | nil => exact ⟨s, rfl⟩
  | cons a as ih =>
    obtain ⟨ha, hnone⟩ := List.forall_mem_cons.1 hnone
    obtain ⟨t, hact, ht⟩ := h.done a s hs ha
    rw [each_cons_ok act hact]
    exact ih ht hnone

theorem each_append_error (h : Decided P fault? act) (hs : P s) {before : List α} {a : α}
    {failure : Failure} (hnone : ∀ b ∈ before, fault? b = none) (ha : fault? a = some failure)
    (after : List α) :
    each act (before ++ a :: after) s = (.error failure, (each act before s).2) := by
  induction before generalizing s with
  | nil => exact each_cons_error act (h.failed a s failure hs ha)
  | cons b before ih =>
    obtain ⟨hb, hnone⟩ := List.forall_mem_cons.1 hnone
    obtain ⟨t, hact, ht⟩ := h.done b s hs hb
    rw [List.cons_append, each_cons_ok act hact, each_cons_ok act hact]
    exact ih ht hnone

/-- **The first item that fails ends the repetition**, and what it leaves is what the items in front
leave. Whether an item fails depends on the item alone, as long as the state has a property that the
items in front keep. -/
theorem each_eq (h : Decided P fault? act) (hs : P s) {k : Nat} {a : α} {failure : Failure}
    (hk : as[k]? = some a) (ha : fault? a = some failure)
    (hnone : ∀ b ∈ as.take k, fault? b = none) :
    each act as s = (.error failure, (each act (as.take k) s).2) ∧
      (each act (as.take k) s).1 = .ok () := by
  obtain ⟨t, hbefore⟩ := h.each_ok hs hnone
  refine ⟨?_, congrArg Prod.fst hbefore⟩
  have heach := h.each_append_error hs hnone ha (as.drop (k + 1))
  rwa [← split_at_getElem? hk] at heach

/-- A repetition that fails does so at its first item that fails. -/
theorem exists_of_each_error (h : Decided P fault? act) (hs : P s) {failure : Failure}
    (herror : (each act as s).1 = .error failure) : ∃ k a, as[k]? = some a ∧
      fault? a = some failure ∧ ∀ b ∈ as.take k, fault? b = none := by
  rcases forall_not_or_exists_isFirst (fun a => fault? a ≠ none) as with
    hnone | ⟨k, a, hk, ha, hbefore⟩
  · obtain ⟨t, heach⟩ := h.each_ok hs fun a ha => Classical.not_not.1 (hnone a ha)
    rw [heach] at herror
    cases herror
  · obtain ⟨failure', hfault⟩ := Option.ne_none_iff_exists'.1 ha
    have hnone : ∀ b ∈ as.take k, fault? b = none := fun b hb => Classical.not_not.1 (hbefore b hb)
    rw [(h.each_eq hs hk hfault hnone).1] at herror
    exact ⟨k, a, hk, hfault.trans (congrArg some (Except.error.inj herror)), hnone⟩

end Decided
end Action

end TxIndex
