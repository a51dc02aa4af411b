import Mathlib.Data.List.Forall2
import Mathlib.Data.List.Induction
import Mathlib.Data.List.Sort

/-! # The newest first

A list in the order of recording, sorted by height from the highest down, where of two items at one
height the later one comes first. It is the insertion sort of the list read backwards, so it depends
on nothing but the heights and the order of recording: it goes along with filters
(`newestFirst_filter`), lists that correspond stay so (`forall₂_newestFirst`), and any relation
between earlier and later items of the list holds between later and earlier ones at each height of
the sorted list (`pairwise_newestFirst`).

What is proved here is that insertion is stable in these three ways; that it permutes and sorts is
known of `List.orderedInsert` and `List.insertionSort`. -/
namespace TxIndex

section Newest

variable {α β : Type} (height : α → Int64)

/-- The first item lies no lower than the second, so it may stand before it. -/
abbrev NotBelow (a b : α) : Prop := height b ≤ height a

/-- The items of a list from the highest down, at each height from the last one back. -/
def newestFirst (l : List α) : List α := l.reverse.insertionSort (NotBelow height)

@[simp] theorem newestFirst_nil : newestFirst height ([] : List α) = [] := rfl

/-- An item that was recorded after all others stands before those that are no higher. -/
@[simp] theorem newestFirst_snoc (l : List α) (a : α) :
    newestFirst height (l ++ [a]) = (newestFirst height l).orderedInsert (NotBelow height) a := by
  simp [newestFirst]

variable {height}

theorem newestFirst_perm (l : List α) : (newestFirst height l).Perm l :=
  (List.perm_insertionSort _ _).trans l.reverse_perm

theorem mem_newestFirst {a : α} {l : List α} : a ∈ newestFirst height l ↔ a ∈ l :=
  (newestFirst_perm l).mem_iff

theorem pairwise_orderedInsert {Q : α → α → Prop} {a : α} {l : List α}
    (hl : l.Pairwise fun x y => height y < height x ∨ height x = height y ∧ Q y x)
    (ha : ∀ b ∈ l, Q b a) : (l.orderedInsert (NotBelow height) a).Pairwise
      fun x y => height y < height x ∨ height x = height y ∧ Q y x := by
  induction l with
  | nil => exact List.pairwise_singleton _ _
  | cons b bs ih =>
    obtain ⟨hb, hbs⟩ := List.pairwise_cons.1 hl
    rw [List.orderedInsert_cons]
    split
    · -- The new item comes first, and all behind the old head lie no higher than it.
      rename_i hle
      refine List.pairwise_cons.2 ⟨fun y hy => ?_, hl⟩
      have hy' : height y ≤ height a := by
        rcases List.mem_cons.1 hy with rfl | hy
        · exact hle
        · rcases hb y hy with h | ⟨h, -⟩
          · exact Int64.le_trans (Int64.le_of_lt h) hle
          · exact h ▸ hle
      rcases Int64.lt_or_eq_of_le hy' with h | h
      · exact .inl h
      · exact .inr ⟨h.symm, ha y hy⟩
    · -- The new item goes further back, below the old head.
      rename_i hlt
      refine List.pairwise_cons.2
        ⟨fun y hy => ?_, ih hbs fun b hb => ha b (List.mem_cons_of_mem _ hb)⟩
      rcases (List.mem_orderedInsert _).1 hy with rfl | hy
      · exact .inl (Int64.not_le.1 hlt)
      · exact hb y hy

/-- What holds between earlier and later items holds at each height between later and earlier
ones. -/
theorem pairwise_newestFirst {Q : α → α → Prop} {l : List α} (hl : l.Pairwise Q) :
    (newestFirst height l).Pairwise
      fun x y => height y < height x ∨ height x = height y ∧ Q y x := by
  induction l using List.reverseRecOn with
  | nil => exact .nil
  | append_singleton l a ih =>
    obtain ⟨hl, -, ha⟩ := List.pairwise_append.1 hl
    rw [newestFirst_snoc]
    exact pairwise_orderedInsert (ih hl)
      fun b hb => ha b (mem_newestFirst.1 hb) a (List.mem_singleton_self a)

theorem newestFirst_sorted (l : List α) : (newestFirst height l).Pairwise (NotBelow height) := by
  have hl : l.Pairwise fun _ _ => True := List.pairwise_of_forall fun _ _ => trivial
  apply (pairwise_newestFirst hl).imp
  intro x y h
  rcases h with h | ⟨h, -⟩
  · exact Int64.le_of_lt h
  · exact Int64.le_of_eq h.symm

theorem orderedInsert_of_forall_le {a : α} {l : List α} (h : ∀ b ∈ l, height b ≤ height a) :
    l.orderedInsert (NotBelow height) a = a :: l := by
  cases l with
  | nil => rfl
  | cons b bs => exact List.orderedInsert_cons_of_le _ bs (h b List.mem_cons_self)

theorem orderedInsert_filter (p : α → Bool) {a : α} {l : List α}
    (hl : l.Pairwise (NotBelow height)) :
    (l.orderedInsert (NotBelow height) a).filter p =
      if p a then (l.filter p).orderedInsert (NotBelow height) a else l.filter p := by
  induction l with
  | nil => cases hp : p a <;> simp [hp]
  | cons b bs ih =>
    obtain ⟨hb, hbs⟩ := List.pairwise_cons.1 hl
    by_cases hle : height b ≤ height a
    · have hall : ∀ y ∈ (b :: bs).filter p, height y ≤ height a := by
        intro y hy
        rcases List.mem_cons.1 (List.mem_filter.1 hy).1 with rfl | hy
        · exact hle
        · exact Int64.le_trans (hb y hy) hle
      rw [orderedInsert_of_forall_le hall, List.orderedInsert_cons_of_le _ bs hle,
        List.filter_cons]
    · rw [List.orderedInsert_of_not_le _ bs hle, List.filter_cons, ih hbs, List.filter_cons]
      cases hpa : p a <;> cases hpb : p b <;> simp [hle]

/-- Sorting goes along with a filter. -/
theorem newestFirst_filter (p : α → Bool) (l : List α) :
    newestFirst height (l.filter p) = (newestFirst height l).filter p := by
  induction l using List.reverseRecOn with
  | nil => rfl
  | append_singleton l a ih =>
    rw [List.filter_append, newestFirst_snoc, orderedInsert_filter p (newestFirst_sorted l)]
    cases hp : p a <;> simp [hp, ih]

theorem forall₂_orderedInsert {height' : β → Int64} {R : α → β → Prop}
    (hR : ∀ a b, R a b → height a = height' b) {a : α} {b : β} {as : List α} {bs : List β}
    (h : List.Forall₂ R as bs) (hab : R a b) :
    List.Forall₂ R (as.orderedInsert (NotBelow height) a)
      (bs.orderedInsert (NotBelow height') b) := by
  induction h with
  | nil => exact .cons hab .nil
  | @cons x y as bs hxy has ih =>
    rw [List.orderedInsert_cons, List.orderedInsert_cons]
    simp only [NotBelow, hR a b hab, hR x y hxy]
    split
    · exact .cons hab (.cons hxy has)
    · exact .cons hxy ih

/-- Lists that correspond, item by item at the same heights, correspond when sorted. -/
theorem forall₂_newestFirst {height' : β → Int64} {R : α → β → Prop}
    (hR : ∀ a b, R a b → height a = height' b) {as : List α} {bs : List β}
    (h : List.Forall₂ R as bs) :
    List.Forall₂ R (newestFirst height as) (newestFirst height' bs) := by
  refine List.rel_foldr (P := List.Forall₂ R) ?_ .nil (List.rel_reverse h)
  exact fun _ _ hab _ _ hsorted => forall₂_orderedInsert hR hsorted hab

end Newest

end TxIndex
