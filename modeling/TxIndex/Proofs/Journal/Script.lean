import TxIndex.Proofs.Journal.Order

/-! # Journals written by scripts

Several writers fill one journal, each by recording the entries of a script from the first on. They
take turns in any way and may stop anywhere, and of two entries for one place the one that comes first
is kept (`Journal.Written`). If scripts that write to one place write the same there, journals in
which all scripts were carried through hold the same entries (`Journal.Written.perm`). If moreover a
script writes the results of a block in the order of their positions, so do all writers together
(`Journal.Written.ascending`). -/
namespace TxIndex
namespace Journal

/-- The first entry of a script for its place. -/
def First (e : Entry) (l : List Entry) : Prop := l.find? (fun e' => e'.place = e.place) = some e

/-- The scripts of writers on one chain. -/
structure Orderly (c : String) (S : List Entry → Prop) : Prop where
  chain : ∀ l, S l → ∀ e ∈ l, e.chainId = c
  /-- The block of an entry comes before the entry. -/
  rooted : ∀ l, S l → ∀ done (e : Entry) rest, l = done ++ e :: rest →
    e.place.home = e.place ∨ ∃ e' ∈ done, e'.place = e.place.home
  /-- Results come in the order of their positions, and none is left out. -/
  positions : ∀ l, S l → ∀ done r rest, l = done ++ Entry.result c r :: rest →
    ∀ i < r.index, ∃ e ∈ done, e.place = .result c r.height i
  /-- What is written to a place is the same in all scripts. -/
  agree : ∀ l l', S l → S l' → ∀ e e', First e l → First e' l' → e.place = e'.place → e = e'

/-- Every entry comes from a script, and what stands before it there was recorded before it. -/
inductive Written (S : List Entry → Prop) : Journal → Prop where
  | nil : Written S []
  | snoc {j : Journal} {l done rest : List Entry} {e : Entry} (written : Written S j)
    (accepts : j.Accepts e) (script : S l) (split : l = done ++ e :: rest)
    (before : ∀ e' ∈ done, j.Holds e'.place) : Written S (j ++ [e])

variable {S : List Entry → Prop} {c : String} {j k : Journal} {l done rest : List Entry} {e : Entry}

theorem first_of_append (h : ∀ e' ∈ done, e'.place ≠ e.place) :
    First e (done ++ e :: rest) := by
  refine List.find?_eq_some_iff_append.2 ⟨decide_eq_true rfl, done, rest, rfl, fun e' he' => ?_⟩
  simpa using h e' he'

theorem First.mem (h : First e l) : e ∈ l := List.mem_of_find?_eq_some h

theorem First.eq {e' : Entry} (h : First e l) (h' : First e' l) (hp : e.place = e'.place) :
    e = e' := by
  unfold First at h h'
  rw [hp, h'] at h
  exact (Option.some.inj h).symm

theorem Written.valid (hw : j.Written S) : j.Valid := by
  induction hw with
  | nil => exact .nil
  | snoc _ ha _ _ _ ih => exact .snoc ih ha

/-- Whatever a journal holds was the first entry for its place in a script. -/
theorem Written.exists_first (hw : j.Written S) (he : e ∈ j) : ∃ l, S l ∧ First e l := by
  induction hw with
  | nil => simp at he
  | @snoc j l done rest e' _ ha hl hsplit hdone ih =>
    rcases List.mem_append.1 he with he | he
    · exact ih he
    · obtain rfl := List.mem_singleton.1 he
      subst hsplit
      exact ⟨_, hl, first_of_append fun e' he' hp => ha.1 (hp ▸ hdone e' he')⟩

theorem Written.chainId_eq (hS : Orderly c S) (hw : j.Written S) (he : e ∈ j) : e.chainId = c := by
  obtain ⟨l, hl, hfirst⟩ := hw.exists_first he
  exact hS.chain l hl e hfirst.mem

/-- The next entry of a script keeps a journal as the scripts write it. -/
theorem Written.record (hw : j.Written S) (hl : S l) (hsplit : l = done ++ e :: rest)
    (hdone : ∀ e' ∈ done, j.Holds e'.place) : (j.record e).Written S := by
  by_cases ha : j.Accepts e
  · rw [record_of_accepts ha]
    exact .snoc hw ha hl hsplit hdone
  · rw [record_of_not_accepts ha]
    exact hw

/-- The next entry of a script has its place afterwards. -/
theorem Orderly.holds_record (hS : Orderly c S) (hl : S l) (hsplit : l = done ++ e :: rest)
    (hdone : ∀ e' ∈ done, j.Holds e'.place) : (j.record e).Holds e.place := by
  rcases hS.rooted l hl done e rest hsplit with h | ⟨e', he', hplace⟩
  · exact Journal.holds_record (.inl h)
  · exact Journal.holds_record (.inr (hplace ▸ hdone e' he'))

/-- Entries recorded one after the other. -/
def recordAll (j : Journal) (es : List Entry) : Journal := es.foldl Journal.record j

theorem Holds.recordAll {p : Place} (h : j.Holds p) (es : List Entry) :
    (j.recordAll es).Holds p := by
  induction es generalizing j with
  | nil => exact h
  | cons e es ih => exact ih h.record

/-- The next entries of a script keep a journal as the scripts write it, and have their places
afterwards. -/
theorem Written.recordAll (hS : Orderly c S) (hl : S l) {es : List Entry} (hw : j.Written S)
    (hsplit : l = done ++ (es ++ rest)) (hdone : ∀ e ∈ done, j.Holds e.place) :
    (j.recordAll es).Written S ∧ ∀ e ∈ done ++ es, (j.recordAll es).Holds e.place := by
  induction es generalizing j done with
  | nil =>
    rw [List.append_nil]
    exact ⟨hw, hdone⟩
  | cons e es ih =>
    have hsplit' : l = (done ++ [e]) ++ (es ++ rest) := by
      rw [hsplit, List.append_assoc, List.singleton_append, List.cons_append]
    have hdone' : ∀ e' ∈ done ++ [e], (j.record e).Holds e'.place := by
      intro e' he'
      rcases List.mem_append.1 he' with he' | he'
      · exact (hdone e' he').record
      · obtain rfl := List.mem_singleton.1 he'
        exact hS.holds_record hl hsplit hdone
    obtain ⟨hwritten, hheld⟩ := ih (hw.record hl hsplit hdone) hsplit' hdone'
    refine ⟨hwritten, fun e' he' => hheld e' ?_⟩
    rwa [List.append_assoc, List.singleton_append]

/-! ## Order and contents -/

/-- Where a result is recorded, the results before it in its block are. -/
theorem Written.holds_lower (hS : Orderly c S) (hw : j.Written S) {r : TxResult}
    (hr : .result c r ∈ j) {i : UInt32} (hi : i < r.index) : j.Holds (.result c r.height i) := by
  induction hw with
  | nil => simp at hr
  | @snoc j l done rest e hw ha hl hsplit hdone ih =>
    rw [holds_snoc]
    rcases List.mem_append.1 hr with hr | hr
    · exact .inl (ih hr)
    · obtain rfl := List.mem_singleton.1 hr
      obtain ⟨e', he', hp⟩ := hS.positions l hl done r rest hsplit i hi
      exact .inl (hp ▸ hdone e' he')

/-- **Whatever turns the writers take, results come in the order of their positions.** A result is
recorded only when those at lower positions of its block have been, by the same writer or by
another. -/
theorem Written.ascending (hS : Orderly c S) (hw : j.Written S) : j.Ascending := by
  induction hw with
  | nil => exact .nil
  | @snoc j l done rest e hw ha hl hsplit hdone ih =>
    rw [Ascending, results_append]
    refine List.pairwise_append.2 ⟨ih, ?_, ?_⟩
    · cases e with
      | result c' r => exact List.pairwise_singleton _ _
      | block | request => exact .nil
    · rintro ⟨c₁, r₁⟩ hr₁ ⟨c₂, r₂⟩ hr₂ hheight
      obtain rfl := List.mem_singleton.1 (mem_results.1 hr₂)
      have hr := mem_results.1 hr₁
      obtain rfl : c₁ = c := hw.chainId_eq hS hr
      have hc : c₂ = c₁ := hS.chain l hl (.result c₂ r₂) (by simp [hsplit])
      subst hc
      -- The new place is free, so an earlier result can stand neither there nor beyond it.
      have hfree : ¬ j.Holds (.result c₂ r₂.height r₂.index) := ha.1
      simp only at hheight
      have hne : r₁.index ≠ r₂.index := fun h => hfree ⟨_, hr, by rw [← hheight, ← h]; rfl⟩
      have hnot : ¬ r₂.index < r₁.index := fun h => hfree (hheight ▸ hw.holds_lower hS hr h)
      exact UInt32.lt_of_le_of_ne (UInt32.not_lt.1 hnot) hne

/-- What is taken in one journal is held in another in which all scripts were carried through. -/
theorem Written.subset (hS : Orderly c S) (hj : j.Written S) (hk : k.Written S)
    (hall : ∀ l, S l → ∀ e ∈ l, k.Holds e.place) : j ⊆ k := by
  intro e he
  obtain ⟨l, hl, hfirst⟩ := hj.exists_first he
  obtain ⟨e', he', hp⟩ := hall l hl e hfirst.mem
  obtain ⟨l', hl', hfirst'⟩ := hk.exists_first he'
  rw [hS.agree l l' hl hl' e e' hfirst hfirst' hp.symm]
  exact he'

/-- **Writers that carry all scripts through leave the same entries**, whatever turns they take. A
place is taken exactly if some script has an entry for it, and scripts agree on the entry. -/
theorem Written.perm (hS : Orderly c S) (hj : j.Written S) (hk : k.Written S)
    (hjall : ∀ l, S l → ∀ e ∈ l, j.Holds e.place) (hkall : ∀ l, S l → ∀ e ∈ l, k.Holds e.place) :
    j.Perm k := by
  have hnodup : ∀ {i : Journal}, i.Written S → i.Nodup := fun hi =>
    List.Nodup.of_map Entry.place hi.valid.nodup_places
  apply (List.perm_ext_iff_of_nodup (hnodup hj) (hnodup hk)).2
  intro e
  exact ⟨fun he => hj.subset hS hk hkall he, fun he => hk.subset hS hj hjall he⟩

end Journal
end TxIndex
