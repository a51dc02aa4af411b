import TxIndex.Proofs.Journal.Search
import TxIndex.Proofs.Run.Basic
import TxIndex.Proofs.Search.Compilation
import TxIndex.Proofs.Search.Meaning

/-! # What a search finds after a run

The answer of a compiled plan, said of the rows of the tables: which results with their requests
belong to it (`Database.Answers`), in which order, and how many (`Operation.search_exact`).

Two lists are compared: the rows that answer the plan as the engine reads values, and those that
answer it as values are written. The engine reads a value up to its first NUL only, so the first
list contains the second, and a row too many may be among those that the limit keeps. When both
heads are the same is said exactly (`map_take_filter_eq_iff`), and a run in which they are not is
given (`Operation.search_finds_value_with_nul`). -/
namespace TxIndex

/-- A result with its request belongs to the answer of a plan: it lies in the window, and for every
condition some stored attribute of its transaction is as the condition says. -/
structure Database.Answers (db : Database) (chainId : String) (p : Plan)
    (reads : Condition → String → Prop) (m : Match) : Prop where
  result : db.results.get? m.txId = some m.result
  request : (⟨m.result.blockId, m.request⟩ : RequestRow) ∈ db.requests.rows
  index : m.request.index = m.result.index
  window : p.window.Admits db chainId m.result.height
  filters : ∀ c ∈ p.filters, ∃ event eventId, db.events.get? eventId = some event ∧
    event.txId = some m.txId ∧ ∃ a ∈ db.attributes.rows,
      a.eventId = eventId ∧ a.compositeKey = c.tag ∧ reads c a.value

section Heads

variable {α β : Type}

/-- Dropping items that do not stand in the head of a list leaves the head as it is. -/
theorem take_filter_of_forall {l : List α} {p : α → Bool} {n : Nat}
    (h : ∀ a ∈ l.take n, p a = true) : (l.filter p).take n = l.take n := by
  induction l generalizing n with
  | nil => rfl
  | cons a l ih =>
    cases n with
    | zero => rfl
    | succ n =>
      rw [List.take_succ_cons] at h ⊢
      rw [List.filter_cons_of_pos (h a List.mem_cons_self), List.take_succ_cons]
      exact congrArg (a :: ·) (ih fun b hb => h b (List.mem_cons_of_mem _ hb))

/-- Dropping some items changes nothing in the head of a list, as seen through an injective map,
exactly if none of them stands there. -/
theorem map_take_filter_eq_iff {l : List α} {p : α → Bool} {f : α → β} {n : Nat}
    (hf : ∀ a ∈ l, ∀ b ∈ l, f a = f b → a = b) :
    (l.take n).map f = ((l.filter p).take n).map f ↔ ∀ a ∈ l.take n, p a = true := by
  constructor
  · intro h a ha
    have hmem : f a ∈ ((l.filter p).take n).map f := h ▸ List.mem_map_of_mem ha
    obtain ⟨b, hb, hba⟩ := List.mem_map.1 hmem
    obtain ⟨hbl, hpb⟩ := List.mem_filter.1 (List.mem_of_mem_take hb)
    exact hf b hbl a (List.mem_of_mem_take ha) hba ▸ hpb
  · intro h
    rw [take_filter_of_forall h]

end Heads

namespace Database

variable {db : Database} {chainId : String} {p : Plan} {reads : Condition → String → Prop}
  {m : Match}

theorem Answers.mem_pairs (h : db.Answers chainId p reads m) : m ∈ db.pairs :=
  Database.mem_pairs.2 ⟨h.result, h.request, h.index⟩

theorem Answers.imp {reads' : Condition → String → Prop}
    (hreads : ∀ c ∈ p.filters, ∀ v, reads c v → reads' c v) (h : db.Answers chainId p reads m) :
    db.Answers chainId p reads' m :=
  { h with
    filters := fun c hc => by
      obtain ⟨event, eventId, hevent, htx, a, ha, hid, hkey, hval⟩ := h.filters c hc
      exact ⟨event, eventId, hevent, htx, a, ha, hid, hkey, hreads c hc _ hval⟩ }

/-- The ranking holds the answer of a plan, conditions being read as they are tested. -/
theorem mem_ranking_iff_answers {bounds : List (Comparison × Int64)}
    (hbounds : p.window.bounds? (db.tip? chainId) = some bounds) :
    m ∈ db.ranking bounds p.filters ↔ db.Answers chainId p (fun c v => c.test.holds v) m := by
  have hmeets : ∀ c, db.meets m.txId c = true ↔ ∃ event eventId,
      db.events.get? eventId = some event ∧ event.txId = some m.txId ∧
        ∃ a ∈ db.attributes.rows,
          a.eventId = eventId ∧ a.compositeKey = c.tag ∧ c.test.holds a.value = true := by
    intro c
    simp only [meets, List.any_eq_true, Bool.and_eq_true, decide_eq_true_eq, Prod.exists,
      Table.mem_numbered_iff, and_assoc]
  rw [mem_ranking, mem_pairs]
  constructor
  · rintro ⟨⟨hresult, hrequest, hindex⟩, hheight, hfilters⟩
    exact ⟨hresult, hrequest, hindex, (admits_window_iff p.window).2 ⟨bounds, hbounds, hheight⟩,
      fun c hc => (hmeets c).1 (hfilters c hc)⟩
  · rintro ⟨hresult, hrequest, hindex, hwindow, hfilters⟩
    obtain ⟨bounds', hbounds', hheight⟩ := (admits_window_iff p.window).1 hwindow
    obtain rfl := Option.some.inj (hbounds.symm.trans hbounds')
    exact ⟨⟨hresult, hrequest, hindex⟩, hheight, fun c hc => (hmeets c).2 (hfilters c hc)⟩

/-- Without bounds a window holds no answer. -/
theorem not_answers_of_bounds?_eq_none (hbounds : p.window.bounds? (db.tip? chainId) = none) :
    ¬ db.Answers chainId p reads m := by
  intro hm
  obtain ⟨bounds, hbounds', -⟩ := (admits_window_iff p.window).1 hm.window
  rw [hbounds] at hbounds'
  cases hbounds'

/-- As long as no two requests share a place, searches that differ in their limit only give heads of
one list, which is their answer, the newest first. -/
theorem DistinctRequests.search_take (hd : db.DistinctRequests) (chainId : String) (p : Plan) :
    ∃ found : List Match, found.Pairwise Match.Newer ∧
      (∀ m, m ∈ found ↔ db.Answers chainId p (fun c v => c.test.holds v) m) ∧
      ∀ limit, db.search chainId { p with limit } =
        (found.take limit.toNat).map Match.stored := by
  cases hbounds : p.window.bounds? (db.tip? chainId) with
  | some bounds =>
    refine ⟨db.ranking bounds p.filters, hd.pairwise_ranking,
      fun m => mem_ranking_iff_answers hbounds, fun limit => ?_⟩
    rw [hd.search_eq, hbounds]
  | none =>
    refine ⟨[], .nil, fun m => ⟨fun hm => by simp at hm, fun hm => ?_⟩, fun limit => ?_⟩
    · exact absurd hm (not_answers_of_bounds?_eq_none hbounds)
    · rw [hd.search_eq, hbounds]
      simp

/-- As long as no two requests share a place, a search gives the head of the answer, the newest
first. -/
theorem DistinctRequests.search_answers (hd : db.DistinctRequests) (chainId : String) (p : Plan) :
    ∃ found : List Match, found.Pairwise Match.Newer ∧
      (∀ m, m ∈ found ↔ db.Answers chainId p (fun c v => c.test.holds v) m) ∧
      db.search chainId p = (found.take p.limit.toNat).map Match.stored := by
  obtain ⟨found, hsorted, hfound, hsearch⟩ := hd.search_take chainId p
  exact ⟨found, hsorted, hfound, hsearch p.limit⟩

end Database

namespace Journal

variable {j : Journal}

/-- On one chain a row of an answer tells which result and request it was made of. -/
theorem Valid.stored_inj (hv : j.Valid) {c : String}
    (hj : ∀ c' r, .result c' r ∈ j → c' = c ∧ Wire.txResult.fits r = true) :
    ∀ m ∈ j.database.pairs, ∀ m' ∈ j.database.pairs, m.stored = m'.stored → m = m' := by
  -- The rows are those of the postings, and these differ in the results that they show.
  have hrows : j.database.pairs.map Match.stored = j.postings.map Posting.stored :=
    map_eq_of_forall₂ (fun m p h => h.stored_eq) hv.shows_postings
  have hnodup : (j.postings.map Posting.stored).Nodup := by
    refine List.pairwise_map.2 (hv.pairwise_postings.imp_of_mem ?_)
    intro p p' hp hp' hne heq
    obtain ⟨hc, hfits⟩ := hj _ _ (mem_postings.1 hp).1
    obtain ⟨hc', hfits'⟩ := hj _ _ (mem_postings.1 hp').1
    have hresult := Wire.encode_txResult_inj hfits hfits' (congrArg StoredTx.result heq)
    exact hne (by rw [hc, hc', hresult])
  intro m hm m' hm' heq
  exact List.inj_on_of_nodup_map (hrows ▸ hnodup) hm hm' heq

end Journal

namespace Operation

variable {ops : List Operation} {s : Store}

/-- **What a search finds.** After any run on a database of one chain, a compiled plan finds the head
of one list: the results with their requests that belong to its answer, ranked from the newest. Here
a condition that compares with a number goes by what a value has before its first NUL. The answer is
the one promised, in which only decimal numbers compare with numbers, exactly if every hit is in
it. -/
theorem search_exact (hops : ∀ op ∈ ops, op.store.chainId = s.chainId) {q : Query}
    {limit ceiling : UInt16} {p : Plan} (hp : Plan.compileWithin q limit ceiling = .ok p) :
    ∃ found promised : List Match,
      (found.Pairwise Match.Newer ∧ ∀ m, m ∈ found ↔
        (run ops .empty).database.Answers s.chainId p Condition.Accepts m) ∧
      (promised.Pairwise Match.Newer ∧ ∀ m, m ∈ promised ↔
        (run ops .empty).database.Answers s.chainId p Condition.Promises m) ∧
      s.search p (run ops .empty) = .ok ((found.take p.limit.toNat).map Match.stored) ∧
      (s.search p (run ops .empty) = .ok ((promised.take p.limit.toNat).map Match.stored) ↔
        ∀ m ∈ found.take p.limit.toNat, m ∈ promised) := by
  classical
  obtain ⟨hrun, hv⟩ := run_empty ops
  have hj : ∀ c r, .result c r ∈ record ops [] →
      c = s.chainId ∧ Wire.txResult.fits r = true := by
    intro c r hr
    obtain ⟨op, hop, he⟩ := exists_mayRecord hr
    exact ⟨he.chainId_eq.trans (hops op hop), he.fits⟩
  rw [hrun]
  obtain ⟨found, hsorted, htested, hsearch⟩ := hv.distinctRequests.search_answers s.chainId p
  have hread : ∀ c ∈ p.filters, ∀ v, c.test.holds v = true ↔ c.Accepts v := fun c hc v =>
    Condition.holds_test_iff (Plan.lacksArgument_of_compile hp c hc)
  have hfound : ∀ m, m ∈ found ↔
      (record ops []).database.Answers s.chainId p Condition.Accepts m := fun m =>
    (htested m).trans ⟨fun h => h.imp fun c hc v => (hread c hc v).1,
      fun h => h.imp fun c hc v => (hread c hc v).2⟩
  have hopen : s.search p (record ops []).storage =
      .ok ((found.take p.limit.toNat).map Match.stored) := by
    rw [← hsearch]
    rfl
  -- Of the answer the promised part is left if only numerals compare with numbers.
  let isPromised (m : Match) : Bool :=
    decide ((record ops []).database.Answers s.chainId p Condition.Promises m)
  have hpromised : ∀ m, m ∈ found.filter isPromised ↔
      (record ops []).database.Answers s.chainId p Condition.Promises m := by
    intro m
    rw [List.mem_filter, decide_eq_true_eq, hfound]
    exact ⟨And.right, fun h => ⟨h.imp fun _ _ _ => Condition.Promises.accepts, h⟩⟩
  have hinj : ∀ m ∈ found, ∀ m' ∈ found, m.stored = m'.stored → m = m' := fun m hm m' hm' =>
    hv.stored_inj hj m ((hfound m).1 hm).mem_pairs m' ((hfound m').1 hm').mem_pairs
  refine ⟨found, found.filter isPromised, ⟨hsorted, hfound⟩,
    ⟨hsorted.sublist List.filter_sublist, hpromised⟩, hopen, ?_⟩
  rw [hopen, Except.ok.injEq, map_take_filter_eq_iff hinj]
  apply forall₂_congr
  intro m hm
  rw [hpromised, decide_eq_true_eq]

/-- A run that records one transaction, whose one indexed attribute `n.v` has the given value. -/
def oneTransaction (s : Store) (value : String) : List Operation :=
  let b : BlockEvents := ⟨1, ⟨0, 0⟩, [], 1⟩
  let e : Event := ⟨"n", [⟨"v", value, true⟩]⟩
  [⟨s, .indexBlock b⟩, ⟨s, .indexTxs [⟨1, 0, [], ⟨0, [], "", "", 0, 0, [e], ""⟩⟩]⟩,
    ⟨s, .insertRequest b ⟨1, 0, ⟨0, 0⟩, "", [], "", ""⟩⟩]

/-- The plan of the query `n.v = 5`, with at most ten hits. -/
def equalsFive : Plan := ⟨.belowTip, [.compare .eq "n.v" (.number ⟨"5"⟩)], 10⟩

/-- The general statement at a transaction with the value 5, which is found. -/
theorem search_exact_five : ∃ found promised : List Match,
    (found.Pairwise Match.Newer ∧ ∀ m, m ∈ found ↔
      (run (oneTransaction ⟨0, "testing"⟩ "5") .empty).database.Answers "testing" equalsFive
        Condition.Accepts m) ∧
    (promised.Pairwise Match.Newer ∧ ∀ m, m ∈ promised ↔
      (run (oneTransaction ⟨0, "testing"⟩ "5") .empty).database.Answers "testing" equalsFive
        Condition.Promises m) ∧
    Store.search ⟨0, "testing"⟩ equalsFive (run (oneTransaction ⟨0, "testing"⟩ "5") .empty) =
      .ok ((found.take 10).map Match.stored) ∧
    (Store.search ⟨0, "testing"⟩ equalsFive (run (oneTransaction ⟨0, "testing"⟩ "5") .empty) =
        .ok ((promised.take 10).map Match.stored) ↔ ∀ m ∈ found.take 10, m ∈ promised) :=
  have hops : ∀ op ∈ oneTransaction ⟨0, "testing"⟩ "5", op.store.chainId = "testing" := by
    simp [oneTransaction]
  have hp : Plan.compileWithin ⟨[.compare .eq "n.v" (.number ⟨"5"⟩)]⟩ 10 5000 =
      .ok equalsFive := by decide +kernel
  search_exact (s := ⟨0, "testing"⟩) hops hp

/-- A value that is the number 5 only up to a NUL is found by a comparison with 5, though no
transaction belongs to the promised answer. -/
theorem search_finds_value_with_nul :
    (Store.search ⟨0, "testing"⟩ equalsFive
        (run (oneTransaction ⟨0, "testing"⟩ "5\x00abc") .empty)).map List.length = .ok 1 ∧
      ∀ m, ¬ (run (oneTransaction ⟨0, "testing"⟩ "5\x00abc") .empty).database.Answers "testing"
        equalsFive Condition.Promises m := by
  refine ⟨by decide +kernel, fun m hm => ?_⟩
  have hnul : ∀ a ∈ (run (oneTransaction ⟨0, "testing"⟩ "5\x00abc")
      .empty).database.attributes.rows, a.compositeKey = "n.v" → '\x00' ∈ a.value.toList := by
    decide +kernel
  obtain ⟨_, _, _, _, a, ha, _, hkey, hval⟩ := hm.filters _ List.mem_cons_self
  exact absurd (hnul a ha hkey) hval.1.nul_not_mem

end Operation
end TxIndex
