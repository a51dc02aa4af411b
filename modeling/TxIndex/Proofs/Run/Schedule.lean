import TxIndex.Proofs.Run.Finalized

/-! # Runs that take turns

Any number of primary and dispatch runs of finalized blocks work on one database at the same time. A
schedule says whose turn it is; a turn is one unit of work, and a run that is not called again is cut
short. Whatever the schedule, the journal is written by the scripts of the runs (`Pool.Inv`), so once
every block has a primary run and a dispatch run that came to their ends, the order in which all this
happened cannot be told from the answers of the store (`Pool.order_independent`). -/
namespace TxIndex

/-! ## One unit -/

namespace Task

/-- What is left to do after a unit. -/
def left (answer : Except Failure Unit) (tasks : List Task) : List Task :=
  match answer with
  | .ok () => tasks
  | .error _ => []

variable {t : TxIndexer} {S : List Entry → Prop} {c : String} {j : Journal} {l done : List Entry}
  {task : Task} {tasks : List Task}

/-- A unit without entries fails, though never for a missing block. -/
theorem record_of_entries?_eq_none (h : task.entries? t = none) :
    ∃ failure, failure.isNotFound = false ∧ task.record t j = (.error failure, j) := by
  cases task with
  | block b => cases h
  | result r =>
    have hfits : ¬ Wire.txResult.fits r = true := by
      intro hfits
      simp [entries?, hfits] at h
    have herror : Encoding.encodeResult r =
        .error (.encode "tx result" "invalid input parameter") := if_neg hfits
    refine ⟨.encode "tx result" "invalid input parameter", rfl, ?_⟩
    rw [record, Journal.indexTx, herror]
  | request b tx =>
    rcases t.request_cases b.req tx.2 tx.1 with ⟨_, _, -, -, -, hq⟩ | ⟨failure, hfound, hq⟩
    · simp [entries?, hq] at h
    · refine ⟨failure, hfound, ?_⟩
      rw [record, Journal.insertTx, hq]

/-- A unit with entries records them, the block of a result being there. -/
theorem record_of_entries?_eq_some {es : List Entry} (h : task.entries? t = some es)
    (hblock : ∀ r, task = .result r → j.Holds (.block t.store.chainId r.height)) :
    task.record t j = (.ok (), j.recordAll es) := by
  cases task with
  | block b =>
    obtain rfl := Option.some.inj h
    rfl
  | result r =>
    obtain ⟨hfits, rfl⟩ : Wire.txResult.fits r = true ∧ [.result t.store.chainId r] = es := by
      simpa [entries?] using h
    have hok : Encoding.encodeResult r = .ok (Wire.txResult.encode r) := if_pos hfits
    rw [record, Journal.indexTx, hok]
    simp only
    rw [if_pos (hblock r rfl)]
    rfl
  | request b tx =>
    cases hq : t.request b.req tx.2 tx.1 with
    | error failure => simp [entries?, hq] at h
    | ok q =>
      obtain rfl : [.block t.store.chainId b.events, .request t.store.chainId b.height q] = es := by
        simpa [entries?, hq] using h
      rw [record, Journal.insertTx, hq]
      rfl

/-- **A turn.** The next unit of a run, whose earlier entries have their places, keeps the journal as
the scripts write it and keeps all places; it does not miss a block; and the entries of the run up to
what is left then have their places. -/
theorem record_next (hS : Journal.Orderly c S) (hl : S l) (hw : j.Written S)
    (hsplit : l = done ++ script t (task :: tasks)) (hdone : ∀ e ∈ done, j.Holds e.place) :
    ∃ answer k, task.record t j = (answer, k) ∧ k.Written S ∧ (∀ p, j.Holds p → k.Holds p) ∧
      (∀ failure, answer = .error failure → failure.isNotFound = false) ∧
      ∃ done', l = done' ++ script t (left answer tasks) ∧ ∀ e ∈ done', k.Holds e.place := by
  cases hes : task.entries? t with
  | none =>
    obtain ⟨failure, hfound, hrecord⟩ := record_of_entries?_eq_none (j := j) hes
    have hnil : script t (task :: tasks) = [] := by simp [script, hes]
    rw [hnil] at hsplit
    exact ⟨_, _, hrecord, hw, fun p hp => hp, fun _ h => Except.error.inj h ▸ hfound,
      done, hsplit, hdone⟩
  | some es =>
    have hcons : script t (task :: tasks) = es ++ script t tasks := by simp [script, hes]
    rw [hcons] at hsplit
    -- The block of a result stands before it in the script, so it is there.
    have hblock : ∀ r, task = .result r → j.Holds (.block t.store.chainId r.height) := by
      rintro r rfl
      obtain ⟨-, rfl⟩ : Wire.txResult.fits r = true ∧ [.result t.store.chainId r] = es := by
        simpa [entries?] using hes
      rcases hS.rooted l hl done _ _ hsplit with h | ⟨e, he, hplace⟩
      · simp [Place.home] at h
      · have hheld := hdone e he
        rw [hplace] at hheld
        exact hheld
    obtain ⟨hwritten, hheld⟩ := hw.recordAll hS hl hsplit hdone
    refine ⟨_, _, record_of_entries?_eq_some hes hblock, hwritten, fun p hp => hp.recordAll es,
      ?_, done ++ es, ?_, hheld⟩
    · intro failure h
      cases h
    · rw [List.append_assoc]
      exact hsplit

/-- Units of a run to its end, one after the other. -/
theorem record_each (hS : Journal.Orderly c S) (hl : S l) (hw : j.Written S)
    (hsplit : l = done ++ script t tasks) (hdone : ∀ e ∈ done, j.Holds e.place) :
    let k := (Action.each (record t) tasks j).2
    k.Written S ∧ (∀ p, j.Holds p → k.Holds p) ∧ ∀ e ∈ l, k.Holds e.place := by
  -- What is done grows at each unit, up to the whole script or the unit that fails.
  induction tasks generalizing j done with
  | nil =>
    refine ⟨hw, fun p hp => hp, fun e he => hdone e ?_⟩
    rwa [hsplit, script, List.append_nil] at he
  | cons task tasks ih =>
    obtain ⟨answer, k, hrecord, hwritten, hkeeps, -, done', hsplit', hheld⟩ :=
      record_next hS hl hw hsplit hdone
    cases answer with
    | ok _ =>
      rw [Action.each_cons_ok _ hrecord]
      obtain ⟨hwritten', hkeeps', hall⟩ := ih hwritten hsplit' hheld
      exact ⟨hwritten', fun p hp => hkeeps' p (hkeeps p hp), hall⟩
    | error failure =>
      rw [Action.each_cons_error _ hrecord]
      refine ⟨hwritten, hkeeps, fun e he => hheld e ?_⟩
      rwa [hsplit', left, script, List.append_nil] at he

end Task

/-! ## Whole runs -/

namespace Job

/-- Carries a run through by the actions of the store and of the module. -/
def perform (t : TxIndexer) : Job → Action Storage Unit
  | ⟨.primary, b⟩ => fun st =>
    match t.store.indexBlock b.events st with
    | (.ok (), st) => t.store.indexTxs b.results st
    | (.error failure, st) => (.error failure, st)
  | ⟨.dispatch, b⟩ => t.insert b.req b.res

variable {t : TxIndexer} {blocks : List Finalized} {j : Journal}

/-- A run does its units in their order, up to the first that fails. -/
theorem perform_eq_each (t : TxIndexer) (job : Job) :
    job.perform t = Action.each (Task.perform t) job.tasks := by
  obtain ⟨kind, b⟩ := job
  cases kind with
  | primary =>
    funext st
    rcases hblock : t.store.indexBlock b.events st with ⟨answer, st'⟩
    simp only [perform, hblock, tasks]
    cases answer with
    | ok _ =>
      rw [Action.each_cons_ok (Task.perform t) (a := .block b) hblock, Action.each_map]
      rfl
    | error failure => rw [Action.each_cons_error (Task.perform t) (a := .block b) hblock]
  | dispatch =>
    rw [perform, tasks, Action.each_map]
    rfl

/-- A run that is carried through keeps the journal as the scripts write it, keeps all places, and
afterwards the entries of its own script have theirs. -/
theorem perform_written (hblocks : Finalized.Consistent blocks)
    (hw : j.Written (Scripts t blocks)) (job : Job) (hjob : job.block ∈ blocks) :
    ∃ k : Journal, (job.perform t j.storage).2 = k.storage ∧ k.Written (Scripts t blocks) ∧
      (∀ p, j.Holds p → k.Holds p) ∧ ∀ e ∈ job.script t, k.Holds e.place := by
  have hfollows : (Action.each (Task.perform t) job.tasks).Follows
      (Action.each (Task.record t) job.tasks) :=
    Action.follows_each fun task _ => task.perform_follows t
  refine ⟨(Action.each (Task.record t) job.tasks j).2, ?_, ?_⟩
  · rw [perform_eq_each, (hfollows j hw.valid).1]
  · exact Task.record_each (orderly t hblocks) ⟨job, hjob, rfl⟩ hw (List.nil_append _).symm
      fun e he => absurd he List.not_mem_nil

/-- For each block a primary run and then a dispatch run, one after the other. -/
def sequential (t : TxIndexer) (blocks : List Finalized) (st : Storage) : Storage :=
  blocks.foldl (fun st b => (perform t ⟨.dispatch, b⟩ (perform t ⟨.primary, b⟩ st).2).2) st

/-- One after the other, the runs of some blocks carry their scripts through. -/
theorem sequential_written (hblocks : Finalized.Consistent blocks)
    {bs : List Finalized} (hbs : ∀ b ∈ bs, b ∈ blocks) (hw : j.Written (Scripts t blocks)) :
    ∃ k : Journal, sequential t bs j.storage = k.storage ∧ k.Written (Scripts t blocks) ∧
      (∀ p, j.Holds p → k.Holds p) ∧
      ∀ job : Job, job.block ∈ bs → ∀ e ∈ job.script t, k.Holds e.place := by
  -- Places once taken stay taken while the runs of the other blocks follow.
  induction bs generalizing j with
  | nil => exact ⟨j, rfl, hw, fun p hp => hp, fun job hjob => absurd hjob List.not_mem_nil⟩
  | cons b bs ih =>
    have hb := hbs b List.mem_cons_self
    obtain ⟨j₁, hrun₁, hw₁, hkeeps₁, hheld₁⟩ :=
      perform_written hblocks hw ⟨.primary, b⟩ hb
    obtain ⟨j₂, hrun₂, hw₂, hkeeps₂, hheld₂⟩ :=
      perform_written hblocks hw₁ ⟨.dispatch, b⟩ hb
    obtain ⟨k, hrun, hwk, hkeeps, hheld⟩ := ih (fun b' h => hbs b' (List.mem_cons_of_mem _ h)) hw₂
    refine ⟨k, ?_, hwk, fun p hp => hkeeps p (hkeeps₂ p (hkeeps₁ p hp)), ?_⟩
    · rw [sequential, List.foldl_cons, hrun₁, hrun₂]
      exact hrun
    · rintro ⟨kind, b'⟩ hjob e he
      rcases List.mem_cons.1 hjob with rfl | hjob
      · cases kind with
        | primary => exact hkeeps _ (hkeeps₂ _ (hheld₁ e he))
        | dispatch => exact hkeeps _ (hheld₂ e he)
      · exact hheld _ hjob e he

end Job

/-! ## Turns -/

/-- Runs in progress on a database. -/
structure Pool where
  storage : Storage
  /-- What each run has still to do. -/
  pending : List (List Task)
  /-- The failures so far. -/
  failures : List Failure

namespace Pool

/-- Runs that are about to begin on a fresh database. -/
def start (jobs : List Job) : Pool := ⟨.empty, jobs.map Job.tasks, []⟩

/-- The next unit of a run, after which a run that failed has nothing left to do. -/
def turn (t : TxIndexer) (pool : Pool) (i : Nat) (task : Task) (tasks : List Task) : Pool :=
  let result := task.perform t pool.storage
  { storage := result.2
    pending := pool.pending.set i (Task.left result.1 tasks)
    failures := match result.1 with
      | .ok () => pool.failures
      | .error failure => pool.failures ++ [failure] }

/-- The turn of the run of a number, which may be at its end. -/
def step (t : TxIndexer) (pool : Pool) (i : Nat) : Pool :=
  match pool.pending[i]? with
  | some (task :: tasks) => pool.turn t i task tasks
  | _ => pool

/-- The turns of a schedule. -/
def run (t : TxIndexer) (pool : Pool) (schedule : List Nat) : Pool := schedule.foldl (step t) pool

/-- One of the runs came to its end. -/
def Finished (pool : Pool) (jobs : List Job) (job : Job) : Prop :=
  ∃ i : Nat, jobs[i]? = some job ∧ pool.pending[i]? = some []

/-- What holds of runs in progress and the journal of their database: it is written by their scripts,
what a run has recorded so far is a head of its script, and no unit has missed a block. -/
structure Inv (t : TxIndexer) (blocks : List Finalized) (jobs : List Job) (pool : Pool)
    (j : Journal) : Prop where
  storage : pool.storage = j.storage
  written : j.Written (Job.Scripts t blocks)
  length : pool.pending.length = jobs.length
  head : ∀ (i : Nat) (job : Job) (tasks : List Task),
    jobs[i]? = some job → pool.pending[i]? = some tasks →
      ∃ done, job.script t = done ++ Task.script t tasks ∧ ∀ e ∈ done, j.Holds e.place
  found : ∀ failure ∈ pool.failures, failure.isNotFound = false

variable {t : TxIndexer} {blocks : List Finalized} {jobs : List Job} {pool : Pool} {j : Journal}

theorem inv_start : Inv t blocks jobs (start jobs) [] where
  storage := rfl
  written := .nil
  length := List.length_map _
  head := by
    intro i job tasks hjob htasks
    have hmap : (jobs.map Job.tasks)[i]? = some job.tasks := by
      rw [List.getElem?_map, hjob, Option.map_some]
    obtain rfl := Option.some.inj (hmap.symm.trans htasks)
    exact ⟨[], rfl, fun e he => absurd he List.not_mem_nil⟩
  found := fun failure h => absurd h List.not_mem_nil

/-- **A turn keeps what holds of runs in progress.** The job whose turn it is records the next entry
of its script, or is done; the other jobs are where they were, and what they have recorded stays
recorded. -/
theorem Inv.step (hblocks : Finalized.Consistent blocks)
    (hjobs : ∀ job ∈ jobs, job.block ∈ blocks) (h : Inv t blocks jobs pool j) (i : Nat) :
    ∃ k, Inv t blocks jobs (pool.step t i) k := by
  unfold Pool.step
  split
  · rename_i task tasks hpending
    have hi : i < jobs.length := h.length ▸ (List.getElem?_eq_some_iff.1 hpending).1
    have hjob : jobs[i]? = some jobs[i] := List.getElem?_eq_getElem hi
    obtain ⟨done, hsplit, hdone⟩ := h.head i _ _ hjob hpending
    have hscript : Job.Scripts t blocks (jobs[i].script t) :=
      ⟨jobs[i], hjobs _ (List.getElem_mem hi), rfl⟩
    obtain ⟨answer, k, hrecord, hwritten, hkeeps, hfound, done', hsplit', hheld⟩ :=
      Task.record_next (Job.orderly t hblocks) hscript h.written hsplit hdone
    have hperform : task.perform t pool.storage = (answer, k.storage) := by
      rw [h.storage, (task.perform_follows t j h.written.valid).1, hrecord]
    refine ⟨k, ?_⟩
    rw [turn, hperform]
    exact {
      storage := rfl
      written := hwritten
      length := by rw [List.length_set, h.length]
      head := by
        intro i' job' tasks' hjob' htasks'
        rcases eq_or_ne i i' with rfl | hne
        · -- The run whose turn it was.
          rw [List.getElem?_set_self (h.length.symm ▸ hi)] at htasks'
          obtain rfl := Option.some.inj htasks'
          obtain rfl := Option.some.inj (hjob.symm.trans hjob')
          exact ⟨done', hsplit', hheld⟩
        · -- All others stay as they are.
          rw [List.getElem?_set_ne hne] at htasks'
          obtain ⟨done, hsplit, hdone⟩ := h.head i' job' tasks' hjob' htasks'
          exact ⟨done, hsplit, fun e he => hkeeps _ (hdone e he)⟩
      found := by
        intro failure hmem
        cases answer with
        | ok _ => exact h.found failure hmem
        | error failure' =>
          rcases List.mem_append.1 hmem with hmem | hmem
          · exact h.found failure hmem
          · obtain rfl := List.mem_singleton.1 hmem
            exact hfound failure rfl }
  · exact ⟨j, h⟩

/-- What holds of runs in progress holds after any schedule. -/
theorem Inv.run (hblocks : Finalized.Consistent blocks)
    (hjobs : ∀ job ∈ jobs, job.block ∈ blocks) (h : Inv t blocks jobs pool j)
    (schedule : List Nat) : ∃ k, Inv t blocks jobs (pool.run t schedule) k := by
  induction schedule generalizing pool j with
  | nil => exact ⟨j, h⟩
  | cons i schedule ih =>
    obtain ⟨k, hk⟩ := h.step hblocks hjobs i
    exact ih hk

/-- A run that came to its end has carried its script through. -/
theorem Inv.holds_of_finished (h : Inv t blocks jobs pool j) {job : Job}
    (hfinished : pool.Finished jobs job) : ∀ e ∈ job.script t, j.Holds e.place := by
  obtain ⟨i, hjob, hpending⟩ := hfinished
  obtain ⟨done, hsplit, hdone⟩ := h.head i job [] hjob hpending
  rw [Task.script, List.append_nil] at hsplit
  exact hsplit ▸ hdone

/-- All that the scripts write of results can be written as bytes. -/
theorem Inv.fits (h : Inv t blocks jobs pool j) (c : String) (r : TxResult)
    (hr : .result c r ∈ j) : Wire.txResult.fits r = true := by
  obtain ⟨l, ⟨job, -, rfl⟩, hfirst⟩ := h.written.exists_first hr
  rcases Job.mem_script hfirst.mem with he | ⟨-, r', -, hfits, he⟩ | ⟨-, tx, -, q, -, he⟩
  · cases he
  · cases he
    exact hfits
  · cases he

/-- **Indexing does not depend on the order of the work.** Runs of blocks of different heights take
turns in any way, and any of them may be cut short, but each block has a primary run and a dispatch
run that come to their ends. Then no unit misses a block; every plan finds the same transactions in
the same order as if the runs of the blocks had gone one after the other, those of one height by
descending position; and the numbers of events and of requests are the same as well. -/
theorem order_independent (t : TxIndexer) {blocks : List Finalized} {jobs : List Job}
    {schedule : List Nat} (hblocks : blocks.Pairwise fun b b' => b.height ≠ b'.height)
    (hjobs : ∀ job ∈ jobs, job.block ∈ blocks)
    (hfinished : ∀ b ∈ blocks, ∀ kind, ((start jobs).run t schedule).Finished jobs ⟨kind, b⟩) :
    let pool := (start jobs).run t schedule
    let st := Job.sequential t blocks .empty
    (∀ failure ∈ pool.failures, failure.isNotFound = false) ∧
      (∀ p, ∃ rows, t.store.search p pool.storage = .ok rows ∧ t.store.search p st = .ok rows ∧
        rows.Pairwise StoredTx.Descends) ∧
      (∃ n, t.store.eventCount pool.storage = .ok n ∧ t.store.eventCount st = .ok n) ∧
      ∃ n, t.store.requestCount pool.storage = .ok n ∧ t.store.requestCount st = .ok n := by
  intro pool st
  have hblocks := Finalized.consistent_of_pairwise hblocks
  obtain ⟨j, hj⟩ := inv_start.run hblocks hjobs schedule
  obtain ⟨k, hrun, hk, -, hkall⟩ :=
    Job.sequential_written (t := t) hblocks (fun b hb => hb) Journal.Written.nil
  have hjall : ∀ l, Job.Scripts t blocks l → ∀ e ∈ l, j.Holds e.place := by
    rintro l ⟨⟨kind, b⟩, hb, rfl⟩
    exact hj.holds_of_finished (hfinished b hb kind)
  have hkall : ∀ l, Job.Scripts t blocks l → ∀ e ∈ l, k.Holds e.place := by
    rintro l ⟨job, hjob, rfl⟩
    exact hkall job hjob
  have horderly := Job.orderly t hblocks
  -- Both journals are written by the same scripts, and hold all that these write.
  have hperm : j.Perm k := hj.written.perm horderly hk hjall hkall
  have hst : st = k.storage := hrun
  rw [hj.storage, hst]
  have hsearch : ∀ (i : Journal) (p : Plan), i.Valid →
      t.store.search p i.storage = .ok (i.search t.store.chainId p) := by
    intro i p hi
    rw [← hi.search_database]
    rfl
  refine ⟨hj.found, fun p => ⟨_, hsearch j p hj.written.valid, ?_, ?_⟩, ⟨_, rfl, ?_⟩, ⟨_, rfl, ?_⟩⟩
  · rw [hsearch k p hk.valid, Journal.search_eq_of_perm hperm hj.written.valid hk.valid
      (hj.written.ascending horderly) (hk.ascending horderly)]
  · exact (hj.written.ascending horderly).pairwise_search hj.written.valid hj.fits _ _
  · apply congrArg Except.ok
    show k.database.events.size = j.database.events.size
    rw [hk.valid.events_size, hj.written.valid.events_size]
    exact (hperm.map _).sum_nat.symm
  · apply congrArg Except.ok
    show k.database.requests.size = j.database.requests.size
    rw [hk.valid.requests_size, hj.written.valid.requests_size]
    exact (hperm.map _).sum_nat.symm

/-- Runs of two blocks, the second run being one too many. -/
def fiveRuns : List Job :=
  [⟨.dispatch, .withOneTx 2⟩, ⟨.primary, .withOneTx 1⟩, ⟨.primary, .withOneTx 2⟩,
    ⟨.dispatch, .withOneTx 1⟩, ⟨.primary, .withOneTx 1⟩]

/-- The general statement at two blocks whose runs take turns, one of them being cut short. -/
theorem order_independent_two_blocks :
    let t : TxIndexer := ⟨⟨0, "testing"⟩, .standard, 100, id⟩
    let pool := (start fiveRuns).run t [0, 4, 2, 1, 3, 2, 4]
    let st := Job.sequential t [.withOneTx 1, .withOneTx 2] .empty
    (∀ failure ∈ pool.failures, failure.isNotFound = false) ∧
      (∀ p, ∃ rows, t.store.search p pool.storage = .ok rows ∧ t.store.search p st = .ok rows ∧
        rows.Pairwise StoredTx.Descends) ∧
      (∃ n, t.store.eventCount pool.storage = .ok n ∧ t.store.eventCount st = .ok n) ∧
      ∃ n, t.store.requestCount pool.storage = .ok n ∧ t.store.requestCount st = .ok n := by
  refine order_independent ⟨⟨0, "testing"⟩, .standard, 100, id⟩ (by decide) ?_ ?_
  · decide +kernel
  · intro b hb kind
    rcases List.mem_pair.1 hb with rfl | rfl <;> cases kind
    · exact ⟨4, rfl, by decide +kernel⟩
    · exact ⟨3, rfl, by decide +kernel⟩
    · exact ⟨2, rfl, by decide +kernel⟩
    · exact ⟨0, rfl, by decide +kernel⟩

end Pool
end TxIndex
