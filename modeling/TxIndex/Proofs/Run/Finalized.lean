import TxIndex.Proofs.Journal.Actions
import TxIndex.Proofs.Journal.Script
import TxIndex.Proofs.Wire.Failures
import TxIndex.Proofs.Wire.RoundTrip

/-! # The runs of a finalized block

A finalized block is indexed by two kinds of runs. A primary run records the block and then its
results; a dispatch run records the requests for its transactions, each with the block. Both go by
units of work (`Task`) and stop at the first unit that fails. What a run records, as far as it comes,
is its script (`Task.script`), and the scripts are orderly if there is one block at each height
(`Job.orderly`). -/
namespace TxIndex

/-- A finalized block. -/
structure Finalized where
  req : FinalizeRequest
  res : FinalizeResponse
deriving DecidableEq

namespace Finalized

variable (b : Finalized)

/-- The height of the block. -/
def height : Int64 := b.req.height

/-- What is recorded of the block itself. -/
def events : BlockEvents := .ofFinalized b.req b.res

/-- The results of its transactions. -/
def results : List TxResult := b.req.results b.res

variable {b} {r : TxResult} {i : Nat}

/-- A result has the position of its transaction, and its parts are those of the block. -/
theorem results_getElem? (h : b.results[i]? = some r) :
    r.height = b.height ∧ r.index = UInt32.ofNat i ∧ b.req.txs[i]? = some r.tx ∧
      b.res.txResults[i]? = some r.result := by
  unfold results FinalizeRequest.results at h
  rw [List.getElem?_map, List.getElem?_zipIdx] at h
  obtain ⟨⟨⟨tx, result⟩, n⟩, hp, rfl⟩ := Option.map_eq_some_iff.1 h
  obtain ⟨⟨tx', result'⟩, hzip, heq⟩ := Option.map_eq_some_iff.1 hp
  obtain ⟨⟨rfl, rfl⟩, rfl⟩ : (tx' = tx ∧ result' = result) ∧ 0 + i = n := by simpa using heq
  obtain ⟨htx, hresult⟩ := List.getElem?_zip_eq_some.1 hzip
  exact ⟨rfl, by rw [Nat.zero_add], htx, hresult⟩

theorem height_of_mem_results (h : r ∈ b.results) : r.height = b.height := by
  obtain ⟨i, hi⟩ := List.getElem?_of_mem h
  exact (results_getElem? hi).1

theorem results_middle {before after : List TxResult} (h : b.results = before ++ r :: after) :
    b.results[before.length]? = some r := by
  rw [h]
  simp

/-- The position of a result is no greater than the number of those before it. -/
theorem index_le_length {before after : List TxResult} (h : b.results = before ++ r :: after) :
    r.index.toNat ≤ before.length := by
  obtain ⟨-, hindex, -, -⟩ := results_getElem? (results_middle h)
  rw [hindex, UInt32.toNat_ofNat']
  exact Nat.mod_le _ _

/-- Before a result stand those of the positions up to their number. -/
theorem exists_earlier {before after : List TxResult} (h : b.results = before ++ r :: after)
    {i : UInt32} (hi : i.toNat < before.length) :
    ∃ r' ∈ before, r'.height = r.height ∧ r'.index = i := by
  obtain ⟨hheight, -, -, -⟩ := results_getElem? (results_middle h)
  have hr' : b.results[i.toNat]? = some before[i.toNat] := by
    rw [h, List.getElem?_append_left hi, List.getElem?_eq_getElem hi]
  obtain ⟨hheight', hindex', -, -⟩ := results_getElem? hr'
  refine ⟨_, List.getElem_mem hi, hheight'.trans hheight.symm, ?_⟩
  rw [hindex', UInt32.ofNat_toNat]

/-- A block whose one transaction has no messages and emits one event. -/
def withOneTx (height : Int64) : Finalized :=
  let raw := Wire.tx.encode ⟨⟨[], "memo"⟩, ⟨⟨[], 0, "", ""⟩⟩, []⟩
  ⟨⟨height, [raw], ⟨0, 0⟩⟩, ⟨[], [⟨0, [], "", "", 0, 0, [⟨"n", [⟨"v", "5", true⟩]⟩], ""⟩]⟩⟩

/-- At each height there is one block. -/
def Consistent (blocks : List Finalized) : Prop :=
  ∀ b ∈ blocks, ∀ b' ∈ blocks, b.height = b'.height → b = b'

theorem consistent_of_pairwise {blocks : List Finalized}
    (h : blocks.Pairwise fun b b' => b.height ≠ b'.height) : Consistent blocks := by
  intro b hb b' hb' heq
  have hinj : (blocks.map height).Nodup := List.pairwise_map.2 h
  exact List.inj_on_of_nodup_map hinj hb hb' heq

end Finalized

/-- The request for a transaction has what was read of it; or there is none, though not for a missing
block. -/
theorem TxIndexer.request_cases (t : TxIndexer) (req : FinalizeRequest) (i : Nat)
    (raw : List UInt8) :
    (∃ tx messages, t.encoding.decodeTx raw = .ok tx ∧ i < UInt32.size ∧
      t.encoding.encodeMessages tx.body.messages = .ok messages ∧
      t.request req i raw = .ok ⟨req.height, UInt32.ofNat i, req.time, txHash raw, messages,
        Encoding.encodeFee tx.authInfo.fee, tx.body.memo⟩) ∨
    ∃ failure, failure.isNotFound = false ∧ t.request req i raw = .error failure := by
  unfold TxIndexer.request
  cases hread : t.encoding.decodeTx raw with
  | error failure =>
    obtain ⟨reason, rfl⟩ := Encoding.decodeTx_eq_error hread
    exact .inr ⟨_, rfl, rfl⟩
  | ok tx =>
    simp only [bind, Except.bind]
    by_cases hi : i < UInt32.size
    · rw [if_pos hi]
      cases hwrite : t.encoding.encodeMessages tx.body.messages with
      | error failure =>
        obtain ⟨reason, rfl⟩ := Encoding.encodeMessages_eq_error hwrite
        exact .inr ⟨_, rfl, rfl⟩
      | ok messages => exact .inl ⟨tx, messages, rfl, hi, hwrite, rfl⟩
    · rw [if_neg hi]
      exact .inr ⟨_, rfl, rfl⟩

/-- A unit of work on finalized blocks. -/
inductive Task where
  | block (b : Finalized)
  | result (r : TxResult)
  | request (b : Finalized) (tx : List UInt8 × Nat)
deriving DecidableEq

namespace Task

variable (t : TxIndexer)

/-- Does the unit. -/
def perform : Task → Action Storage Unit
  | .block b => t.store.indexBlock b.events
  | .result r => t.store.indexTx r
  | .request b tx => t.insertTx b.req b.res tx

/-- What the unit does to a journal. -/
def record : Task → Action Journal Unit
  | .block b => Journal.indexBlock t.store.chainId b.events
  | .result r => Journal.indexTx t.store.chainId r
  | .request b tx => Journal.insertTx t b.req b.res tx

theorem perform_follows (task : Task) : (task.perform t).Follows (task.record t) := by
  cases task with
  | block b => exact t.store.indexBlock_follows b.events
  | result r => exact t.store.indexTx_follows r
  | request b tx => exact t.insertTx_follows b.req b.res tx

/-- The entries of a unit, unless it fails whatever the journal holds. -/
def entries? : Task → Option (List Entry)
  | .block b => some [.block t.store.chainId b.events]
  | .result r => if Wire.txResult.fits r then some [.result t.store.chainId r] else none
  | .request b tx =>
    match t.request b.req tx.2 tx.1 with
    | .ok q => some [.block t.store.chainId b.events, .request t.store.chainId b.height q]
    | .error _ => none

/-- The entries of units one after the other, up to the first that fails. -/
def script : List Task → List Entry
  | [] => []
  | task :: tasks =>
    match task.entries? t with
    | some es => es ++ script tasks
    | none => []

end Task

/-- The two kinds of runs. -/
inductive JobKind where
  | primary
  | dispatch
deriving DecidableEq

/-- A run for a block. -/
structure Job where
  kind : JobKind
  block : Finalized
deriving DecidableEq

namespace Job

/-- The units of a run. -/
def tasks : Job → List Task
  | ⟨.primary, b⟩ => .block b :: b.results.map .result
  | ⟨.dispatch, b⟩ => b.req.txs.zipIdx.map (.request b)

/-- What a run records if it is carried through. -/
def script (t : TxIndexer) (job : Job) : List Entry := Task.script t job.tasks

variable {t : TxIndexer} {b : Finalized} {done rest : List Entry} {e : Entry}

theorem script_results (t : TxIndexer) (rs : List TxResult) :
    Task.script t (rs.map .result) =
      (rs.takeWhile Wire.txResult.fits).map (.result t.store.chainId) := by
  induction rs with
  | nil => rfl
  | cons r rs ih =>
    rw [List.map_cons, Task.script, Task.entries?]
    by_cases h : Wire.txResult.fits r = true
    · rw [if_pos h, List.takeWhile_cons_of_pos h, List.map_cons, ih]
      rfl
    · rw [if_neg h, List.takeWhile_cons_of_neg h]
      rfl

/-- A primary run records the block first, and then results, each behind all before it. -/
theorem primary_split (h : script t ⟨.primary, b⟩ = done ++ e :: rest) :
    (done = [] ∧ e = .block t.store.chainId b.events) ∨
      ∃ before r after, b.results = before ++ r :: after ∧ Wire.txResult.fits r = true ∧
        done = .block t.store.chainId b.events :: before.map (.result t.store.chainId) ∧
        e = .result t.store.chainId r := by
  have hscript : script t ⟨.primary, b⟩ = .block t.store.chainId b.events ::
      (b.results.takeWhile Wire.txResult.fits).map (.result t.store.chainId) :=
    congrArg (List.cons _) (script_results t b.results)
  rw [hscript] at h
  cases done with
  | nil => exact .inl ⟨rfl, (List.cons.inj h).1.symm⟩
  | cons d done =>
    obtain ⟨rfl, hdone⟩ := List.cons.inj h
    obtain ⟨before, tail, htake, rfl, htail⟩ := List.map_eq_append_iff.1 hdone
    obtain ⟨r, after, rfl, rfl, -⟩ := List.map_eq_cons_iff.1 htail
    obtain ⟨later, hresults⟩ := List.takeWhile_prefix (l := b.results) Wire.txResult.fits
    have hr : r ∈ b.results.takeWhile Wire.txResult.fits := by simp [htake]
    refine .inr ⟨before, r, after ++ later, ?_, List.mem_takeWhile_imp hr, rfl, rfl⟩
    rw [← hresults, htake, List.append_assoc, List.cons_append]

/-- A dispatch run records requests, each behind the block. -/
theorem dispatch_split {txs : List (List UInt8 × Nat)}
    (h : Task.script t (txs.map (.request b)) = done ++ e :: rest) :
    e = .block t.store.chainId b.events ∨
      .block t.store.chainId b.events ∈ done ∧ ∃ tx ∈ txs, ∃ q,
        t.request b.req tx.2 tx.1 = .ok q ∧ e = .request t.store.chainId b.height q := by
  -- A transaction that can be read brings two entries, and the split may lie before, between or
  -- behind them.
  induction txs generalizing done with
  | nil => simp [Task.script] at h
  | cons tx txs ih =>
    rw [List.map_cons, Task.script, Task.entries?] at h
    cases hq : t.request b.req tx.2 tx.1 with
    | error failure => simp [hq] at h
    | ok q =>
      simp only [hq, List.cons_append, List.nil_append] at h
      match done with
      | [] => exact .inl (List.cons.inj h).1.symm
      | [d] =>
        obtain ⟨rfl, hrest⟩ := List.cons.inj h
        refine .inr ⟨List.mem_cons_self, tx, List.mem_cons_self, q, hq, ?_⟩
        exact (List.cons.inj hrest).1.symm
      | d :: d' :: done =>
        obtain ⟨rfl, hrest⟩ := List.cons.inj h
        obtain ⟨rfl, hlater⟩ := List.cons.inj hrest
        apply (ih hlater).imp_right
        rintro ⟨_, tx', htx', hq'⟩
        exact ⟨List.mem_cons_self, tx', List.mem_cons_of_mem _ htx', hq'⟩

/-- What a run for a block may record. -/
theorem mem_script {job : Job} (h : e ∈ job.script t) :
    e = .block t.store.chainId job.block.events ∨
      (job.kind = .primary ∧ ∃ r ∈ job.block.results,
        Wire.txResult.fits r = true ∧ e = .result t.store.chainId r) ∨
      (job.kind = .dispatch ∧ ∃ tx ∈ job.block.req.txs.zipIdx, ∃ q,
        t.request job.block.req tx.2 tx.1 = .ok q ∧
          e = .request t.store.chainId job.block.height q) := by
  obtain ⟨kind, b⟩ := job
  obtain ⟨done, rest, hsplit⟩ := List.append_of_mem h
  cases kind with
  | primary =>
    rcases primary_split hsplit with ⟨-, he⟩ | ⟨before, r, after, hr, hfits, -, he⟩
    · exact .inl he
    · exact .inr (.inl ⟨rfl, r, by simp [hr], hfits, he⟩)
  | dispatch =>
    rcases dispatch_split hsplit with he | ⟨-, tx, htx, q, hq, he⟩
    · exact .inl he
    · exact .inr (.inr ⟨rfl, tx, htx, q, hq, he⟩)

/-- All that a run records belongs to its block. -/
theorem home_of_mem_script {job : Job} (h : e ∈ job.script t) :
    e.place.home = .block t.store.chainId job.block.height := by
  rcases mem_script h with rfl | ⟨-, r, hr, -, rfl⟩ | ⟨-, tx, -, q, -, rfl⟩
  · rfl
  · exact congrArg (Place.block _) (Finalized.height_of_mem_results hr)
  · rfl

/-- The scripts of all runs for some blocks. -/
def Scripts (t : TxIndexer) (blocks : List Finalized) (l : List Entry) : Prop :=
  ∃ job : Job, job.block ∈ blocks ∧ l = job.script t

variable {blocks : List Finalized}

/-- Two runs write the same to a place. -/
theorem script_agree (hblocks : Finalized.Consistent blocks) {job job' : Job}
    (hjob : job.block ∈ blocks) (hjob' : job'.block ∈ blocks) {e' : Entry}
    (he : Journal.First e (job.script t)) (he' : Journal.First e' (job'.script t))
    (hp : e.place = e'.place) : e = e' := by
  have hheight : job.block.height = job'.block.height := by
    have hhome := (home_of_mem_script he.mem).symm.trans
      ((congrArg Place.home hp).trans (home_of_mem_script he'.mem))
    exact (Place.block.inj hhome).2
  have hblock : job.block = job'.block := hblocks _ hjob _ hjob' hheight
  by_cases hkind : job.kind = job'.kind
  · obtain rfl : job = job' := by
      cases job
      cases job'
      simp_all
    exact he.eq he' hp
  · -- Runs of different kinds share the place of the block alone.
    rcases mem_script he.mem with rfl | ⟨hk, r, -, -, rfl⟩ | ⟨hk, tx, -, q, -, rfl⟩ <;>
      rcases mem_script he'.mem with rfl | ⟨hk', r', -, -, rfl⟩ | ⟨hk', tx', -, q', -, rfl⟩ <;>
      first
        | exact congrArg (Entry.block _) (congrArg Finalized.events hblock)
        | exact absurd (hk.trans hk'.symm) hkind
        | simp at hp

/-- **The scripts are orderly** if there is one block at each height. Within a script the block
comes before its results and requests, and its results come by their positions; between scripts,
entries for one place come from one block and are therefore the same. -/
theorem orderly (t : TxIndexer) (hblocks : Finalized.Consistent blocks) :
    Journal.Orderly t.store.chainId (Scripts t blocks) where
  chain := by
    rintro l ⟨job, -, rfl⟩ e he
    have hhome := congrArg Place.chainId (home_of_mem_script he)
    rwa [Place.chainId_home] at hhome
  rooted := by
    rintro l ⟨⟨kind, b⟩, -, rfl⟩ done e rest hsplit
    cases kind with
    | primary =>
      rcases primary_split hsplit with ⟨-, rfl⟩ | ⟨before, r, after, hr, -, rfl, rfl⟩
      · exact .inl rfl
      · refine .inr ⟨_, List.mem_cons_self, ?_⟩
        have hmem : r ∈ b.results := by simp [hr]
        exact congrArg (Place.block _) (Finalized.height_of_mem_results hmem).symm
    | dispatch =>
      rcases dispatch_split hsplit with rfl | ⟨hblock, tx, -, q, -, rfl⟩
      · exact .inl rfl
      · exact .inr ⟨_, hblock, rfl⟩
  positions := by
    rintro l ⟨⟨kind, b⟩, -, rfl⟩ done r rest hsplit i hi
    cases kind with
    | primary =>
      rcases primary_split hsplit with ⟨-, he⟩ | ⟨before, r', after, hr, -, rfl, he⟩
      · cases he
      · cases he
        have hlt := Nat.lt_of_lt_of_le (UInt32.lt_iff_toNat_lt.1 hi) (Finalized.index_le_length hr)
        obtain ⟨r', hr', hheight, rfl⟩ := Finalized.exists_earlier hr hlt
        refine ⟨.result _ r', List.mem_cons_of_mem _ (List.mem_map_of_mem hr'), ?_⟩
        exact congrArg (Place.result _ · _) hheight
    | dispatch =>
      rcases dispatch_split hsplit with he | ⟨-, tx, -, q, -, he⟩ <;> cases he
  agree := by
    rintro l l' ⟨job, hjob, rfl⟩ ⟨job', hjob', rfl⟩ e e' he he' hp
    exact script_agree hblocks hjob hjob' he he' hp

end Job
end TxIndex
