import TxIndex.Proofs.Run.History
import TxIndex.Proofs.Run.Repetition
import TxIndex.Proofs.Wire.Canonical
import TxIndex.Proofs.Wire.Failures

/-! # What failed calls leave

A unit of work that fails leaves everything as it was, and a call that goes unit by unit stops at
the first that fails. Which one that is can be told beforehand, for what the units before it do makes
no difference to it (`Action.Decided`). So a failed call leaves what it would have left if it had
been given only the items in front of that one (`Store.leavesPrefix`): results stop at the first
whose block is missing, and transactions at the first that cannot be read. -/
namespace TxIndex

/-! ## Units of work -/

namespace Database

variable {db : Database} {chainId : String} {height : Int64}

/-- The chain has recorded no block of the height. -/
def LacksBlock (db : Database) (chainId : String) (height : Int64) : Prop :=
  ∀ row ∈ db.blocks.rows, ¬ (row.height = height ∧ row.chainId = chainId)

theorem blockId?_eq_none_iff :
    db.blockId? height chainId = none ↔ db.LacksBlock chainId height := by
  simp [blockId?, Table.findId?, LacksBlock, isBlock]

/-- A recorded block is there. -/
theorem exists_blockId?_recordBlock (db : Database) (chainId : String) (b : BlockEvents) :
    ∃ id, (db.recordBlock chainId b).blockId? b.height chainId = some id := by
  apply Option.ne_none_iff_exists'.1
  unfold recordBlock
  cases hid : db.blockId? b.height chainId with
  | some id => simp [hid]
  | none =>
    intro hnone
    exact blockId?_eq_none_iff.1 hnone ⟨b.height, chainId, b.time⟩ (by simp [addBlock]) ⟨rfl, rfl⟩

/-- A request is recorded, or it is there already. -/
theorem exists_recordRequest_eq_ok (db : Database) (chainId : String) (b : BlockEvents)
    (q : TxRequest) : ∃ isNew db', db.recordRequest chainId b q = .ok (isNew, db') := by
  obtain ⟨id, hid⟩ := db.exists_blockId?_recordBlock chainId b
  simp only [recordRequest, requireBlock, hid, bind, Except.bind]
  split
  · exact ⟨_, _, rfl⟩
  · exact ⟨_, _, rfl⟩

/-- A result is recorded in its block, or it is there already. The blocks stay as they are. -/
theorem exists_recordResult_eq_ok {r : TxResult} {id : Nat}
    (hid : db.blockId? r.height chainId = some id) (hash : String) (blob : List UInt8) :
    ∃ db', db.recordResult chainId r hash blob = .ok db' ∧ db'.blocks = db.blocks := by
  simp only [recordResult, requireBlock, hid, bind, Except.bind]
  split
  · exact ⟨_, rfl, rfl⟩
  · exact ⟨_, rfl, by simp [addResult]⟩

/-- A result without its block is refused. -/
theorem recordResult_of_lacksBlock {r : TxResult} (h : db.LacksBlock chainId r.height)
    (hash : String) (blob : List UInt8) :
    db.recordResult chainId r hash blob = .error (.blockNotFound r.height chainId) := by
  simp only [recordResult, requireBlock, blockId?_eq_none_iff.2 h, bind, Except.bind]

end Database

namespace TxResult

/-- No part of the result is too long to be written. -/
def IsWritable (r : TxResult) : Prop := ∀ n ∈ r.lengths, n < 2 ^ 32

theorem exists_encodeResult_eq_ok {r : TxResult} :
    (∃ blob, Encoding.encodeResult r = .ok blob) ↔ r.IsWritable :=
  Wire.exists_encodeAs_eq_ok Wire.measures_txResult "tx result"

end TxResult

namespace Store

variable (s : Store) {st : Storage}

/-- A unit that fails leaves everything as it was. -/
theorem transact_of_failed {α : Type} {work : Database → Except Failure (α × Database)}
    {failure : Failure} (h : (s.transact work st).1 = .error failure) :
    (s.transact work st).2 = st := by
  unfold transact at h ⊢
  by_cases hopen : s.isOpen st = true
  · rw [if_pos hopen] at h ⊢
    cases hwork : work st.database with
    | ok done =>
      rw [hwork] at h
      cases h
    | error failure => rfl
  · rw [if_neg hopen]

theorem indexTx_of_failed {r : TxResult} {failure : Failure}
    (h : (s.indexTx r st).1 = .error failure) : (s.indexTx r st).2 = st := by
  unfold indexTx at h ⊢
  cases hblob : Encoding.encodeResult r with
  | error failure => rfl
  | ok blob =>
    rw [hblob] at h
    exact s.transact_of_failed h

/-- A request is recorded as long as the store is open. -/
theorem insertRequest_of_open (hs : s.id ∉ st.closed) (b : BlockEvents) (q : TxRequest) :
    ∃ isNew db, s.insertRequest b q st = (.ok isNew, ⟨db, st.closed⟩) := by
  obtain ⟨isNew, db, hdb⟩ := st.database.exists_recordRequest_eq_ok s.chainId b q
  refine ⟨isNew, db, ?_⟩
  rw [insertRequest, s.transact_of_open _ st hs, hdb]

/-- What is wrong with a result: it cannot be written, or its block is missing. -/
def resultFault? (db : Database) (r : TxResult) : Option Failure :=
  match Encoding.encodeResult r with
  | .error failure => some failure
  | .ok _ =>
    if db.blockId? r.height s.chainId = none then some (.blockNotFound r.height s.chainId) else none

theorem resultFault?_cases (db : Database) (r : TxResult) :
    (∃ failure, Encoding.encodeResult r = .error failure ∧
        s.resultFault? db r = some failure) ∨
      (∃ blob, Encoding.encodeResult r = .ok blob ∧ db.LacksBlock s.chainId r.height ∧
        s.resultFault? db r = some (.blockNotFound r.height s.chainId)) ∨
      ∃ blob id, Encoding.encodeResult r = .ok blob ∧
        db.blockId? r.height s.chainId = some id ∧ s.resultFault? db r = none := by
  unfold resultFault?
  cases hblob : Encoding.encodeResult r with
  | error failure => exact .inl ⟨failure, rfl, rfl⟩
  | ok blob =>
    cases hid : db.blockId? r.height s.chainId with
    | none =>
      exact .inr (.inl ⟨blob, rfl, Database.blockId?_eq_none_iff.1 hid, if_pos rfl⟩)
    | some id => exact .inr (.inr ⟨blob, id, rfl, rfl, if_neg (Option.some_ne_none id)⟩)

theorem resultFault?_eq_none {db : Database} {r : TxResult} :
    s.resultFault? db r = none ↔ r.IsWritable ∧ ¬ db.LacksBlock s.chainId r.height := by
  rw [← TxResult.exists_encodeResult_eq_ok, ← Database.blockId?_eq_none_iff]
  rcases s.resultFault?_cases db r with
    ⟨failure, hblob, hfault⟩ | ⟨blob, hblob, hlacks, hfault⟩ | ⟨blob, id, hblob, hid, hfault⟩
  · simp [hblob, hfault]
  · simp [hfault, Database.blockId?_eq_none_iff.2 hlacks]
  · simp [hblob, hid, hfault]

theorem resultFault?_eq_blockNotFound {db : Database} {r : TxResult} {height : Int64}
    {chainId : String} : s.resultFault? db r = some (.blockNotFound height chainId) ↔
      r.IsWritable ∧ db.LacksBlock s.chainId r.height ∧ height = r.height ∧
        chainId = s.chainId := by
  rw [← TxResult.exists_encodeResult_eq_ok, ← Database.blockId?_eq_none_iff]
  rcases s.resultFault?_cases db r with
    ⟨failure, hblob, hfault⟩ | ⟨blob, hblob, hlacks, hfault⟩ | ⟨blob, id, hblob, hid, hfault⟩
  · obtain ⟨reason, rfl⟩ := Encoding.encodeResult_eq_error hblob
    simp [hblob, hfault]
  · simp [hblob, hfault, Database.blockId?_eq_none_iff.2 hlacks, eq_comm]
  · simp [hid, hfault]

/-- As long as the store is open, results do not change what is wrong with later ones. -/
theorem indexTx_decided (db : Database) :
    Action.Decided (fun st => s.id ∉ st.closed ∧ st.database.blocks = db.blocks)
      (s.resultFault? db) s.indexTx where
  done r st hst hnone := by
    obtain ⟨hs, hblocks⟩ := hst
    rcases s.resultFault?_cases db r with
      ⟨failure, -, hfault⟩ | ⟨blob, -, -, hfault⟩ | ⟨blob, id, hblob, hid, -⟩
    · cases hfault.symm.trans hnone
    · cases hfault.symm.trans hnone
    · have hid' : st.database.blockId? r.height s.chainId = some id := by
        rw [Database.blockId?, hblocks]
        exact hid
      obtain ⟨db', hdb', hblocks'⟩ :=
        Database.exists_recordResult_eq_ok hid' (txHash r.tx) blob
      refine ⟨⟨db', st.closed⟩, ?_, hs, hblocks'.trans hblocks⟩
      simp only [indexTx, hblob, s.transact_of_open _ st hs, hdb']
      rfl
  failed r st failure hst hfault := by
    obtain ⟨hs, hblocks⟩ := hst
    rcases s.resultFault?_cases db r with
      ⟨failure', hblob, hfault'⟩ | ⟨blob, hblob, hlacks, hfault'⟩ | ⟨blob, id, -, -, hnone⟩
    · obtain rfl := Option.some.inj (hfault.symm.trans hfault')
      simp only [indexTx, hblob]
    · obtain rfl := Option.some.inj (hfault.symm.trans hfault')
      have hlacks' : st.database.LacksBlock s.chainId r.height := by
        rw [Database.LacksBlock, hblocks]
        exact hlacks
      simp only [indexTx, hblob, s.transact_of_open _ st hs,
        Database.recordResult_of_lacksBlock hlacks']
      rfl
    · cases hfault.symm.trans hnone

/-- Results stop at the first whose block is missing, if all up to it can be written. -/
theorem indexTxs_of_isFirst (hs : s.id ∉ st.closed) {rs : List TxResult} {k : Nat} {r : TxResult}
    (hfirst : IsFirst (fun r => st.database.LacksBlock s.chainId r.height) rs k r)
    (hwritable : ∀ r' ∈ rs.take (k + 1), r'.IsWritable) :
    s.indexTxs rs st = (.error (.blockNotFound r.height s.chainId), (s.indexTxs (rs.take k) st).2) ∧
      (s.indexTxs (rs.take k) st).1 = .ok () := by
  obtain ⟨hk, hlacks, hbefore⟩ := hfirst
  have hr : s.resultFault? st.database r = some (.blockNotFound r.height s.chainId) :=
    s.resultFault?_eq_blockNotFound.2
      ⟨hwritable r ((mem_take_succ hk).2 (.inr rfl)), hlacks, rfl, rfl⟩
  exact (s.indexTx_decided st.database).each_eq ⟨hs, rfl⟩ hk hr fun b hb =>
    s.resultFault?_eq_none.2 ⟨hwritable b ((mem_take_succ hk).2 (.inl hb)), hbefore b hb⟩

/-- If results fail for a missing block, it is at the first whose block is missing. -/
theorem exists_isFirst_of_blockNotFound (hs : s.id ∉ st.closed) {rs : List TxResult}
    {height : Int64} {chainId : String}
    (herror : (s.indexTxs rs st).1 = .error (.blockNotFound height chainId)) :
    ∃ k r, IsFirst (fun r => st.database.LacksBlock s.chainId r.height) rs k r ∧
      (∀ r' ∈ rs.take (k + 1), r'.IsWritable) ∧ height = r.height ∧ chainId = s.chainId := by
  obtain ⟨k, r, hk, hr, hbefore⟩ :=
    (s.indexTx_decided st.database).exists_of_each_error ⟨hs, rfl⟩ herror
  obtain ⟨hwritable, hlacks, hheight, hchain⟩ := s.resultFault?_eq_blockNotFound.1 hr
  refine ⟨k, r, ⟨hk, hlacks, fun b hb => (s.resultFault?_eq_none.1 (hbefore b hb)).2⟩,
    fun r' hr' => ?_, hheight, hchain⟩
  rcases (mem_take_succ hk).1 hr' with hr' | rfl
  · exact (s.resultFault?_eq_none.1 (hbefore r' hr')).1
  · exact hwritable

end Store

namespace TxIndexer

variable (t : TxIndexer) (req : FinalizeRequest) (res : FinalizeResponse)

/-- What is wrong with a transaction at its position. -/
def txFault? (tx : List UInt8 × Nat) : Option Failure :=
  match t.request req tx.2 tx.1 with
  | .error failure => some failure
  | .ok _ => none

/-- A transaction is fit to be recorded, or cannot be read, or stands too far back. -/
theorem txFault?_cases (raw : List UInt8) (i : Nat) :
    (∃ reason, t.encoding.decodeTx raw = .error (.decode "tx" reason) ∧
        t.txFault? req (raw, i) = some (.decode "tx" reason)) ∨
      (∃ tx reason, t.encoding.decodeTx raw = .ok tx ∧ UInt32.size ≤ i ∧
        t.txFault? req (raw, i) = some (.encode "tx index" reason)) ∨
      ∃ tx, t.encoding.decodeTx raw = .ok tx ∧ i < UInt32.size ∧
        t.txFault? req (raw, i) = none := by
  unfold txFault? request
  cases hread : t.encoding.decodeTx raw with
  | error failure =>
    obtain ⟨reason, rfl⟩ := Encoding.decodeTx_eq_error hread
    exact .inl ⟨reason, rfl, rfl⟩
  | ok tx =>
    simp only [bind, Except.bind]
    by_cases hi : i < UInt32.size
    · obtain ⟨messages, hmessages⟩ := Encoding.exists_encodeMessages_of_decodeTx hread
      rw [if_pos hi, hmessages]
      exact .inr (.inr ⟨tx, rfl, hi, rfl⟩)
    · rw [if_neg hi]
      exact .inr (.inl ⟨tx, _, rfl, Nat.not_lt.1 hi, rfl⟩)

theorem txFault?_eq_none {raw : List UInt8} {i : Nat} : t.txFault? req (raw, i) = none ↔
    (∃ tx, t.encoding.decodeTx raw = .ok tx) ∧ i < UInt32.size := by
  rcases t.txFault?_cases req raw i with
    ⟨reason, hread, hfault⟩ | ⟨tx, reason, hread, hi, hfault⟩ | ⟨tx, hread, hi, hfault⟩
  · simp [hread, hfault]
  · simp [hfault, Nat.not_lt.2 hi]
  · simp [hread, hfault, hi]

theorem txFault?_eq_decode {raw : List UInt8} {i : Nat} {subject reason : String} :
    t.txFault? req (raw, i) = some (.decode subject reason) ↔
      t.encoding.decodeTx raw = .error (.decode subject reason) := by
  rcases t.txFault?_cases req raw i with
    ⟨reason', hread, hfault⟩ | ⟨tx, reason', hread, hi, hfault⟩ | ⟨tx, hread, hi, hfault⟩
  · simp [hread, hfault]
  · simp [hread, hfault]
  · simp [hread, hfault]

/-- As long as the store is open, a transaction is recorded unless something is wrong with it. -/
theorem insertTx_decided : Action.Decided (fun st => t.store.id ∉ st.closed) (t.txFault? req)
    (t.insertTx req res) where
  done tx st hs hnone := by
    cases hrequest : t.request req tx.2 tx.1 with
    | error failure => simp [txFault?, hrequest] at hnone
    | ok q =>
      obtain ⟨isNew, db, hinsert⟩ := t.store.insertRequest_of_open hs (.ofFinalized req res) q
      refine ⟨⟨db, st.closed⟩, ?_, hs⟩
      rw [t.insertTx_of_ok req res hrequest, Action.map, hinsert]
      rfl
  failed tx st failure hs hfault := by
    cases hrequest : t.request req tx.2 tx.1 with
    | error failure' =>
      obtain rfl : failure' = failure := by simpa [txFault?, hrequest] using hfault
      rw [t.insertTx_of_error req res hrequest]
    | ok q => simp [txFault?, hrequest] at hfault

/-- What a transaction is recorded as does not depend on how many others the block has. -/
theorem insertTx_take (k : Nat) :
    t.insertTx { req with txs := req.txs.take k } res = t.insertTx req res := rfl

theorem insert_take (k : Nat) : t.insert { req with txs := req.txs.take k } res =
    Action.each (t.insertTx req res) (req.txs.zipIdx.take k) := by
  rw [insert, insertTx_take, zipIdx_take]

theorem insertTx_of_failed {t : TxIndexer} {req : FinalizeRequest} {res : FinalizeResponse}
    {tx : List UInt8 × Nat} {st : Storage} {failure : Failure}
    (h : (t.insertTx req res tx st).1 = .error failure) : (t.insertTx req res tx st).2 = st := by
  cases hrequest : t.request req tx.2 tx.1 with
  | error failure => rw [t.insertTx_of_error req res hrequest]
  | ok q =>
    rw [t.insertTx_of_ok req res hrequest] at h ⊢
    simp only [Action.map] at h ⊢
    cases hinsert : (t.store.insertRequest (.ofFinalized req res) q st).1 with
    | ok isNew => simp [hinsert, Except.map] at h
    | error failure' => exact t.store.transact_of_failed hinsert

/-- The raw bytes of a transaction cannot be read. -/
def Misreads (raw : List UInt8) : Prop := ¬ ∃ tx, t.encoding.decodeTx raw = .ok tx

variable {t req res} {st : Storage} {k : Nat} {raw : List UInt8}

theorem Misreads.exists_error (h : t.Misreads raw) :
    ∃ reason, t.encoding.decodeTx raw = .error (.decode "tx" reason) := by
  cases hread : t.encoding.decodeTx raw with
  | ok tx => exact absurd ⟨tx, hread⟩ h
  | error failure =>
    obtain ⟨reason, rfl⟩ := Encoding.decodeTx_eq_error hread
    exact ⟨reason, rfl⟩

/-- Transactions stop at the first that cannot be read. -/
theorem insert_of_isFirst (hs : t.store.id ∉ st.closed) (hfirst : IsFirst t.Misreads req.txs k raw)
    (hle : k ≤ UInt32.size) : ∃ reason, t.encoding.decodeTx raw = .error (.decode "tx" reason) ∧
      t.insert req res st = (.error (.decode "tx" reason),
        (t.insert { req with txs := req.txs.take k } res st).2) ∧
      (t.insert { req with txs := req.txs.take k } res st).1 = .ok () := by
  obtain ⟨hk, hraw, hbefore⟩ := hfirst
  obtain ⟨reason, hread⟩ := hraw.exists_error
  have hpair : req.txs.zipIdx[k]? = some (raw, k) := by
    rw [List.getElem?_zipIdx, hk, Option.map_some, Nat.zero_add]
  have hnone : ∀ tx ∈ req.txs.zipIdx.take k, t.txFault? req tx = none := by
    rintro ⟨raw', i⟩ htx
    rw [← zipIdx_take] at htx
    have hi : i < (req.txs.take k).length := List.snd_lt_of_mem_zipIdx htx
    have hlength : (req.txs.take k).length ≤ k := List.length_take_le k req.txs
    have hread' := Classical.not_not.1 (hbefore raw' (List.fst_mem_of_mem_zipIdx htx))
    exact (t.txFault?_eq_none req).2 ⟨hread', by omega⟩
  refine ⟨reason, hread, ?_⟩
  rw [t.insert_take]
  exact (t.insertTx_decided req res).each_eq hs hpair ((t.txFault?_eq_decode req).2 hread) hnone

/-- If transactions fail to be read, it is at the first that cannot be read. -/
theorem exists_isFirst_of_decode (hs : t.store.id ∉ st.closed) {subject reason : String}
    (herror : (t.insert req res st).1 = .error (.decode subject reason)) :
    ∃ k raw, IsFirst t.Misreads req.txs k raw ∧ k ≤ UInt32.size ∧
      t.encoding.decodeTx raw = .error (.decode subject reason) := by
  obtain ⟨k, ⟨raw, i⟩, hpair, hfault, hbefore⟩ :=
    (t.insertTx_decided req res).exists_of_each_error hs herror
  obtain ⟨hk, rfl⟩ : req.txs[k]? = some raw ∧ i = k := by
    rw [List.getElem?_zipIdx, Nat.zero_add, Option.map_eq_some_iff] at hpair
    obtain ⟨raw', hk, hpair⟩ := hpair
    obtain ⟨rfl, rfl⟩ := Prod.mk.inj hpair
    exact ⟨hk, rfl⟩
  -- All in front of it were recorded, so they can be read and stand within bounds.
  have hread : ∀ j raw', (req.txs.take i)[j]? = some raw' →
      (∃ tx, t.encoding.decodeTx raw' = .ok tx) ∧ j < UInt32.size := by
    intro j raw' hraw'
    have hpair : (raw', j) ∈ req.txs.zipIdx.take i := by
      rw [← zipIdx_take, List.mk_mem_zipIdx_iff_getElem?, hraw']
    exact (t.txFault?_eq_none req).1 (hbefore _ hpair)
  have hraw := (t.txFault?_eq_decode req).1 hfault
  have hmisread : t.Misreads raw := fun ⟨tx, hok⟩ => nomatch hraw.symm.trans hok
  have hfirst : ∀ raw' ∈ req.txs.take i, ¬ t.Misreads raw' := by
    intro raw' hraw' hmisread'
    obtain ⟨j, hj⟩ := List.mem_iff_getElem?.1 hraw'
    exact hmisread' (hread j raw' hj).1
  have hle : i ≤ UInt32.size := by
    obtain ⟨hlength, -⟩ := List.getElem?_eq_some_iff.1 hk
    cases i with
    | zero => exact Nat.zero_le _
    | succ j =>
      obtain ⟨raw', hj⟩ : ∃ raw', (req.txs.take (j + 1))[j]? = some raw' := by
        rw [List.getElem?_take_of_lt (Nat.lt_succ_self j)]
        exact ⟨_, List.getElem?_eq_getElem (Nat.lt_of_succ_lt hlength)⟩
      exact (hread j raw' hj).2
  exact ⟨i, raw, ⟨hk, hmisread, hfirst⟩, hle, hraw⟩

/-- If the first of all transactions cannot be read, nothing is recorded. -/
theorem insert_of_head {failure : Failure} (hraw : req.txs.head? = some raw)
    (hread : t.encoding.decodeTx raw = .error failure) :
    t.insert req res st = (.error failure, st) := by
  obtain ⟨rest, htxs⟩ := List.head?_eq_some_iff.1 hraw
  have hrequest : t.request req (raw, 0).2 (raw, 0).1 = .error failure := by
    rw [request, hread]
    rfl
  have hfail : t.insertTx req res (raw, 0) st = (.error failure, st) := by
    rw [t.insertTx_of_error req res hrequest]
  rw [insert, htxs, List.zipIdx_cons, Action.each_cons_error _ hfail]

end TxIndexer

/-! ## Calls -/

/-- What the failed calls of a store leave. -/
structure Store.LeavesPrefix (s : Store) (st : Storage) : Prop where
  /-- Results stop at the first whose block is missing, if all up to it can be written. Those in
  front of it are recorded as they would have been without it. -/
  missingBlock : s.isOpen st = true → ∀ rs k r,
    IsFirst (fun r => st.database.LacksBlock s.chainId r.height) rs k r →
    (∀ r' ∈ rs.take (k + 1), r'.IsWritable) →
    s.indexTxs rs st = (.error (.blockNotFound r.height s.chainId), (s.indexTxs (rs.take k) st).2) ∧
      (s.indexTxs (rs.take k) st).1 = .ok ()
  /-- For no other reason do they fail for a missing block. -/
  onlyMissingBlock : s.isOpen st = true → ∀ rs height chainId,
    (s.indexTxs rs st).1 = .error (.blockNotFound height chainId) →
    ∃ k r, IsFirst (fun r => st.database.LacksBlock s.chainId r.height) rs k r ∧
      (∀ r' ∈ rs.take (k + 1), r'.IsWritable) ∧ height = r.height ∧ chainId = s.chainId
  /-- The transactions of a block stop at the first that cannot be read, if none stands further back
  than positions go. Those in front of it are recorded as they would have been without it. -/
  unreadable : s.isOpen st = true → ∀ t : TxIndexer, t.store = s → ∀ req res k raw,
    IsFirst t.Misreads req.txs k raw → k ≤ UInt32.size →
    ∃ reason, t.encoding.decodeTx raw = .error (.decode "tx" reason) ∧
      t.insert req res st = (.error (.decode "tx" reason),
        (t.insert { req with txs := req.txs.take k } res st).2) ∧
      (t.insert { req with txs := req.txs.take k } res st).1 = .ok ()
  /-- For no other reason do they fail to be read. -/
  onlyUnreadable : s.isOpen st = true → ∀ t : TxIndexer, t.store = s → ∀ req res subject reason,
    (t.insert req res st).1 = .error (.decode subject reason) →
    ∃ k raw, IsFirst t.Misreads req.txs k raw ∧ k ≤ UInt32.size ∧
      t.encoding.decodeTx raw = .error (.decode subject reason)
  /-- If the first of all cannot be read, nothing is recorded, not even the block. -/
  firstUnreadable : ∀ t : TxIndexer, t.store = s → ∀ req res raw failure,
    req.txs.head? = some raw → t.encoding.decodeTx raw = .error failure →
    t.insert req res st = (.error failure, st)
  /-- Requests do not fail. -/
  requests : s.isOpen st = true → ∀ b q, ∃ isNew, (s.insertRequest b q st).1 = .ok isNew
  /-- A unit that fails leaves everything as it was. -/
  units : (∀ b failure, (s.indexBlock b st).1 = .error failure → (s.indexBlock b st).2 = st) ∧
    (∀ r failure, (s.indexTx r st).1 = .error failure → (s.indexTx r st).2 = st) ∧
    (∀ b q failure, (s.insertRequest b q st).1 = .error failure →
      (s.insertRequest b q st).2 = st) ∧
    ∀ t : TxIndexer, t.store = s → ∀ req res tx failure,
      (t.insertTx req res tx st).1 = .error failure → (t.insertTx req res tx st).2 = st
  /-- Once the store is stopped, blocks and requests fail, and so do results that can be written. -/
  stopped : s.isOpen st = false →
    (∀ b, (s.indexBlock b st).1 = .error (.storage "begin" closedReason)) ∧
      (∀ b q, (s.insertRequest b q st).1 = .error (.storage "begin" closedReason)) ∧
      ∀ r rs, r.IsWritable → (s.indexTxs (r :: rs) st).1 = .error (.storage "begin" closedReason)
  /-- Whatever is called then, everything is left as it was. -/
  stoppedLeaves : s.isOpen st = false → (∀ call : Call s, (call.act st).2 = st) ∧
    ∀ t : TxIndexer, t.store = s → ∀ req res, (t.insert req res st).2 = st

namespace Store

variable (s : Store) (st : Storage)

theorem mem_closed_of_stopped (h : s.isOpen st = false) : s.id ∈ st.closed := by
  by_contra hs
  exact nomatch h.symm.trans (s.isOpen_iff.2 hs)

/-- **Failed calls leave what was done before they failed.** Whatever the tables hold, results and
transactions are recorded up to the first that fails. It can be told beforehand which one that is,
and what is left is what the call would have left without it and all behind it. -/
theorem leavesPrefix : s.LeavesPrefix st where
  missingBlock hopen _ _ _ hfirst hwritable :=
    s.indexTxs_of_isFirst (s.isOpen_iff.1 hopen) hfirst hwritable
  onlyMissingBlock hopen _ _ _ herror :=
    s.exists_isFirst_of_blockNotFound (s.isOpen_iff.1 hopen) herror
  unreadable hopen t ht _ _ _ _ hfirst hle := by
    subst ht
    exact t.insert_of_isFirst (t.store.isOpen_iff.1 hopen) hfirst hle
  onlyUnreadable hopen t ht _ _ _ _ herror := by
    subst ht
    exact t.exists_isFirst_of_decode (t.store.isOpen_iff.1 hopen) herror
  firstUnreadable _ _ _ _ _ _ hraw hread := TxIndexer.insert_of_head hraw hread
  requests hopen b q := by
    obtain ⟨isNew, db, hinsert⟩ := s.insertRequest_of_open (s.isOpen_iff.1 hopen) b q
    exact ⟨isNew, congrArg Prod.fst hinsert⟩
  units := ⟨fun _ _ h => s.transact_of_failed h, fun _ _ h => s.indexTx_of_failed h,
    fun _ _ _ h => s.transact_of_failed h, fun _ _ _ _ _ _ h => TxIndexer.insertTx_of_failed h⟩
  stopped hstopped := by
    have hs := s.mem_closed_of_stopped st hstopped
    refine ⟨fun b => ?_, fun b q => ?_, fun r rs hwritable => ?_⟩
    · rw [indexBlock, s.transact_of_stopped _ st hs]
    · rw [insertRequest, s.transact_of_stopped _ st hs]
    · obtain ⟨blob, hblob⟩ := TxResult.exists_encodeResult_eq_ok.2 hwritable
      have hfail : s.indexTx r st = (.error (.storage "begin" closedReason), st) := by
        simp only [indexTx, hblob, s.transact_of_stopped _ st hs]
      rw [indexTxs, Action.each_cons_error _ hfail]
  stoppedLeaves hstopped := by
    have hs := s.mem_closed_of_stopped st hstopped
    refine ⟨fun call => call.act_through.stopped _ _ hs, fun t ht req res => ?_⟩
    subst ht
    exact (Action.through_each fun tx _ => t.insertTx_through req res tx).stopped _ _ hs

/-- A result without events. -/
def plainResult (height : Int64) : TxResult := ⟨height, 0, [], ⟨0, [], "", "", 0, 0, [], ""⟩⟩

/-- A block of one transaction that can be read and one that cannot. -/
def halfReadable : FinalizeRequest :=
  ⟨3, [Wire.tx.encode ⟨⟨[], "memo"⟩, ⟨⟨[], 0, "", ""⟩⟩, []⟩, [255]], ⟨0, 0⟩⟩

/-- The general statement after one block: of two results the second has no block, and of two
transactions the second cannot be read. -/
theorem leavesPrefix_oneBlock :
    let s : Store := ⟨0, "testing"⟩
    let t : TxIndexer := .ofStore s .standard
    let st := (s.indexBlock ⟨1, ⟨0, 0⟩, [], 1⟩ .empty).2
    s.isOpen st = true ∧
      s.indexTxs [plainResult 1, plainResult 2] st =
        (.error (.blockNotFound 2 "testing"), (s.indexTxs [plainResult 1] st).2) ∧
      (s.indexTxs [plainResult 1] st).2.database.results.size = 1 ∧
      (∃ reason, t.insert halfReadable ⟨[], []⟩ st = (.error (.decode "tx" reason),
        (t.insert { halfReadable with txs := halfReadable.txs.take 1 } ⟨[], []⟩ st).2)) ∧
      (t.insert halfReadable ⟨[], []⟩ st).2.database.requests.size = 1 := by
  intro s t st
  have hopen : s.isOpen st = true := by decide +kernel
  have hleaves := leavesPrefix s st
  have hfirst : IsFirst (fun r => st.database.LacksBlock s.chainId r.height)
      [plainResult 1, plainResult 2] 1 (plainResult 2) := by
    refine ⟨rfl, Database.blockId?_eq_none_iff.1 (by decide +kernel), fun r hr hlacks => ?_⟩
    obtain rfl := List.mem_singleton.1 hr
    have hsome : st.database.blockId? 1 s.chainId = some 1 := by decide +kernel
    exact nomatch hsome.symm.trans (Database.blockId?_eq_none_iff.2 hlacks)
  have hwritable : ∀ r ∈ [plainResult 1, plainResult 2], r.IsWritable := by
    unfold TxResult.IsWritable
    decide +kernel
  have hmisread : IsFirst t.Misreads halfReadable.txs 1 [255] := by
    refine ⟨rfl, fun ⟨tx, hread⟩ => ?_, fun raw hraw hmisread => hmisread ?_⟩
    · have herror : (t.encoding.decodeTx [255]).toOption = none := by decide +kernel
      rw [hread] at herror
      cases herror
    · obtain rfl := List.mem_singleton.1 hraw
      exact ⟨⟨⟨[], "memo"⟩, ⟨⟨[], 0, "", ""⟩⟩, []⟩, by decide +kernel⟩
  obtain ⟨reason, -, hinsert, -⟩ := hleaves.unreadable hopen t rfl halfReadable ⟨[], []⟩ 1 [255]
    hmisread (by decide)
  exact ⟨hopen, (hleaves.missingBlock hopen _ 1 _ hfirst hwritable).1, by decide +kernel,
    ⟨reason, hinsert⟩, by decide +kernel⟩

end Store
end TxIndex
