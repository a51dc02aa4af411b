import TxIndex.Proofs.Json.RoundTrip
import TxIndex.Proofs.Run.Basic
import TxIndex.Proofs.Run.Schedule

/-! # What is indexed is found

Runs that index finalized blocks of one chain, a block always with the same contents, record only
entries of these blocks, each at its own place (`Journal.Written.result_getElem?`,
`Journal.Written.request_getElem?`). A search then reads every row back, and each hit is the
transaction at one place of a block, with its outcome (`Operation.search_round_trip`).

Three things meet here. What was recorded is an entry of one of the blocks, by an induction over the
calls (`Operation.record_written`); what was stored is read back, as the codecs and the form of fees
are faithful (`TxIndexer.hit_stored`); and no two ranked rows share a place, so the hits belong to
different ones. -/
namespace TxIndex

/-! ## Calls with finalized blocks -/

theorem TxIndexer.request_congr {t t' : TxIndexer} (h : t.encoding = t'.encoding) :
    t.request = t'.request := by
  funext req i raw
  rw [request, request, h]

theorem Journal.insertTxs_congr {t t' : TxIndexer} (hc : t.store.chainId = t'.store.chainId)
    (h : t.encoding = t'.encoding) : Journal.insertTxs t = Journal.insertTxs t' := by
  funext req res
  unfold Journal.insertTxs Journal.insertTx
  rw [hc, TxIndexer.request_congr h]

/-- A transaction module in the registry has the given encoding. -/
def Sink.Reads {s : Store} (encoding : Encoding) : Sink s → Prop
  | .transactions _ t _ => t.encoding = encoding
  | .silent _ _ _ => True

/-- The call indexes one of the blocks: the block itself, its results, or its transactions. -/
def Call.Feeds {s : Store} (encoding : Encoding) (blocks : List Finalized) : Call s → Prop
  | .indexBlock e => ∃ b ∈ blocks, e = b.events
  | .indexTxs rs => ∃ b ∈ blocks, rs = b.results
  | .insertRequest _ _ => False
  | .dispatch _ sinks _ req res =>
    (∃ b ∈ blocks, b.req = req ∧ b.res = res) ∧ ∀ sink ∈ sinks, sink.Reads encoding

variable {t : TxIndexer} {blocks : List Finalized} {j : Journal} {b : Finalized}

/-- Results without their block are not recorded. -/
theorem Journal.indexTxs_of_not_holds {c : String} (h : ¬ j.Holds (.block c b.height)) :
    (Journal.indexTxs c b.results j).2 = j := by
  cases hrs : b.results with
  | nil => rfl
  | cons r rs =>
    have hheight : r.height = b.height := Finalized.height_of_mem_results (hrs ▸ List.mem_cons_self)
    have hfail : ∃ failure, Journal.indexTx c r j = (.error failure, j) := by
      unfold Journal.indexTx
      cases Encoding.encodeResult r with
      | error failure => exact ⟨failure, rfl⟩
      | ok blob => exact ⟨_, if_neg (hheight ▸ h)⟩
    obtain ⟨failure, hfail⟩ := hfail
    rw [Journal.indexTxs, Action.each_cons_error _ hfail]

/-- The results of a block are recorded as a primary run would go on. -/
theorem Journal.Written.indexTxs (hblocks : Finalized.Consistent blocks) (hb : b ∈ blocks)
    (hw : j.Written (Job.Scripts t blocks)) :
    (Journal.indexTxs t.store.chainId b.results j).2.Written (Job.Scripts t blocks) := by
  by_cases hblock : j.Holds (.block t.store.chainId b.height)
  · have hsplit : Job.script t ⟨.primary, b⟩ =
        [.block t.store.chainId b.events] ++ Task.script t (b.results.map .result) := rfl
    have hdone : ∀ e ∈ [Entry.block t.store.chainId b.events], j.Holds e.place := by
      intro e he
      obtain rfl := List.mem_singleton.1 he
      exact hblock
    have hscript : Job.Scripts t blocks (Job.script t ⟨.primary, b⟩) := ⟨⟨.primary, b⟩, hb, rfl⟩
    have heach := (Task.record_each (Job.orderly t hblocks) hscript hw hsplit hdone).1
    rw [Action.each_map] at heach
    exact heach
  · rwa [Journal.indexTxs_of_not_holds hblock]

/-- The requests for a block are recorded as by a dispatch run. -/
theorem Journal.Written.insertTxs (hblocks : Finalized.Consistent blocks) (hb : b ∈ blocks)
    (hw : j.Written (Job.Scripts t blocks)) :
    (Journal.insertTxs t b.req b.res j).2.Written (Job.Scripts t blocks) := by
  have heach := (Task.record_each (Job.orderly t hblocks) ⟨⟨.dispatch, b⟩, hb, rfl⟩ hw
    (List.nil_append _).symm fun e he => absurd he List.not_mem_nil).1
  rw [Job.tasks, Action.each_map] at heach
  exact heach

/-- **Calls that index finalized blocks** keep the journal as the scripts of the blocks write it. -/
theorem Call.record_written (hblocks : Finalized.Consistent blocks)
    (hw : j.Written (Job.Scripts t blocks)) {s : Store} (hs : s.chainId = t.store.chainId)
    {call : Call s} (hcall : call.Feeds t.encoding blocks) :
    (call.record j).Written (Job.Scripts t blocks) := by
  cases call with
  | indexBlock e =>
    obtain ⟨b, hb, rfl⟩ := hcall
    have hscript : Job.Scripts t blocks (Job.script t ⟨.primary, b⟩) := ⟨⟨.primary, b⟩, hb, rfl⟩
    show (j.record (.block s.chainId b.events)).Written _
    rw [hs]
    exact hw.record hscript (List.nil_append _).symm fun e he => absurd he List.not_mem_nil
  | indexTxs rs =>
    obtain ⟨b, hb, rfl⟩ := hcall
    show (Journal.indexTxs s.chainId b.results j).2.Written _
    rw [hs]
    exact hw.indexTxs hblocks hb
  | insertRequest e q => exact hcall.elim
  | dispatch registry sinks hm req res =>
    obtain ⟨⟨b, hb, rfl, rfl⟩, hsinks⟩ := hcall
    -- Each module of the registry leaves the journal as the scripts write it.
    refine Action.keeps_each (P := fun j => j.Written (Job.Scripts t blocks)) ?_ j hw
    intro sink hsink j hw
    cases sink with
    | transactions name t' ht =>
      have hc : t'.store.chainId = t.store.chainId := (congrArg Store.chainId ht).trans hs
      show (Journal.insertTxs t' b.req b.res j).2.Written _
      rw [Journal.insertTxs_congr hc (hsinks _ hsink)]
      exact hw.insertTxs hblocks hb
    | silent m answer hinsert => exact hw

/-- Runs that index finalized blocks. -/
theorem Operation.record_written (hblocks : Finalized.Consistent blocks) {ops : List Operation}
    (hops : ∀ op ∈ ops, op.store.chainId = t.store.chainId ∧ op.call.Feeds t.encoding blocks)
    (hw : j.Written (Job.Scripts t blocks)) :
    (Operation.record ops j).Written (Job.Scripts t blocks) := by
  induction ops generalizing j with
  | nil => exact hw
  | cons op ops ih =>
    obtain ⟨hs, hcall⟩ := hops op List.mem_cons_self
    exact ih (fun op' hop' => hops op' (List.mem_cons_of_mem _ hop'))
      (Call.record_written hblocks hw hs hcall)

/-! ## What is recorded -/

namespace Journal

/-- A recorded result is the one that its block has at its position. -/
theorem Written.result_getElem? (hw : j.Written (Job.Scripts t blocks)) {c : String} {r : TxResult}
    (hr : .result c r ∈ j) : c = t.store.chainId ∧ Wire.txResult.fits r = true ∧
      ∃ b ∈ blocks, b.results[r.index.toNat]? = some r := by
  obtain ⟨l, ⟨⟨kind, b⟩, hb, rfl⟩, hfirst⟩ := hw.exists_first hr
  obtain ⟨-, done, rest, hsplit, hnew⟩ := List.find?_eq_some_iff_append.1 hfirst
  cases kind with
  | dispatch => rcases Job.dispatch_split hsplit with he | ⟨-, tx, -, q, -, he⟩ <;> cases he
  | primary =>
    rcases Job.primary_split hsplit with ⟨-, he⟩ | ⟨before, r', after, hresults, hfits, rfl, he⟩
    · cases he
    · cases he
      refine ⟨rfl, hfits, b, hb, ?_⟩
      rcases Nat.lt_or_eq_of_le (Finalized.index_le_length hresults) with hlt | heq
      · -- A result further in front would have the place already.
        obtain ⟨r', hr', hheight, hindex⟩ := Finalized.exists_earlier hresults hlt
        have hplace : (Entry.result t.store.chainId r').place =
            (Entry.result t.store.chainId r).place := by
          rw [Entry.place, Entry.place, hheight, hindex]
        have hne := hnew _ (List.mem_cons_of_mem _ (List.mem_map_of_mem hr'))
        simp [hplace] at hne
      · rw [heq]
        exact Finalized.results_middle hresults

/-- A recorded request is that for the transaction that its block has at its position. -/
theorem Written.request_getElem? (hw : j.Written (Job.Scripts t blocks)) {c : String} {h : Int64}
    {q : TxRequest} (hq : .request c h q ∈ j) : ∃ b ∈ blocks, h = b.height ∧
      ∃ raw, b.req.txs[q.index.toNat]? = some raw ∧ t.request b.req q.index.toNat raw = .ok q := by
  obtain ⟨l, ⟨job, hb, rfl⟩, hfirst⟩ := hw.exists_first hq
  rcases Job.mem_script hfirst.mem with he | ⟨-, r, -, -, he⟩ | ⟨-, ⟨raw, i⟩, htx, q', hok, he⟩
  · cases he
  · cases he
  · cases he
    refine ⟨job.block, hb, rfl, raw, ?_⟩
    have hraw : job.block.req.txs[i]? = some raw := List.mem_zipIdx_iff_getElem?.1 htx
    have hi : q.index.toNat = i := by
      rcases t.request_cases job.block.req i raw with
        ⟨tx, messages, -, hlt, -, hcase⟩ | ⟨failure, -, hcase⟩
      · obtain rfl := Except.ok.inj (hcase.symm.trans hok)
        exact UInt32.toNat_ofNat_of_lt' hlt
      · cases hcase.symm.trans hok
    rw [hi]
    exact ⟨hraw, hok⟩

end Journal

/-! ## What is found -/

namespace Finalized

/-- The hit that shows a transaction of a block with its outcome. -/
def hit (b : Finalized) (raw : List UInt8) (tx : Tx) (result : ExecResult) : TxHit where
  tx := ⟨tx.body, tx.authInfo, []⟩
  response := {
    height := b.height
    txHash := txHash raw
    codespace := result.codespace
    code := result.code
    info := result.info
    rawLog := result.log
    gasWanted := result.gasWanted
    gasUsed := result.gasUsed
    events := result.events
    timestamp := b.req.time }

/-- At a height and a position there is a transaction with its outcome, and the hit shows it. -/
def Shows (encoding : Encoding) (blocks : List Finalized) (place : Int64 × Nat) (h : TxHit) :
    Prop :=
  ∃ b ∈ blocks, b.height = place.1 ∧ ∃ raw tx result, b.req.txs[place.2]? = some raw ∧
    b.res.txResults[place.2]? = some result ∧ encoding.decodeTx raw = .ok tx ∧
    h = b.hit raw tx result

end Finalized

/-- The row of a posting is read back as the transaction at its place. -/
theorem TxIndexer.hit_stored (hblocks : Finalized.Consistent blocks)
    (hw : j.Written (Job.Scripts t blocks)) {p : Posting} (hp : p ∈ j.postings) :
    ∃ h, t.hit p.stored = .ok h ∧
      Finalized.Shows t.encoding blocks (p.height, p.result.index.toNat) h := by
  obtain ⟨hr, hq, hindex⟩ := Journal.mem_postings.1 hp
  obtain ⟨-, hfits, b, hb, hresult⟩ := hw.result_getElem? hr
  obtain ⟨b', hb', hheight', raw, hraw, hok⟩ := hw.request_getElem? hq
  obtain ⟨hheight, -, htx, hexec⟩ := Finalized.results_getElem? hresult
  -- Both were recorded of one block, and of one transaction in it.
  obtain rfl := hblocks b hb b' hb' (hheight.symm.trans hheight')
  rw [hindex] at hraw hok
  obtain rfl := Option.some.inj (htx.symm.trans hraw)
  rcases t.request_cases b.req p.result.index.toNat p.result.tx with
    ⟨tx, messages, hread, -, hmessages, hrequest⟩ | ⟨failure, -, hrequest⟩
  · have hq : p.request = _ := Except.ok.inj (hok.symm.trans hrequest)
    have hencode : Encoding.encodeResult p.result = .ok (Wire.txResult.encode p.result) :=
      if_pos hfits
    refine ⟨b.hit p.result.tx tx p.result.result, ?_,
      b, hb, hheight.symm, _, tx, _, hraw, hexec, hread, rfl⟩
    have hmessages' : t.encoding.decodeMessages p.request.messages = .ok tx.body.messages :=
      hq ▸ Encoding.decodeMessages_of_encode hmessages
    have hfee : Encoding.decodeFee p.request.fee t.feeComplaint = .ok tx.authInfo.fee :=
      hq ▸ Encoding.decodeFee_encodeFee _ _
    have hresult' := Encoding.decodeResult_of_encode hencode
    simp only [TxIndexer.hit, Posting.stored, hmessages', hfee, hresult', bind, Except.bind]
    rw [hheight, hq]
    rfl
  · cases hok.symm.trans hrequest

/-- If an action on the items of a list succeeds on each, it succeeds on all. -/
theorem exists_mapM_eq_ok {α β : Type} {f : α → Except Failure β} {R : α → β → Prop} {as : List α}
    (h : ∀ a ∈ as, ∃ b, f a = .ok b ∧ R a b) :
    ∃ bs, as.mapM f = .ok bs ∧ List.Forall₂ R as bs := by
  induction as with
  | nil => exact ⟨[], rfl, .nil⟩
  | cons a as ih =>
    obtain ⟨b, hb, hab⟩ := h a List.mem_cons_self
    obtain ⟨bs, hbs, hforall⟩ := ih fun a' ha' => h a' (List.mem_cons_of_mem _ ha')
    refine ⟨b :: bs, ?_, .cons hab hforall⟩
    rw [List.mapM_cons, hb, hbs]
    rfl

namespace Operation

/-- **What is indexed is found.** After any calls that index finalized blocks of one chain, a block
always with the same contents, a search through a transaction module of the chain with the same
encoding succeeds if its query compiles. Its hits belong to different places, and each shows the
transaction at its place as the encoding reads it, with the outcome of that transaction and the time
of the block, without signatures. -/
theorem search_round_trip {ops : List Operation} (hblocks : Finalized.Consistent blocks)
    (hops : ∀ op ∈ ops, op.store.chainId = t.store.chainId ∧ op.call.Feeds t.encoding blocks)
    {q : Query} {limit : UInt16} {plan : Plan}
    (hplan : Plan.compileWithin q limit t.searchLimit = .ok plan) :
    ∃ result, t.search q limit (run ops .empty) = .ok result ∧
      ∃ places : List (Int64 × Nat), places.Nodup ∧
        List.Forall₂ (Finalized.Shows t.encoding blocks) places result.txs := by
  obtain ⟨hrun, hv⟩ := run_empty ops
  have hw : (record ops []).Written (Job.Scripts t blocks) := record_written hblocks hops .nil
  obtain ⟨found, hfound, hmem, hnodup⟩ := hv.exists_postings t.store.chainId plan
  have hrows : t.store.search plan (record ops []).storage = .ok (found.map Posting.stored) := by
    rw [← hfound, ← hv.search_database]
    rfl
  obtain ⟨hits, hhits, hshows⟩ := exists_mapM_eq_ok fun p hp =>
    TxIndexer.hit_stored hblocks hw (hmem p hp)
  refine ⟨⟨hits, UInt64.ofNat (found.map Posting.stored).length⟩, ?_,
    found.map fun p => (p.height, p.result.index.toNat), ?_, ?_⟩
  · have hmap : (found.map Posting.stored).mapM t.hit = .ok hits := by
      rw [List.mapM_map]
      exact hhits
    rw [hrun]
    unfold TxIndexer.search
    simp only [hplan, hrows, hmap, bind, Except.bind]
    rfl
  · -- On one chain the height and the position make up the place.
    refine List.pairwise_map.2 ((List.pairwise_map.1 hnodup).imp_of_mem ?_)
    intro p p' hp hp' hne heq
    obtain ⟨hheight, hindex⟩ := Prod.mk.inj heq
    have hchain : ∀ p ∈ found, p.chainId = t.store.chainId := fun p hp =>
      (hw.result_getElem? (Journal.mem_postings.1 (hmem p hp)).1).1
    rw [hchain p hp, hchain p' hp', hheight, UInt32.toNat_inj.1 hindex] at hne
    exact hne rfl
  · exact List.forall₂_map_left_iff.2 hshows

/-- Calls that index a block, its results at first in vain. -/
def indexOne (t : TxIndexer) (b : Finalized) : List Operation :=
  [⟨t.store, .indexTxs b.results⟩,
    ⟨t.store, .dispatch ⟨[t.toModule], List.nodup_singleton _⟩ [.transactions TxIndexer.name t rfl]
      rfl b.req b.res⟩,
    ⟨t.store, .indexTxs b.results⟩, ⟨t.store, .indexBlock b.events⟩]

/-- The general statement at a block of one transaction, which a query without conditions finds. -/
theorem search_round_trip_one_tx :
    let t : TxIndexer := ⟨⟨0, "testing"⟩, .standard, 100, id⟩
    let b := Finalized.withOneTx 1
    (t.search ⟨[]⟩ 10 (run (indexOne t b) .empty)).map (fun result => result.txs.length) = .ok 1 ∧
      ∃ result, t.search ⟨[]⟩ 10 (run (indexOne t b) .empty) = .ok result ∧
        ∃ places : List (Int64 × Nat), places.Nodup ∧
          List.Forall₂ (Finalized.Shows t.encoding [b]) places result.txs := by
  refine ⟨by decide +kernel, ?_⟩
  have hblocks : Finalized.Consistent [.withOneTx 1] := by simp [Finalized.Consistent]
  have hplan : Plan.compileWithin ⟨[]⟩ 10 100 = .ok ⟨.belowTip, [], 10⟩ := rfl
  exact search_round_trip (t := ⟨⟨0, "testing"⟩, .standard, 100, id⟩) hblocks
    (by simp [indexOne, Call.Feeds, Sink.Reads]) hplan

end Operation
end TxIndex
