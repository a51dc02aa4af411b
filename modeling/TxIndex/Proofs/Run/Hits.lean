import TxIndex.Proofs.Run.History
import TxIndex.Proofs.Run.Retrieval
import TxIndex.Proofs.Run.Search
import TxIndex.Proofs.Search.Compilation
import TxIndex.Proofs.Wire.Failures

/-! # Rows and hits

A transaction module answers a search with the rows that its store finds, each read as a hit. The
rows are the head of one list, cut off by the least of three limits: that of the call, that of the
module, and the general one. They are read in order, and either all are hits or the first row that
cannot be read fails the search (`TxIndexer.ReadsAll`). So a greater limit gives more hits or a
failure, but never other hits (`History.search_hits`). -/
namespace TxIndex

/-- An action on the items of a list succeeds on all of them, or fails as it does on the first on
which it fails. -/
theorem mapM_cases {α β : Type} (f : α → Except Failure β) (as : List α) :
    (∃ bs, as.mapM f = .ok bs ∧ List.Forall₂ (fun a b => f a = .ok b) as bs) ∨
      ∃ before a after failure, as = before ++ a :: after ∧ (∀ b ∈ before, ∃ c, f b = .ok c) ∧
        f a = .error failure ∧ as.mapM f = .error failure := by
  induction as with
  | nil => exact .inl ⟨[], rfl, .nil⟩
  | cons a as ih =>
    rw [List.mapM_cons]
    cases ha : f a with
    | error failure =>
      exact .inr ⟨[], a, as, failure, rfl, fun b hb => absurd hb List.not_mem_nil, ha, rfl⟩
    | ok b =>
      rcases ih with ⟨bs, hmap, hall⟩ | ⟨before, a', after, failure, rfl, hbefore, ha', hmap⟩
      · rw [hmap]
        exact .inl ⟨b :: bs, rfl, .cons ha hall⟩
      · rw [hmap]
        exact .inr ⟨a :: before, a', after, failure, rfl,
          List.forall_mem_cons.2 ⟨⟨b, ha⟩, hbefore⟩, ha', rfl⟩

/-- The hit that shows a row, its parts having been read. -/
def StoredTx.hit (row : StoredTx) (messages : List Message) (fee : Fee) (result : ExecResult) :
    TxHit where
  tx := ⟨⟨messages, row.memo⟩, ⟨fee⟩, []⟩
  response := {
    height := row.height
    txHash := row.txHash
    codespace := result.codespace
    code := result.code
    info := result.info
    rawLog := result.log
    gasWanted := result.gasWanted
    gasUsed := result.gasUsed
    events := result.events
    timestamp := row.createdAt }

namespace TxIndexer

/-- The number of hits that the module was last set to allow: the general one to begin with, or that
of the settings, and then any number that is asked for. -/
inductive IsLimitedTo : TxIndexer → UInt16 → Prop where
  | standard (store : Store) (encoding : Encoding) (feeComplaint : String → String) :
    IsLimitedTo (.ofStore store encoding feeComplaint) Plan.ceiling
  | settings (store : Store) (encoding : Encoding) (c : Config)
    (feeComplaint : String → String) :
    IsLimitedTo (.ofConfig store encoding c feeComplaint) c.searchLimit
  | set {t : TxIndexer} {before : UInt16} (h : IsLimitedTo t before) (limit : UInt16) :
    IsLimitedTo (t.withSearchLimit limit) limit

variable {t : TxIndexer} {asked : UInt16}

/-- Whatever the module is set to allow, it keeps within the general limit. -/
theorem IsLimitedTo.searchLimit_eq (h : t.IsLimitedTo asked) :
    t.searchLimit = min asked Plan.ceiling := by
  cases h with
  | standard => rfl
  | settings => rfl
  | set => rfl

variable (t) (row : StoredTx)

/-- The row is read as a hit. -/
def Reads (h : TxHit) : Prop :=
  ∃ messages fee stored, t.encoding.decodeMessages row.messages = .ok messages ∧
    Encoding.decodeFee row.fee t.feeComplaint = .ok fee ∧ Encoding.decodeResult row.result = .ok stored ∧
    h = row.hit messages fee stored.result

/-- The part of the row that cannot be read, and why. The messages come first, then the fee, then
the result. -/
inductive Fault : String → String → Prop where
  | messages {reason : String}
    (hmessages : t.encoding.decodeMessages row.messages = .error (.decode "messages" reason)) :
    Fault "messages" reason
  | fee {reason : String} {messages : List Message}
    (hmessages : t.encoding.decodeMessages row.messages = .ok messages)
    (hfee : Encoding.decodeFee row.fee t.feeComplaint = .error (.decode "fee" reason)) : Fault "fee" reason
  | result {reason : String} {messages : List Message} {fee : Fee}
    (hmessages : t.encoding.decodeMessages row.messages = .ok messages)
    (hfee : Encoding.decodeFee row.fee t.feeComplaint = .ok fee)
    (hresult : Encoding.decodeResult row.result = .error (.decode "tx result" reason)) :
    Fault "tx result" reason

/-- The answer to rows in their order: the hits of all of them with their number, or the failure of
the first that cannot be read. -/
inductive ReadsAll (rows : List StoredTx) : Except Failure SearchResult → Prop where
  | hits {hits : List TxHit} (h : List.Forall₂ t.Reads rows hits) :
    ReadsAll rows (.ok ⟨hits, UInt64.ofNat hits.length⟩)
  | fault {before after : List StoredTx} {row : StoredTx} {subject reason : String}
    (hrows : rows = before ++ row :: after) (hbefore : ∀ row ∈ before, ∃ h, t.Reads row h)
    (hfault : t.Fault row subject reason) : ReadsAll rows (.error (.decode subject reason))

variable {t row}

/-- A row is a hit, or a part of it cannot be read. -/
theorem hit_cases (t : TxIndexer) (row : StoredTx) : (∃ h, t.hit row = .ok h ∧ t.Reads row h) ∨
    ∃ subject reason, t.hit row = .error (.decode subject reason) ∧
      t.Fault row subject reason := by
  unfold hit
  cases hmessages : t.encoding.decodeMessages row.messages with
  | error failure =>
    obtain ⟨reason, rfl⟩ := Encoding.decodeMessages_eq_error hmessages
    exact .inr ⟨_, reason, rfl, .messages hmessages⟩
  | ok messages =>
    cases hfee : Encoding.decodeFee row.fee t.feeComplaint with
    | error failure =>
      obtain ⟨reason, rfl⟩ := Encoding.decodeFee_eq_error hfee
      exact .inr ⟨_, reason, rfl, .fee hmessages hfee⟩
    | ok fee =>
      cases hresult : Encoding.decodeResult row.result with
      | error failure =>
        obtain ⟨reason, rfl⟩ := Encoding.decodeResult_eq_error hresult
        exact .inr ⟨_, reason, rfl, .result hmessages hfee hresult⟩
      | ok stored => exact .inl ⟨_, rfl, messages, fee, stored, hmessages, hfee, hresult, rfl⟩

theorem reads_of_hit {h : TxHit} (hrow : t.hit row = .ok h) : t.Reads row h := by
  rcases t.hit_cases row with ⟨h', hok, hreads⟩ | ⟨subject, reason, herror, -⟩
  · obtain rfl := Except.ok.inj (hrow.symm.trans hok)
    exact hreads
  · cases hrow.symm.trans herror

/-- A row is read as one hit only. -/
theorem reads_unique {h h' : TxHit} (hr : t.Reads row h) (hr' : t.Reads row h') : h = h' := by
  obtain ⟨messages, fee, stored, hmessages, hfee, hstored, rfl⟩ := hr
  obtain ⟨messages', fee', stored', hmessages', hfee', hstored', rfl⟩ := hr'
  obtain rfl := Except.ok.inj (hmessages.symm.trans hmessages')
  obtain rfl := Except.ok.inj (hfee.symm.trans hfee')
  obtain rfl := Except.ok.inj (hstored.symm.trans hstored')
  rfl

/-- A row that is a hit has no part that cannot be read. -/
theorem Fault.not_reads {subject reason : String} (hf : t.Fault row subject reason) {h : TxHit} :
    ¬ t.Reads row h := by
  rintro ⟨messages, fee, stored, hmessages, hfee, hstored, -⟩
  cases hf with
  | messages hf => cases hmessages.symm.trans hf
  | fee _ hf => cases hfee.symm.trans hf
  | result _ _ hf => cases hstored.symm.trans hf

/-- Rows are read in their order, up to the first that cannot be read. -/
theorem readsAll_mapM (t : TxIndexer) (rows : List StoredTx) :
    t.ReadsAll rows ((rows.mapM t.hit).map fun hits => ⟨hits, UInt64.ofNat rows.length⟩) := by
  rcases mapM_cases t.hit rows with
    ⟨hits, hmap, hall⟩ | ⟨before, row, after, failure, hrows, hbefore, hrow, hmap⟩
  · rw [hmap, Except.map, hall.length_eq]
    exact .hits (hall.imp fun row h => reads_of_hit)
  · rcases t.hit_cases row with ⟨h, hok, -⟩ | ⟨subject, reason, herror, hfault⟩
    · cases hrow.symm.trans hok
    · obtain rfl := Except.error.inj (hrow.symm.trans herror)
      rw [hmap]
      refine .fault hrows (fun row hrow => ?_) hfault
      obtain ⟨h, hok⟩ := hbefore row hrow
      exact ⟨h, reads_of_hit hok⟩

theorem ReadsAll.total_eq {rows : List StoredTx} {a : SearchResult} (h : t.ReadsAll rows (.ok a))
    (hlt : rows.length < UInt64.size) :
    a.total.toNat = a.txs.length ∧ a.txs.length = rows.length := by
  cases h with
  | hits hall =>
    rw [hall.length_eq] at hlt ⊢
    exact ⟨UInt64.toNat_ofNat_of_lt hlt, rfl⟩

/-- If all rows can be read, so can the first of them, and they are read as the same hits. -/
theorem ReadsAll.take {rows : List StoredTx} {a : SearchResult} (ha : t.ReadsAll rows (.ok a))
    (k : Nat) {answer : Except Failure SearchResult} (h : t.ReadsAll (rows.take k) answer) :
    ∃ a', answer = .ok a' ∧ a'.txs <+: a.txs := by
  cases ha with
  | @hits all hall =>
    have htake : List.Forall₂ t.Reads (rows.take k) (all.take k) := List.forall₂_take k hall
    cases h with
    | @hits some hsome =>
      have hunique : Relator.RightUnique t.Reads := fun _ _ _ => reads_unique
      obtain rfl : some = all.take k := List.right_unique_forall₂' hunique hsome htake
      exact ⟨_, rfl, List.take_prefix k all⟩
    | @fault before after row subject reason hrows hbefore hfault =>
      have hread : ∀ row ∈ rows.take k, ∃ h, t.Reads row h :=
        ((List.forall₂_and_left _ _).1 (htake.imp fun row h hreads => ⟨⟨h, hreads⟩, hreads⟩)).1
      obtain ⟨h, hreads⟩ := hread row (by simp [hrows])
      exact absurd hreads hfault.not_reads

end TxIndexer

/-- Plans of one query for different limits have nothing different but their limits. -/
theorem Query.IsCompilable.exists_plan {q : Query} (hq : q.IsCompilable) (ceiling : UInt16) :
    ∃ p : Plan, ∀ limit, Plan.compileWithin q limit ceiling =
      .ok { p with limit := min limit ceiling } := by
  refine ⟨⟨Plan.windowOf q.heightRange (Condition.fixed? q.conditions), q.filters, ceiling⟩,
    fun limit => ?_⟩
  exact Plan.compileWithin_eq_ok.2 ⟨hq, rfl⟩

namespace TxIndexer

variable {t : TxIndexer} {asked : UInt16} {q : Query} {st : Storage}

/-- A search reads the rows that its plan finds. -/
theorem search_of_rows {limit : UInt16} {p : Plan} {rows : List StoredTx}
    (hp : Plan.compileWithin q limit t.searchLimit = .ok p)
    (hrows : t.store.search p st = .ok rows) : t.ReadsAll rows (t.search q limit st) := by
  have hsearch : t.search q limit st =
      (rows.mapM t.hit).map fun hits => ⟨hits, UInt64.ofNat rows.length⟩ := by
    unfold search
    simp only [hp, hrows, bind, Except.bind]
    cases rows.mapM t.hit <;> rfl
  rw [hsearch]
  exact t.readsAll_mapM rows

/-- The searches for a query read the heads of one list. -/
theorem search_heads (hopen : t.store.isOpen st = true) (hd : st.database.DistinctRequests)
    (hq : q.IsCompilable) : ∃ (p : Plan) (found : List Match),
      (∀ limit, Plan.compileWithin q limit t.searchLimit =
        .ok { p with limit := min limit t.searchLimit }) ∧
      found.Pairwise Match.Newer ∧
      (∀ m, m ∈ found ↔ st.database.Answers t.store.chainId p Condition.Accepts m) ∧
      ∀ limit, t.ReadsAll ((found.take (min limit t.searchLimit).toNat).map Match.stored)
        (t.search q limit st) := by
  obtain ⟨p, hp⟩ := hq.exists_plan t.searchLimit
  obtain ⟨found, hsorted, htested, hsearch⟩ := hd.search_take t.store.chainId p
  have hread : ∀ c ∈ p.filters, ∀ v, c.test.holds v = true ↔ c.Accepts v := fun c hc v =>
    Condition.holds_test_iff (Plan.lacksArgument_of_compile (hp 0) c hc)
  refine ⟨p, found, hp, hsorted, fun m => ?_, fun limit => ?_⟩
  · rw [htested]
    exact ⟨fun h => h.imp fun c hc v => (hread c hc v).1, fun h => h.imp fun c hc v =>
      (hread c hc v).2⟩
  · apply search_of_rows (hp limit)
    rw [Store.search, if_pos hopen, hsearch]

/-- A stopped store fails every search that compiles. -/
theorem search_of_stopped (hstopped : t.store.isOpen st = false) (hq : q.IsCompilable)
    (limit : UInt16) :
    t.search q limit st = .error (.storage "begin" Store.closedReason) := by
  obtain ⟨p, hp⟩ := hq.exists_plan t.searchLimit
  have hrows : t.store.search { p with limit := min limit t.searchLimit } st =
      .error (.storage "begin" Store.closedReason) := if_neg (by simp [hstopped])
  unfold search
  simp only [hp, hrows, bind, Except.bind]

end TxIndexer

namespace History

variable {t : TxIndexer} {asked : UInt16} {q : Query}

/-- **All hits or none.** For a query that compiles there is one list of matches, the newest first,
from which every search takes the rows at its head, as many as the call, the module and the general
limit allow. The answer is the hits of these rows, or the failure of the first that cannot be read.
A stopped store is not searched. If a search succeeds, so does every search with a smaller limit,
and its hits are the first of the greater one. -/
theorem search_hits (ht : t.IsLimitedTo asked) (hq : q.IsCompilable) (steps : List Step) :
    let st := run steps .empty
    (t.store.isOpen st = true → ∃ (p : Plan) (found : List Match),
      (∀ limit, Plan.compileWithin q limit t.searchLimit =
        .ok { p with limit := min limit t.searchLimit }) ∧
      found.Pairwise Match.Newer ∧
      (∀ m, m ∈ found ↔ st.database.Answers t.store.chainId p Condition.Accepts m) ∧
      ∀ limit, let n := (min limit (min asked Plan.ceiling)).toNat
        t.ReadsAll ((found.take n).map Match.stored) (t.search q limit st) ∧
          ∀ a, t.search q limit st = .ok a →
            a.total.toNat = a.txs.length ∧ a.txs.length ≤ n) ∧
      (t.store.isOpen st = false → ∀ limit,
        t.search q limit st = .error (.storage "begin" Store.closedReason)) ∧
      ∀ limit limit' a, limit' ≤ limit → t.search q limit st = .ok a →
        ∃ a', t.search q limit' st = .ok a' ∧ a'.txs <+: a.txs := by
  intro st
  obtain ⟨j, closed, hrun, hv⟩ := run_empty steps
  have hd : st.database.DistinctRequests := by
    change (run steps .empty).database.DistinctRequests
    rw [hrun]
    exact hv.distinctRequests
  refine ⟨fun hopen => ?_, fun hstopped => t.search_of_stopped hstopped hq, ?_⟩
  · obtain ⟨p, found, hp, hsorted, hfound, hreads⟩ := TxIndexer.search_heads hopen hd hq
    refine ⟨p, found, hp, hsorted, hfound, fun limit => ?_⟩
    intro n
    have hall := hreads limit
    rw [ht.searchLimit_eq] at hall
    refine ⟨hall, fun a ha => ?_⟩
    rw [ha] at hall
    have hlength : ((found.take n).map Match.stored).length ≤ n := by
      rw [List.length_map]
      exact List.length_take_le n found
    have hn : n < UInt64.size := Nat.lt_trans (UInt16.toNat_lt _) (by decide)
    obtain ⟨htotal, htxs⟩ := hall.total_eq (Nat.lt_of_le_of_lt hlength hn)
    exact ⟨htotal, htxs ▸ hlength⟩
  · intro limit limit' a hle ha
    by_cases hopen : t.store.isOpen st = true
    · obtain ⟨p, found, -, -, -, hreads⟩ := TxIndexer.search_heads hopen hd hq
      have hall := hreads limit
      rw [ha] at hall
      have hhead : (found.take (min limit' t.searchLimit).toNat).map Match.stored =
          ((found.take (min limit t.searchLimit).toNat).map Match.stored).take
            (min limit' t.searchLimit).toNat := by
        have hmin : (min limit' t.searchLimit).toNat ≤ (min limit t.searchLimit).toNat := by
          have hnat : limit'.toNat ≤ limit.toNat := UInt16.le_iff_toNat_le.1 hle
          rw [UInt16.toNat_min, UInt16.toNat_min]
          omega
        rw [← List.map_take, List.take_take, Nat.min_eq_left hmin]
      exact hall.take _ (hhead ▸ hreads limit')
    · have herror := t.search_of_stopped (Bool.eq_false_iff.2 hopen) hq limit
      exact nomatch ha.symm.trans herror

/-- Settings that allow more hits than the general limit. -/
def generousSettings : Config := { Config.standard with searchLimit := 60000 }

/-- A history that records one transaction, whose messages cannot be read. -/
def unreadableSteps (s : Store) : List Step :=
  [.operation ⟨s, .insertRequest ⟨1, ⟨0, 0⟩, [], 1⟩ ⟨1, 0, ⟨0, 0⟩, "", [255], "", ""⟩⟩,
    .operation ⟨s, .indexTxs [⟨1, 0, [], ⟨0, [], "", "", 0, 0, [], ""⟩⟩]⟩]

/-- The general statement with these settings, which may be read from JSON, after that history. The
row fails the search unless the limit cuts it off. -/
theorem search_hits_unreadable :
    let t := TxIndexer.ofConfig ⟨0, "testing"⟩ .standard generousSettings
    let st := run (unreadableSteps t.store) .empty
    (Json.read? "\x7b\"search_limit\":60000\x7d").bind Json.as? = some generousSettings ∧
      t.search ⟨[]⟩ 10 st = .error (.decode "messages" "Unexpected length of input") ∧
      t.search ⟨[]⟩ 0 st = .ok ⟨[], 0⟩ ∧
      Query.IsCompilable ⟨[]⟩ ∧ t.store.isOpen st = true ∧
      ∃ found : List Match, found.Pairwise Match.Newer ∧
        ∀ limit, t.ReadsAll
          ((found.take (min limit (min 60000 Plan.ceiling)).toNat).map Match.stored)
          (t.search ⟨[]⟩ limit st) := by
  intro t st
  have hq : Query.IsCompilable ⟨[]⟩ := by simp [Query.IsCompilable]
  have hopen : t.store.isOpen st = true := by decide +kernel
  have ht : t.IsLimitedTo 60000 := .settings ⟨0, "testing"⟩ .standard generousSettings id
  obtain ⟨hheads, -, -⟩ := search_hits ht hq (unreadableSteps t.store)
  obtain ⟨p, found, -, hsorted, -, hreads⟩ := hheads hopen
  exact ⟨by decide +kernel, by decide +kernel, by decide +kernel, hq, hopen,
    found, hsorted, fun limit => (hreads limit).1⟩

end History
end TxIndex
