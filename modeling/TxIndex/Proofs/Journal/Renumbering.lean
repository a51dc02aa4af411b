import Mathlib.Order.Hom.Basic
import TxIndex.Proofs.Journal.Chain
import TxIndex.Proofs.Journal.Events

/-! # The rows of one chain

All chains share the five tables, and the numbers of their rows are drawn from one counter for each
table. The rows of a chain are its blocks and whatever is attached to them (`Database.partOf`). They
are the rows that the chain has in a database of its own, with other numbers: the order of the rows
of each table is the same, and a row refers to the same rows
(`Journal.Valid.partOf_database`).

Which row of a table becomes which is told by marks: of a list with some items marked, the `n`th
marked item stands at a place that depends on the marks alone (`nthMarked`), and places grow with
`n`. That is the strictly monotone numbering of each table. It is then shown table by table, for
blocks first, for results and requests by their blocks, and for events and attributes by the entry
that they came with, that the rows agree. -/
namespace TxIndex

/-! ## Marked items -/

section Marked

/-- The number of the `n`-th marked item, counted from 1, as items are. All items past the end count
as marked. -/
def nthMarked : List Bool → Nat → Nat
  | _, 0 => 0
  | [], n + 1 => n + 1
  | true :: marks, n + 1 => nthMarked marks n + 1
  | false :: marks, n + 1 => nthMarked marks (n + 1) + 1

@[simp] theorem nthMarked_zero (marks : List Bool) : nthMarked marks 0 = 0 := by
  cases marks <;> rfl

theorem nthMarked_nil (n : Nat) : nthMarked [] n = n := by cases n <;> rfl

theorem nthMarked_strictMono (marks : List Bool) : StrictMono (nthMarked marks) := by
  induction marks with
  | nil => exact fun n m h => by rwa [nthMarked_nil, nthMarked_nil]
  | cons mark marks ih =>
    rintro (_ | n) (_ | m) h
    · exact absurd h (Nat.lt_irrefl 0)
    · cases mark <;> exact Nat.succ_pos _
    · exact absurd h (Nat.not_lt_zero _)
    · cases mark
      · exact Nat.succ_lt_succ (ih h)
      · exact Nat.succ_lt_succ (ih (Nat.lt_of_succ_lt_succ h))

example : (List.range 5).map (nthMarked [false, true, false]) = [0, 2, 4, 5, 6] := by decide

variable {α : Type}

theorem zipIdx_cons_one (a : α) (l : List α) :
    (a :: l).zipIdx 1 = (a, 1) :: (l.zipIdx 1).map (Prod.map id (· + 1)) :=
  congrArg ((a, 1) :: ·) List.zipIdx_succ

/-- The items that are kept stand in the list under the numbers of the marked items. -/
theorem filter_zipIdx (own : α → Bool) (l : List α) : (l.zipIdx 1).filter (fun item => own item.1) =
    ((l.filter own).zipIdx 1).map (Prod.map id (nthMarked (l.map own))) := by
  induction l with
  | nil => rfl
  | cons a l ih =>
    have hlater : ((l.zipIdx 1).map (Prod.map id (· + 1))).filter (fun item => own item.1) =
        ((l.filter own).zipIdx 1).map (Prod.map id fun n => nthMarked (l.map own) n + 1) := by
      rw [List.filter_map]
      refine (congrArg _ ih).trans ?_
      rw [List.map_map]
      rfl
    rw [zipIdx_cons_one, List.map_cons, List.filter_cons, List.filter_cons, hlater]
    by_cases ha : own a = true
    · have hfirst : nthMarked (true :: l.map own) 1 = 1 := by simp [nthMarked]
      rw [if_pos ha, if_pos ha, ha, zipIdx_cons_one, List.map_cons, List.map_map, Prod.map, hfirst]
      rfl
    · rw [if_neg ha, if_neg ha, Bool.eq_false_iff.2 ha]
      refine List.map_congr_left fun item hitem => ?_
      obtain ⟨n, hn⟩ := Nat.exists_eq_add_of_le' (List.le_snd_of_mem_zipIdx hitem)
      rw [Prod.map, Prod.map, hn]
      rfl

/-- An item that only kept items can be is found among these. -/
theorem findIdx?_filter {own p : α → Bool} {l : List α} (h : ∀ a ∈ l, p a = true → own a = true) :
    (l.findIdx? p).map (· + 1) =
      (((l.filter own).findIdx? p).map (· + 1)).map (nthMarked (l.map own)) := by
  induction l with
  | nil => rfl
  | cons a l ih =>
    have ih := ih fun b hb => h b (List.mem_cons_of_mem _ hb)
    rw [List.findIdx?_cons, List.map_cons]
    by_cases hp : p a = true
    · have ha := h a List.mem_cons_self hp
      rw [if_pos hp, List.filter_cons_of_pos ha, List.findIdx?_cons, if_pos hp, ha]
      simp [nthMarked]
    · rw [if_neg hp, ih]
      by_cases ha : own a = true
      · rw [List.filter_cons_of_pos ha, List.findIdx?_cons, if_neg hp, ha]
        cases (l.filter own).findIdx? p <;> rfl
      · rw [List.filter_cons_of_neg ha, Bool.eq_false_iff.2 ha]
        cases (l.filter own).findIdx? p <;> rfl

end Marked

/-! ## Renumbering -/

/-- New numbers for the rows of each table. Rows keep their order. -/
structure Renumbering where
  blocks : Nat ↪o Nat
  results : Nat ↪o Nat
  events : Nat ↪o Nat
  attributes : Nat ↪o Nat
  requests : Nat ↪o Nat

section Rows
variable (φ : Renumbering)

/-- The row with the new number of its block. -/
def ResultRow.renumber (row : ResultRow) : ResultRow :=
  { row with blockId := φ.blocks row.blockId }

/-- The row with the new numbers of its block and its transaction. -/
def EventRow.renumber (row : EventRow) : EventRow :=
  { row with blockId := φ.blocks row.blockId, txId := row.txId.map φ.results }

/-- The row with the new number of its event. -/
def AttributeRow.renumber (row : AttributeRow) : AttributeRow :=
  { row with eventId := φ.events row.eventId }

/-- The row with the new number of its block. -/
def RequestRow.renumber (row : RequestRow) : RequestRow :=
  { row with blockId := φ.blocks row.blockId }

end Rows

/-- Rows of each table, with their numbers. -/
structure NumberedRows where
  blocks : List (BlockRow × Nat)
  results : List (ResultRow × Nat)
  events : List (EventRow × Nat)
  attributes : List (AttributeRow × Nat)
  requests : List (RequestRow × Nat)

/-- The rows under their new numbers, with the new numbers of the rows that they refer to. -/
def NumberedRows.renumber (rows : NumberedRows) (φ : Renumbering) : NumberedRows where
  blocks := rows.blocks.map (Prod.map id φ.blocks)
  results := rows.results.map (Prod.map (ResultRow.renumber φ) φ.results)
  events := rows.events.map (Prod.map (EventRow.renumber φ) φ.events)
  attributes := rows.attributes.map (Prod.map (AttributeRow.renumber φ) φ.attributes)
  requests := rows.requests.map (Prod.map (RequestRow.renumber φ) φ.requests)

namespace Table

variable {ρ ρ' : Type} (t : Table ρ) (own : ρ → Bool)

/-- The number of the `n`-th row that has a property. -/
def nth : Nat ↪o Nat := .ofStrictMono (nthMarked (t.rows.map own)) (nthMarked_strictMono _)

/-- If the rows with a property are those of another table, they have the numbers there that the
order gives them. -/
theorem numbered_filter {t : Table ρ} {own : ρ → Bool} {t' : Table ρ'} {f : ρ' → ρ}
    (h : t.rows.filter own = t'.rows.map f) : t.numbered.filter (fun item => own item.1) =
      t'.numbered.map (Prod.map f (t.nth own)) := by
  rw [numbered, filter_zipIdx, h, List.zipIdx_map, List.map_map]
  rfl

/-- A row that only rows with a property can be is found by its number among these. -/
theorem findId?_filter {t : Table ρ} {own p : ρ → Bool} {t' : Table ρ'} {f : ρ' → ρ}
    (h : t.rows.filter own = t'.rows.map f) (hp : ∀ row ∈ t.rows, p row = true → own row = true) :
    t.findId? p = (t'.findId? (p ∘ f)).map (t.nth own) := by
  rw [findId?, findIdx?_filter hp, h, List.findIdx?_map]
  rfl

end Table

/-! ## The rows of a chain -/

namespace Database

variable (db : Database) (c : String)

/-- The rows of all tables. -/
def numbered : NumberedRows :=
  ⟨db.blocks.numbered, db.results.numbered, db.events.numbered, db.attributes.numbered,
    db.requests.numbered⟩

/-- The number is that of a block of the chain. -/
def ownsBlock (blockId : Nat) : Bool := (db.blocks.get? blockId).any (·.chainId = c)

/-- The number is that of an event in a block of the chain. -/
def ownsEvent (eventId : Nat) : Bool :=
  (db.events.get? eventId).any fun event => db.ownsBlock c event.blockId

/-- The blocks of a chain, the results, requests and events in them, and the attributes of these
events. -/
def partOf : NumberedRows where
  blocks := db.blocks.numbered.filter (·.1.chainId = c)
  results := db.results.numbered.filter fun item => db.ownsBlock c item.1.blockId
  events := db.events.numbered.filter fun item => db.ownsBlock c item.1.blockId
  attributes := db.attributes.numbered.filter fun item => db.ownsEvent c item.1.eventId
  requests := db.requests.numbered.filter fun item => db.ownsBlock c item.1.blockId

/-- The numbers that the rows of a chain have, by those that they would have alone. -/
def renumbering : Renumbering where
  blocks := db.blocks.nth (·.chainId = c)
  results := db.results.nth fun row => db.ownsBlock c row.blockId
  events := db.events.nth fun row => db.ownsBlock c row.blockId
  attributes := db.attributes.nth fun row => db.ownsEvent c row.eventId
  requests := db.requests.nth fun row => db.ownsBlock c row.blockId

variable {db c}

/-- A block belongs to the chain by which it is found. -/
theorem ownsBlock_of_blockId? {c' : String} {h : Int64} {blockId : Nat}
    (hid : db.blockId? h c' = some blockId) : db.ownsBlock c blockId = decide (c' = c) := by
  obtain ⟨row, hrow, -, rfl⟩ := blockId?_spec hid
  rw [ownsBlock, hrow]
  rfl

end Database

namespace Journal

variable (j : Journal) (c : String)

/-- Of rows that belong to the chain of their entry, those of a chain come from its part. -/
theorem filter_flatMap_ofChain {ρ ρ' : Type} {rows : Entry → List ρ} {rows' : Entry → List ρ'}
    {own : ρ → Bool} {f : ρ' → ρ}
    (hown : ∀ e, ∀ row ∈ rows e, own row = decide (e.chainId = c))
    (hrows : ∀ e, e.chainId = c → rows e = (rows' e).map f) :
    (j.flatMap rows).filter own = ((j.ofChain c).flatMap rows').map f := by
  rw [List.filter_flatMap, List.map_flatMap, ofChain]
  refine (flatMap_filter_eq (fun e he => ?_) fun e he => ?_).symm
  · have hc := of_decide_eq_true he
    rw [← hrows e hc, List.filter_eq_self.2 fun row hrow => (hown e row hrow).trans he]
  · exact List.filter_eq_nil_iff.2 fun row hrow => hown e row hrow ▸ he

theorem filter_filterMap_ofChain {ρ ρ' : Type} {row? : Entry → Option ρ}
    {row?' : Entry → Option ρ'} {own : ρ → Bool} {f : ρ' → ρ}
    (hown : ∀ e row, row? e = some row → own row = decide (e.chainId = c))
    (hrow : ∀ e, e.chainId = c → row? e = (row?' e).map f) :
    (j.filterMap row?).filter own = ((j.ofChain c).filterMap row?').map f := by
  rw [List.filterMap_eq_flatMap_toList, List.filterMap_eq_flatMap_toList]
  refine filter_flatMap_ofChain j c (fun e row h => hown e row (Option.mem_toList.1 h)) ?_
  intro e he
  rw [hrow e he]
  cases row?' e <;> rfl

/-- The blocks of a chain. -/
theorem blocks_ofChain : j.database.blocks.rows.filter (·.chainId = c) =
    (j.ofChain c).database.blocks.rows := by
  rw [blocks_database, blocks_database]
  refine (filter_filterMap_ofChain j c (f := id) (fun e row h => ?_) fun e _ => ?_).trans
    (List.map_id _)
  · cases e with
    | block c' b =>
      obtain rfl := Option.some.inj h
      rfl
    | result | request => cases h
  · exact Option.map_id'.symm

/-- A block of the chain is found under its new number. -/
theorem blockId?_ofChain (h : Int64) : j.database.blockId? h c =
    ((j.ofChain c).database.blockId? h c).map (j.database.renumbering c).blocks :=
  Table.findId?_filter ((blocks_ofChain j c).trans (List.map_id _).symm) fun row _ hrow => by
    simp only [Database.isBlock, Bool.and_eq_true] at hrow
    exact hrow.2

/-- Rows that belong to the block of their entry, whatever the number of this block, have its new
number on the part of a chain. -/
theorem filter_rows_ofChain {ρ : Type} {row? : Database → Entry → Option ρ} {blockId : ρ → Nat}
    {f : ρ → ρ} (h : ∀ e, (∀ db, row? db e = none) ∨
      ∃ (height : Int64) (row : Nat → ρ),
        (∀ db, row? db e = (Database.blockId? db height e.chainId).map row) ∧
        ∀ id, blockId (row id) = id ∧ f (row id) = row ((j.database.renumbering c).blocks id)) :
    ((j.filterMap (row? j.database)).filter fun row => j.database.ownsBlock c (blockId row)) =
      ((j.ofChain c).filterMap (row? (j.ofChain c).database)).map f := by
  refine filter_filterMap_ofChain j c (fun e r hr => ?_) fun e he => ?_
  · rcases h e with hnone | ⟨height, row, hrow, hspec⟩
    · rw [hnone] at hr
      cases hr
    · rw [hrow] at hr
      obtain ⟨id, hid, rfl⟩ := Option.map_eq_some_iff.1 hr
      rw [(hspec id).1]
      exact Database.ownsBlock_of_blockId? hid
  · rcases h e with hnone | ⟨height, row, hrow, hspec⟩
    · rw [hnone, hnone]
      rfl
    · rw [hrow, hrow, he, blockId?_ofChain, Option.map_map, Option.map_map]
      exact congrArg (Option.map · _) (funext fun id => (hspec id).2.symm)

variable {j c}

/-- The results of a chain, with the new numbers of their blocks. -/
theorem Valid.results_ofChain_database (hv : j.Valid) :
    (j.database.results.rows.filter fun row => j.database.ownsBlock c row.blockId) =
      (j.ofChain c).database.results.rows.map (ResultRow.renumber (j.database.renumbering c)) := by
  rw [hv.results_database, hv.ofChain.results_database]
  refine filter_rows_ofChain j c fun e => ?_
  cases e with
  | result c' r => exact .inr ⟨r.height, _, fun _ => rfl, fun _ => ⟨rfl, rfl⟩⟩
  | block | request => exact .inl fun _ => rfl

/-- The requests of a chain, with the new numbers of their blocks. -/
theorem Valid.requests_ofChain_database (hv : j.Valid) :
    (j.database.requests.rows.filter fun row => j.database.ownsBlock c row.blockId) =
      (j.ofChain c).database.requests.rows.map
        (RequestRow.renumber (j.database.renumbering c)) := by
  rw [hv.requests_database, hv.ofChain.requests_database]
  refine filter_rows_ofChain j c fun e => ?_
  cases e with
  | request c' h q => exact .inr ⟨h, _, fun _ => rfl, fun _ => ⟨rfl, rfl⟩⟩
  | block | result => exact .inl fun _ => rfl

/-! ### Events and their attributes -/

/-- A result in a block of the chain is found under its new number. -/
theorem Valid.resultId?_ofChain (hv : j.Valid) {h : Int64} {blockId : Nat}
    (hid : (j.ofChain c).database.blockId? h c = some blockId) (i : UInt32) :
    j.database.resultId? ((j.database.renumbering c).blocks blockId) i =
      ((j.ofChain c).database.resultId? blockId i).map (j.database.renumbering c).results := by
  have hshared : j.database.blockId? h c = some ((j.database.renumbering c).blocks blockId) := by
    rw [blockId?_ofChain, hid, Option.map_some]
  refine (Table.findId?_filter (hv.results_ofChain_database (c := c)) fun row _ hrow => ?_).trans ?_
  · simp only [Database.isResult, Bool.and_eq_true, decide_eq_true_eq] at hrow
    rw [hrow.1, Database.ownsBlock_of_blockId? hshared, decide_eq_true rfl]
  · -- Blocks keep apart under their new numbers.
    have hpred : Database.isResult ((j.database.renumbering c).blocks blockId) i ∘
        ResultRow.renumber (j.database.renumbering c) = Database.isResult blockId i := by
      funext row
      have hblock : decide ((j.database.renumbering c).blocks row.blockId =
          (j.database.renumbering c).blocks blockId) = decide (row.blockId = blockId) :=
        decide_eq_decide.2 (EmbeddingLike.apply_eq_iff_eq _)
      exact congrArg (· && decide (row.index = i)) hblock
    rw [hpred]
    rfl

/-- The events of an entry have the new numbers of its block and its result. -/
theorem Valid.owner?_ofChain (hv : j.Valid) {e : Entry} (he : e.chainId = c) :
    e.owner? j.database = (e.owner? (j.ofChain c).database).map
      (Prod.map (j.database.renumbering c).blocks
        (Option.map (j.database.renumbering c).results)) := by
  cases e with
  | block c' b =>
    obtain rfl : c' = c := he
    rw [Entry.owner?, Entry.owner?, blockId?_ofChain, Option.map_map, Option.map_map]
    rfl
  | result c' r =>
    obtain rfl : c' = c := he
    rw [Entry.owner?, Entry.owner?, blockId?_ofChain]
    cases hid : (j.ofChain c').database.blockId? r.height c' with
    | none => rfl
    | some blockId =>
      simp only [Option.map_some, Option.bind_some, hv.resultId?_ofChain hid, Option.map_map]
      rfl
  | request c' h q => rfl

/-- Events belong to the chain of their entry. -/
theorem ownsBlock_of_owner? {db : Database} {e : Entry} {blockId : Nat} {txId : Option Nat}
    (h : e.owner? db = some (blockId, txId)) :
    db.ownsBlock c blockId = decide (e.chainId = c) := by
  cases e with
  | block c' b =>
    obtain ⟨_, hid, hpair⟩ := Option.map_eq_some_iff.1 h
    obtain ⟨rfl, -⟩ := Prod.mk.inj hpair
    exact Database.ownsBlock_of_blockId? hid
  | result c' r =>
    obtain ⟨_, hid, htx⟩ := Option.bind_eq_some_iff.1 h
    obtain ⟨_, -, hpair⟩ := Option.map_eq_some_iff.1 htx
    obtain ⟨rfl, -⟩ := Prod.mk.inj hpair
    exact Database.ownsBlock_of_blockId? hid
  | request c' h' q => cases h

/-- The events of a chain, with the new numbers of their blocks and results. -/
theorem Valid.events_ofChain_database (hv : j.Valid) :
    (j.database.events.rows.filter fun row => j.database.ownsBlock c row.blockId) =
      (j.ofChain c).database.events.rows.map (EventRow.renumber (j.database.renumbering c)) := by
  rw [hv.events_database, hv.ofChain.events_database]
  refine filter_flatMap_ofChain j c (fun e row h => ?_) fun e he => ?_
  · unfold Entry.eventRows at h
    split at h
    · rename_i blockId txId howner
      obtain ⟨_, -, rfl⟩ := List.mem_map.1 h
      exact ownsBlock_of_owner? howner
    · simp at h
  · have howner := hv.owner?_ofChain he
    cases hlone : e.owner? (j.ofChain c).database with
    | none =>
      rw [hlone] at howner
      simp only [Entry.eventRows, hlone, howner, Option.map_none, List.map_nil]
    | some owner =>
      rw [hlone] at howner
      rw [Entry.eventRows_of_owner? howner, Entry.eventRows_of_owner? hlone, List.map_map]
      rfl

/-- The events that an entry brings belong to a block, and those of a result to the result. -/
theorem Valid.exists_owner? (hv : j.Valid) {e : Entry} (he : e ∈ j) (hne : e.events ≠ []) :
    ∃ owner, e.owner? j.database = some owner := by
  cases e with
  | block c' b =>
    obtain ⟨blockId, hid⟩ := exists_blockId? (c := c') (h := b.height) ⟨_, he, rfl⟩
    exact ⟨_, Option.map_eq_some_iff.2 ⟨blockId, hid, rfl⟩⟩
  | result c' r =>
    obtain ⟨blockId, hid⟩ := exists_blockId? (c := c') (h := r.height) (hv.holds_home he)
    obtain ⟨txId, htx⟩ := hv.exists_resultId? hid he
    exact ⟨_, Option.bind_eq_some_iff.2 ⟨blockId, hid, Option.map_eq_some_iff.2 ⟨_, htx, rfl⟩⟩⟩
  | request c' h q => exact absurd rfl hne

/-- The events of the entries, each with whether it is one of the chain. -/
def markedEvents (c : String) (j : Journal) : List (Event × Bool) :=
  j.flatMap fun e => e.events.map (·, decide (e.chainId = c))

theorem map_fst_markedEvents (c : String) (j : Journal) :
    (markedEvents c j).map Prod.fst = j.flatMap Entry.events := by
  rw [markedEvents, List.map_flatMap]
  refine List.flatMap_congr fun e _ => ?_
  rw [List.map_map]
  exact List.map_id _

theorem filter_markedEvents (c : String) (j : Journal) :
    (markedEvents c j).filter Prod.snd = ((j.ofChain c).flatMap Entry.events).map (·, true) := by
  refine filter_flatMap_ofChain j c (fun e item h => ?_) fun e he => ?_
  · obtain ⟨_, -, rfl⟩ := List.mem_map.1 h
    rfl
  · rw [he, decide_eq_true rfl]

/-- The marks of the events say whether their rows belong to the chain. -/
theorem Valid.map_snd_markedEvents (hv : j.Valid) (c : String) :
    (markedEvents c j).map Prod.snd =
      j.database.events.rows.map fun row => j.database.ownsBlock c row.blockId := by
  rw [markedEvents, hv.events_database, List.map_flatMap, List.map_flatMap]
  refine List.flatMap_congr fun e he => ?_
  by_cases hne : e.events = []
  · have hrows : e.eventRows j.database = [] := by
      unfold Entry.eventRows
      split
      · rw [hne, List.map_nil]
      · rfl
    rw [hne, hrows]
    rfl
  · obtain ⟨⟨blockId, txId⟩, howner⟩ := hv.exists_owner? he hne
    rw [Entry.eventRows_of_owner? howner, List.map_map, List.map_map]
    exact List.map_congr_left fun _ _ => (ownsBlock_of_owner? howner).symm

/-- The numbers of the events of a chain are the new ones. -/
theorem Valid.filter_zipIdx_events (hv : j.Valid) :
    (((j.flatMap Entry.events).zipIdx 1).filter fun item => j.database.ownsEvent c item.2) =
      (((j.ofChain c).flatMap Entry.events).zipIdx 1).map
        (Prod.map id (j.database.renumbering c).events) := by
  have hmark : ∀ item ∈ (markedEvents c j).zipIdx 1,
      j.database.ownsEvent c item.2 = item.1.2 := by
    rintro ⟨⟨e, mark⟩, id⟩ hitem
    have hget : (Table.mk (markedEvents c j)).get? id = some (e, mark) :=
      (Table.mem_numbered_iff _).1 hitem
    cases id with
    | zero => cases hget
    | succ i =>
      have hmarks := congrArg (·[i]?) (hv.map_snd_markedEvents c)
      simp only [List.getElem?_map, show (markedEvents c j)[i]? = some (e, mark) from hget,
        Option.map_some] at hmarks
      obtain ⟨row, hrow, hown⟩ := Option.map_eq_some_iff.1 hmarks.symm
      rw [Database.ownsEvent, Table.get?, hrow]
      exact hown
  rw [← map_fst_markedEvents c, List.zipIdx_map, List.filter_map]
  have hfilter : ((markedEvents c j).zipIdx 1).filter
      ((fun item => j.database.ownsEvent c item.2) ∘ Prod.map Prod.fst id) =
        ((markedEvents c j).zipIdx 1).filter fun item => item.1.2 :=
    List.filter_congr hmark
  rw [hfilter, filter_zipIdx Prod.snd, filter_markedEvents, hv.map_snd_markedEvents,
    List.zipIdx_map, List.map_map, List.map_map]
  rfl

/-- The attributes of a chain, with the new numbers of their events. -/
theorem Valid.attributes_ofChain_database (hv : j.Valid) :
    (j.database.attributes.rows.filter fun row => j.database.ownsEvent c row.eventId) =
      (j.ofChain c).database.attributes.rows.map
        (AttributeRow.renumber (j.database.renumbering c)) := by
  rw [hv.attributes_database, hv.ofChain.attributes_database, List.map_flatMap,
    List.filter_flatMap]
  have hown : ∀ item : Event × Nat, ∀ row ∈ item.1.attributeRows item.2,
      j.database.ownsEvent c row.eventId = j.database.ownsEvent c item.2 := by
    intro item row hrow
    obtain ⟨_, -, rfl⟩ := List.mem_map.1 hrow
    rfl
  calc
    _ = (((j.flatMap Entry.events).zipIdx 1).filter
          fun item => j.database.ownsEvent c item.2).flatMap
            fun item => item.1.attributeRows item.2 := by
      refine (flatMap_filter_eq (fun item hitem => ?_) fun item hitem => ?_).symm
      · exact (List.filter_eq_self.2 fun row hrow => (hown item row hrow).trans hitem).symm
      · exact List.filter_eq_nil_iff.2 fun row hrow => hown item row hrow ▸ hitem
    _ = _ := by
      rw [hv.filter_zipIdx_events, List.flatMap_map]
      refine List.flatMap_congr fun item _ => ?_
      unfold Event.attributeRows
      rw [List.map_map]
      rfl

/-- **The rows of a chain are those of its own database, renumbered.** Each of the five tables is
compared on its own, the later ones with the numbering that was found for those they refer to. -/
theorem Valid.partOf_database (hv : j.Valid) (c : String) :
    j.database.partOf c =
      (j.ofChain c).database.numbered.renumber (j.database.renumbering c) := by
  have hblocks : j.database.blocks.rows.filter (·.chainId = c) =
      (j.ofChain c).database.blocks.rows.map id := (blocks_ofChain j c).trans (List.map_id _).symm
  simp only [Database.partOf, NumberedRows.renumber, Database.numbered, NumberedRows.mk.injEq]
  exact ⟨Table.numbered_filter hblocks, Table.numbered_filter hv.results_ofChain_database,
    Table.numbered_filter hv.events_ofChain_database,
    Table.numbered_filter hv.attributes_ofChain_database,
    Table.numbered_filter hv.requests_ofChain_database⟩

end Journal
end TxIndex
