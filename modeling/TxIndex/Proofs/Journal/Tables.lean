import Mathlib.Data.List.Induction
import TxIndex.Proofs.Journal.Basic

/-! # The tables of a journal

The rows of blocks, results and requests, read off the entries of a journal. A row names its block by
number. That number is found by the height and the chain (`Database.blockId?`), it is the same ever
after (`blockId?_add`), and no two blocks share one (`blockId?_inj`). So a row stands at the place of
its entry, and a look-up by numbers is a look-up by place (`any_isResult_database`,
`any_isRequest_database`).

Recording an entry adds at most one row to one of the three tables (`Database.blocks_add`,
`Database.results_add`, `Database.requests_add`), after blocks that are already there. The rows of a
table are therefore found by going through the entries, and each names its block by a number that
later entries leave as it is (`Journal.Valid.rows_database`). -/
namespace TxIndex

/-- The number of a row does not change as rows are added after it. -/
theorem Table.findId?_of_prefix {ρ : Type} {t t' : Table ρ} {p : ρ → Bool} {id : Nat}
    (h : t.rows <+: t'.rows) (hid : t.findId? p = some id) : t'.findId? p = some id := by
  obtain ⟨rows, hrows⟩ := h
  obtain ⟨i, hi, rfl⟩ := Option.map_eq_some_iff.1 hid
  rw [findId?, ← hrows, List.findIdx?_append, hi]
  rfl

namespace Database

/-! ## What adding events leaves alone -/

section Events
variable (db : Database) (blockId : Nat) (txId : Option Nat)

@[simp] theorem addEvents_nil : db.addEvents blockId txId [] = db := rfl

@[simp] theorem addEvents_cons (e : Event) (es : List Event) :
    db.addEvents blockId txId (e :: es) =
      (addEvent blockId txId db e).addEvents blockId txId es := rfl

@[simp] theorem blocks_addEvents (es : List Event) :
    (db.addEvents blockId txId es).blocks = db.blocks := by
  induction es generalizing db with
  | nil => rfl
  | cons e es ih => rw [addEvents_cons, ih]; rfl

@[simp] theorem results_addEvents (es : List Event) :
    (db.addEvents blockId txId es).results = db.results := by
  induction es generalizing db with
  | nil => rfl
  | cons e es ih => rw [addEvents_cons, ih]; rfl

@[simp] theorem requests_addEvents (es : List Event) :
    (db.addEvents blockId txId es).requests = db.requests := by
  induction es generalizing db with
  | nil => rfl
  | cons e es ih => rw [addEvents_cons, ih]; rfl

end Events

end Database

namespace Entry

/-- The row that an entry adds to the blocks. -/
def blockRow? : Entry → Option BlockRow
  | .block c b => some ⟨b.height, c, b.time⟩
  | _ => none

/-- The row that an entry adds to the results of a database. -/
def resultRow? (db : Database) : Entry → Option ResultRow
  | .result c r => (db.blockId? r.height c).map fun blockId =>
      ⟨blockId, r.index, r.height, txHash r.tx, Wire.txResult.encode r⟩
  | _ => none

/-- The row that an entry adds to the requests of a database. -/
def requestRow? (db : Database) : Entry → Option RequestRow
  | .request c height q => (db.blockId? height c).map fun blockId => ⟨blockId, q⟩
  | _ => none

end Entry

namespace Database

variable (db : Database) {e : Entry} {c c' : String} {h h' : Int64} {blockId : Nat}

theorem blocks_add (e : Entry) :
    (db.add e).blocks.rows = db.blocks.rows ++ e.blockRow?.toList := by
  cases e with
  | block c b => simp [add, addBlock, Entry.blockRow?]
  | result c r =>
    simp only [add, Entry.blockRow?]
    split <;> simp [addResult]
  | request c height q =>
    simp only [add, Entry.blockRow?]
    split <;> simp [addRequest]

theorem results_add (e : Entry) :
    (db.add e).results.rows = db.results.rows ++ (e.resultRow? db).toList := by
  cases e with
  | block c b => simp [add, addBlock, Entry.resultRow?]
  | result c r =>
    simp only [add, Entry.resultRow?]
    split
    · rename_i blockId hid
      simp [addResult, hid]
    · rename_i hid
      simp [hid]
  | request c height q =>
    simp only [add, Entry.resultRow?]
    split <;> simp [addRequest]

theorem requests_add (e : Entry) :
    (db.add e).requests.rows = db.requests.rows ++ (e.requestRow? db).toList := by
  cases e with
  | block c b => simp [add, addBlock, Entry.requestRow?]
  | result c r =>
    simp only [add, Entry.requestRow?]
    split <;> simp [addResult]
  | request c height q =>
    simp only [add, Entry.requestRow?]
    split
    · rename_i blockId hid
      simp [addRequest, hid]
    · rename_i hid
      simp [hid]

/-! ## Numbers of blocks -/

variable {db}

/-- The number of a block is that of a row with its height and chain. -/
theorem blockId?_spec (hid : db.blockId? h c = some blockId) :
    ∃ row, db.blocks.get? blockId = some row ∧ row.height = h ∧ row.chainId = c := by
  obtain ⟨i, hi, rfl⟩ := Option.map_eq_some_iff.1 hid
  obtain ⟨hlt, hrow, _⟩ := List.findIdx?_eq_some_iff_getElem.1 hi
  refine ⟨db.blocks.rows[i], List.getElem?_eq_getElem hlt, ?_⟩
  simpa [isBlock] using hrow

/-- Blocks of different heights or chains have different numbers. -/
theorem blockId?_inj (hid : db.blockId? h c = some blockId)
    (hid' : db.blockId? h' c' = some blockId) : h = h' ∧ c = c' := by
  obtain ⟨row, hrow, rfl, rfl⟩ := blockId?_spec hid
  obtain ⟨row', hrow', rfl, rfl⟩ := blockId?_spec hid'
  obtain rfl := Option.some.inj (hrow.symm.trans hrow')
  exact ⟨rfl, rfl⟩

/-- Two numbers are of one block if they are one number. -/
theorem blockId?_eq_iff {blockId' : Nat} (hid : db.blockId? h c = some blockId)
    (hid' : db.blockId? h' c' = some blockId') : blockId = blockId' ↔ c = c' ∧ h = h' := by
  constructor
  · rintro rfl
    exact (blockId?_inj hid hid').symm
  · rintro ⟨rfl, rfl⟩
    exact Option.some.inj (hid.symm.trans hid')

/-- The number of a block does not change as the database grows. -/
theorem blockId?_add (e : Entry) (hid : db.blockId? h c = some blockId) :
    (db.add e).blockId? h c = some blockId :=
  Table.findId?_of_prefix ⟨_, (db.blocks_add e).symm⟩ hid

end Database

namespace Journal

variable {j : Journal} {e : Entry} {c : String} {h : Int64} {blockId : Nat}

theorem blocks_database (j : Journal) :
    j.database.blocks.rows = j.filterMap Entry.blockRow? := by
  induction j using List.reverseRecOn with
  | nil => rfl
  | append_singleton j e ih =>
    rw [database_snoc, Database.blocks_add, ih, List.filterMap_append]
    cases he : e.blockRow? <;> simp [he]

/-- A block has a number exactly if its place is taken. -/
theorem isSome_blockId?_database : (j.database.blockId? h c).isSome ↔ j.Holds (.block c h) := by
  unfold Database.blockId? Table.findId?
  rw [Option.isSome_map, List.findIdx?_isSome, blocks_database, List.any_eq_true]
  constructor
  · rintro ⟨row, hrow, hb⟩
    obtain ⟨e, he, hrow⟩ := List.mem_filterMap.1 hrow
    cases e with
    | block c' b =>
      obtain rfl := Option.some.inj hrow
      obtain ⟨rfl, rfl⟩ : b.height = h ∧ c' = c := by simpa [Database.isBlock] using hb
      exact ⟨_, he, rfl⟩
    | result | request => simp [Entry.blockRow?] at hrow
  · rintro ⟨e, he, hp⟩
    cases e with
    | block c' b =>
      obtain ⟨rfl, rfl⟩ : c' = c ∧ b.height = h := by simpa using hp
      exact ⟨_, List.mem_filterMap.2 ⟨_, he, rfl⟩, by simp [Database.isBlock]⟩
    | result | request => simp at hp

theorem exists_blockId? (hb : j.Holds (.block c h)) : ∃ id, j.database.blockId? h c = some id :=
  Option.isSome_iff_exists.1 (isSome_blockId?_database.2 hb)

/-- The block of a result or a request that may be added has a number. -/
theorem Accepts.exists_blockId? (ha : j.Accepts e) (hhome : e.place.home = .block c h)
    (hne : e.place ≠ .block c h) : ∃ id, j.database.blockId? h c = some id :=
  Journal.exists_blockId? (hhome ▸ ha.2.resolve_left fun heq => hne (heq ▸ hhome))

theorem blockId?_eq_none (hb : ¬ j.Holds (.block c h)) : j.database.blockId? h c = none := by
  rw [← Option.not_isSome_iff_eq_none, isSome_blockId?_database]
  exact hb

/-- An entry whose block is recorded adds the same rows, then and later. -/
theorem resultRow?_snoc {e' : Entry} (hh : j.Holds e.place.home) :
    e.resultRow? (Journal.database (j ++ [e'])) = e.resultRow? j.database := by
  cases e with
  | result c r =>
    obtain ⟨id, hid⟩ := exists_blockId? (c := c) (h := r.height) hh
    simp [Entry.resultRow?, hid, Database.blockId?_add e' hid]
  | block | request => rfl

theorem requestRow?_snoc {e' : Entry} (hh : j.Holds e.place.home) :
    e.requestRow? (Journal.database (j ++ [e'])) = e.requestRow? j.database := by
  cases e with
  | request c height q =>
    obtain ⟨id, hid⟩ := exists_blockId? (c := c) (h := height) hh
    simp [Entry.requestRow?, hid, Database.blockId?_add e' hid]
  | block | result => rfl

/-- A table whose rows are added entry by entry, each row staying what it is once its block is
recorded, lists the rows of all entries. -/
theorem Valid.rows_database {ρ : Type} (rows : Database → List ρ)
    (row? : Entry → Database → Option ρ) (hempty : rows .empty = [])
    (hadd : ∀ db e, rows (db.add e) = rows db ++ (row? e db).toList)
    (hblock : ∀ c b db, row? (.block c b) db = none)
    (hkeep : ∀ (j : Journal) (e e' : Entry), j.Holds e.place.home →
      row? e (Journal.database (j ++ [e'])) = row? e j.database)
    (hv : j.Valid) : rows j.database = j.filterMap (row? · j.database) := by
  induction hv with
  | nil => exact hempty
  | @snoc j e hv ha ih =>
    -- A row is made with the number of its block, which is known before the row is.
    have hold : ∀ e' ∈ j, row? e' (Journal.database (j ++ [e])) = row? e' j.database :=
      fun e' he' => hkeep j e' e (hv.holds_home he')
    have hnew : row? e (Journal.database (j ++ [e])) = row? e j.database := by
      cases e with
      | block c b => rw [hblock, hblock]
      | result | request =>
        refine hkeep j _ _ (ha.2.resolve_left ?_)
        simp [Place.home]
    rw [List.filterMap_append, List.filterMap_congr hold, ← ih]
    simp only [List.filterMap_cons, List.filterMap_nil, hnew]
    rw [database_snoc, hadd]
    cases row? e j.database <;> rfl

theorem Valid.results_database (hv : j.Valid) :
    j.database.results.rows = j.filterMap (Entry.resultRow? j.database) :=
  hv.rows_database (fun db => db.results.rows) (fun e db => e.resultRow? db) rfl
    Database.results_add (fun _ _ _ => rfl) fun _ _ _ => resultRow?_snoc

theorem Valid.requests_database (hv : j.Valid) :
    j.database.requests.rows = j.filterMap (Entry.requestRow? j.database) :=
  hv.rows_database (fun db => db.requests.rows) (fun e db => e.requestRow? db) rfl
    Database.requests_add (fun _ _ _ => rfl) fun _ _ _ => requestRow?_snoc

end Journal
end TxIndex
