import TxIndex.Proofs.Journal.Order

/-! # The events of a journal

The tables of events and attributes, read off the entries of a journal. The events of an entry stand
together, in the order of the entries, each with the numbers of its block and its transaction
(`Journal.Valid.events_database`), and every event has the first indexed attribute of each key, in
the order of the events (`Journal.Valid.attributes_database`). With the rows of blocks, results and
requests this says what a database holds (`Database.Represents`).

Of several attributes with one key the table keeps the first, which is said of lists once
(`firstOfEach`). What an entry adds to the two tables does not depend on what they hold, except for
the numbers with which its rows begin (`Journal.Valid.events_add`, `Journal.attributes_add`), so the
tables are sums over the entries. -/
namespace TxIndex

/-! ## The first of each key -/

section FirstOfEach

variable {α β κ : Type} [DecidableEq κ] (key : α → κ)

/-- The first item of each key, in the order of the list. -/
def firstOfEach : List α → List α
  | [] => []
  | a :: as => a :: (firstOfEach as).filter (key · ≠ key a)

variable {key}

/-- An item is the first of its key if some occurrence has none of that key before it. -/
theorem mem_firstOfEach {a : α} {as : List α} : a ∈ firstOfEach key as ↔
    ∃ before after, as = before ++ a :: after ∧ ∀ b ∈ before, key b ≠ key a := by
  induction as with
  | nil => simp [firstOfEach]
  | cons b as ih =>
    rw [firstOfEach, List.mem_cons, List.mem_filter, ih, decide_eq_true_eq]
    constructor
    · rintro (rfl | ⟨⟨before, after, rfl, hbefore⟩, hne⟩)
      · exact ⟨[], as, rfl, by simp⟩
      · exact ⟨b :: before, after, rfl, List.forall_mem_cons.2 ⟨Ne.symm hne, hbefore⟩⟩
    · rintro ⟨_ | ⟨b', before⟩, after, hsplit, hbefore⟩
      · exact .inl (List.cons.inj hsplit).1.symm
      · obtain ⟨rfl, rfl⟩ := List.cons.inj hsplit
        obtain ⟨hne, hbefore⟩ := List.forall_mem_cons.1 hbefore
        exact .inr ⟨⟨before, after, rfl, hbefore⟩, Ne.symm hne⟩

theorem firstOfEach_map (f : β → α) (bs : List β) :
    firstOfEach key (bs.map f) = (firstOfEach (key ∘ f) bs).map f := by
  induction bs with
  | nil => rfl
  | cons b bs ih =>
    simp only [List.map_cons, firstOfEach, ih, List.filter_map]
    rfl

end FirstOfEach

namespace Event

theorem firstOfEachKey_eq (as : List EventAttribute) :
    firstOfEachKey as = firstOfEach EventAttribute.key as := by
  induction as with
  | nil => rfl
  | cons a as ih => rw [firstOfEachKey, firstOfEach, ih]

/-- The rows that the indexed attributes of an event would have if keys could repeat. -/
def indexedRows (e : Event) (eventId : Nat) : List AttributeRow :=
  (e.attributes.filter (·.indexed)).map fun a => ⟨eventId, a.key, e.compositeKey a.key, a.value⟩

theorem attributeRows_eq (e : Event) (eventId : Nat) :
    e.attributeRows eventId = firstOfEach AttributeRow.key (e.indexedRows eventId) := by
  rw [attributeRows, recordedAttributes, firstOfEachKey_eq, indexedRows, firstOfEach_map]
  rfl

end Event

/-! ## What entries add -/

namespace Entry

/-- The events that an entry brings. -/
def events : Entry → List Event
  | .block _ b => b.recordedEvents
  | .result _ r => r.recordedEvents (txHash r.tx)
  | .request _ _ _ => []

theorem eventCount_eq (e : Entry) : e.eventCount = e.events.length := by cases e <;> rfl

end Entry

namespace Table

variable {ρ : Type} {t t' : Table ρ} {p : ρ → Bool}

/-- A new row with a property that no other row has is found under the number announced for it. -/
theorem findId?_of_new {row : ρ} (h : t'.rows = t.rows ++ [row]) (hnone : t.rows.any p = false)
    (hrow : p row = true) : t'.findId? p = some t.nextId := by
  have hold : t.rows.findIdx? p = none := by
    rw [← Option.not_isSome_iff_eq_none, List.findIdx?_isSome, hnone]
    exact Bool.false_ne_true
  rw [findId?, h, List.findIdx?_append, hold]
  simp [hrow, nextId, size]

end Table

namespace Database

/-- The number of the result at a place. -/
def resultId? (db : Database) (blockId : Nat) (index : UInt32) : Option Nat :=
  db.results.findId? (isResult blockId index)

variable (db : Database) (blockId : Nat) (txId : Option Nat)

theorem events_addEvents (es : List Event) : (db.addEvents blockId txId es).events.rows =
    db.events.rows ++ es.map (⟨blockId, txId, ·.kind⟩) := by
  induction es generalizing db with
  | nil => simp
  | cons e es ih =>
    rw [addEvents_cons, ih]
    simp [addEvent]

theorem attributes_addEvents (es : List Event) :
    (db.addEvents blockId txId es).attributes.rows = db.attributes.rows ++
      (es.zipIdx db.events.nextId).flatMap fun (e, id) => e.attributeRows id := by
  induction es generalizing db with
  | nil => simp
  | cons e es ih =>
    rw [addEvents_cons, ih]
    simp [addEvent, Table.nextId]

end Database

namespace Entry

variable (db : Database)

/-- The numbers of the block and of the transaction to which the events of an entry belong. -/
def owner? : Entry → Option (Nat × Option Nat)
  | .block c b => (db.blockId? b.height c).map (·, none)
  | .result c r =>
    (db.blockId? r.height c).bind fun blockId =>
      (db.resultId? blockId r.index).map fun txId => (blockId, some txId)
  | .request _ _ _ => none

/-- The rows of the events that an entry brings. -/
def eventRows (e : Entry) : List EventRow :=
  match e.owner? db with
  | some (blockId, txId) => e.events.map (⟨blockId, txId, ·.kind⟩)
  | none => []

variable {db}

theorem eventRows_of_owner? {e : Entry} {blockId : Nat} {txId : Option Nat}
    (h : e.owner? db = some (blockId, txId)) :
    e.eventRows db = e.events.map (⟨blockId, txId, ·.kind⟩) := by
  simp only [eventRows, h]

end Entry

namespace Journal

variable {j : Journal} {e : Entry}

/-- The entry that is accepted next has its numbers afterwards, and adds its events under them. -/
theorem Valid.events_add (hv : j.Valid) (ha : j.Accepts e) :
    (j.database.add e).events.rows =
      j.database.events.rows ++ e.eventRows (j.database.add e) := by
  cases e with
  | block c b =>
    have hnone : j.database.blocks.rows.any (Database.isBlock b.height c) = false := by
      have hid := blockId?_eq_none ha.1
      rw [Database.blockId?, Table.findId?, Option.map_eq_none_iff] at hid
      rw [← List.findIdx?_isSome, hid]
      rfl
    have hid : (j.database.add (.block c b)).blockId? b.height c =
        some j.database.blocks.nextId :=
      Table.findId?_of_new (Database.blocks_add _ _) hnone (by simp [Database.isBlock])
    have howner : (Entry.block c b).owner? (j.database.add (.block c b)) =
        some (j.database.blocks.nextId, none) := by
      simp only [Entry.owner?, hid, Option.map_some]
    rw [Entry.eventRows_of_owner? howner]
    exact Database.events_addEvents _ _ _ _
  | result c r =>
    obtain ⟨id, hid⟩ := ha.exists_blockId? rfl (by simp)
    have hnone : j.database.results.rows.any (Database.isResult id r.index) = false := by
      rw [Bool.eq_false_iff, Ne, hv.any_isResult hid]
      exact ha.1
    have hrows := Database.results_add j.database (.result c r)
    simp only [Entry.resultRow?, hid, Option.map_some, Option.toList_some] at hrows
    have htx : (j.database.add (.result c r)).resultId? id r.index =
        some j.database.results.nextId :=
      Table.findId?_of_new hrows hnone (by simp [Database.isResult])
    have howner : (Entry.result c r).owner? (j.database.add (.result c r)) =
        some (id, some j.database.results.nextId) := by
      simp only [Entry.owner?, Database.blockId?_add _ hid, Option.bind_some, htx, Option.map_some]
    rw [Entry.eventRows_of_owner? howner]
    simp only [Database.add, hid]
    exact Database.events_addEvents _ _ _ _
  | request c h q =>
    simp only [Database.add, Entry.eventRows, Entry.owner?, List.append_nil]
    split <;> rfl

/-- The entry that is accepted next adds the attributes of its events. -/
theorem attributes_add (ha : j.Accepts e) :
    (j.database.add e).attributes.rows = j.database.attributes.rows ++
      (e.events.zipIdx j.database.events.nextId).flatMap fun (e, id) => e.attributeRows id := by
  cases e with
  | block c b => exact Database.attributes_addEvents _ _ _ _
  | result c r =>
    obtain ⟨id, hid⟩ := ha.exists_blockId? rfl (by simp)
    simp only [Database.add, hid]
    exact Database.attributes_addEvents _ _ _ _
  | request c h q =>
    simp only [Database.add, Entry.events, List.zipIdx_nil, List.flatMap_nil, List.append_nil]
    split <;> rfl

/-- A result that is recorded has a number. -/
theorem Valid.exists_resultId? (hv : j.Valid) {c : String} {r : TxResult} {blockId : Nat}
    (hid : j.database.blockId? r.height c = some blockId) (he : .result c r ∈ j) :
    ∃ txId, j.database.resultId? blockId r.index = some txId := by
  have hany := (hv.any_isResult hid).2 ⟨_, he, rfl⟩
  obtain ⟨i, hi⟩ := Option.isSome_iff_exists.1 (List.findIdx?_isSome.trans hany)
  exact ⟨i + 1, congrArg (Option.map _) hi⟩

/-- The numbers of a block and a result do not change as the journal grows. -/
theorem Valid.owner?_snoc (hv : j.Valid) (he : e ∈ j) (e' : Entry) :
    e.owner? (Journal.database (j ++ [e'])) = e.owner? j.database := by
  rw [database_snoc]
  cases e with
  | block c b =>
    obtain ⟨id, hid⟩ := exists_blockId? (c := c) (h := b.height) ⟨_, he, rfl⟩
    simp only [Entry.owner?, hid, Database.blockId?_add e' hid]
  | result c r =>
    obtain ⟨id, hid⟩ := exists_blockId? (c := c) (h := r.height) (hv.holds_home he)
    obtain ⟨txId, htx⟩ := hv.exists_resultId? hid he
    have hprefix : j.database.results.rows <+: (j.database.add e').results.rows :=
      ⟨_, (Database.results_add _ e').symm⟩
    have htx' : (j.database.add e').resultId? id r.index = some txId :=
      Table.findId?_of_prefix hprefix htx
    simp only [Entry.owner?, hid, Database.blockId?_add e' hid, Option.bind_some, htx, htx']
  | request c h q => rfl

/-- **The rows of events are those of the entries**, in their order. Each carries the numbers of the
block and the transaction that own it, as they were found when the entry was added; by then both had
rows, and these keep their numbers. -/
theorem Valid.events_database (hv : j.Valid) :
    j.database.events.rows = j.flatMap (Entry.eventRows j.database) := by
  induction hv with
  | nil => rfl
  | @snoc j e hv ha ih =>
    have hold : ∀ e' ∈ j, e'.eventRows (Journal.database (j ++ [e])) =
        e'.eventRows j.database := fun e' he' => by
      rw [Entry.eventRows, Entry.eventRows, hv.owner?_snoc he']
    rw [List.flatMap_append, List.flatMap_congr hold, ← ih, database_snoc, hv.events_add ha]
    simp

/-- **The rows of attributes are those of the events**, in their order. Events are numbered across
all entries from one on, so the number of an event is its place among the events of all entries
before and its own. -/
theorem Valid.attributes_database (hv : j.Valid) : j.database.attributes.rows =
    ((j.flatMap Entry.events).zipIdx 1).flatMap fun (e, id) => e.attributeRows id := by
  induction hv with
  | nil => rfl
  | @snoc j e hv ha ih =>
    have hnext : j.database.events.nextId = 1 + (j.flatMap Entry.events).length := by
      rw [Table.nextId, hv.events_size, funext Entry.eventCount_eq, List.length_flatMap,
        Nat.add_comm]
    rw [database_snoc, attributes_add ha, ih, hnext, List.flatMap_append,
      List.zipIdx_append, List.flatMap_append]
    simp

end Journal

/-! ## What a database holds -/

namespace Database

/-- The keys of the tables hold: rows of blocks differ in the height or the chain, rows of results
and rows of requests in the block or the index, and every result lies in a block of its height. -/
structure WellFormed (db : Database) : Prop where
  blocks : (db.blocks.rows.map fun row => (row.height, row.chainId)).Nodup
  results : (db.results.rows.map fun row => (row.blockId, row.index)).Nodup
  requests : (db.requests.rows.map fun row => (row.blockId, row.request.index)).Nodup
  parents : ∀ row ∈ db.results.rows, ∃ block, db.blocks.get? row.blockId = some block ∧
    block.height = row.height

/-- The tables hold the entries and nothing else, in their order. -/
structure Represents (db : Database) (entries : List Entry) : Prop where
  blocks : db.blocks.rows = entries.filterMap Entry.blockRow?
  results : db.results.rows = entries.filterMap (Entry.resultRow? db)
  requests : db.requests.rows = entries.filterMap (Entry.requestRow? db)
  events : db.events.rows = entries.flatMap (Entry.eventRows db)
  /-- Every event has the first indexed attribute of each key. -/
  attributes : db.attributes.rows = ((entries.flatMap Entry.events).zipIdx 1).flatMap
    fun (e, id) => firstOfEach AttributeRow.key (e.indexedRows id)

end Database

namespace Journal

variable {j : Journal}

/-- Rows that tell the places of their entries apart differ. -/
theorem Valid.nodup_rows (hv : j.Valid) {ρ κ : Type} {row? : Entry → Option ρ} {key : ρ → κ}
    (hkey : ∀ e e' row row', row? e = some row → row? e' = some row' → key row = key row' →
      e.place = e'.place) : ((j.filterMap row?).map key).Nodup := by
  refine List.pairwise_map.2 (List.pairwise_filterMap.2 ?_)
  apply (List.pairwise_map.1 hv.nodup_places).imp
  intro e e' hne row hrow row' hrow' heq
  exact hne (hkey e e' row row' hrow hrow' heq)

theorem Valid.wellFormed (hv : j.Valid) : j.database.WellFormed where
  blocks := by
    rw [blocks_database]
    apply hv.nodup_rows
    intro e e' row row' hrow hrow' heq
    cases e with
    | block c b =>
      cases e' with
      | block c' b' =>
        obtain rfl := Option.some.inj hrow
        obtain rfl := Option.some.inj hrow'
        obtain ⟨hh, hc⟩ := Prod.mk.inj heq
        exact congrArg₂ Place.block hc hh
      | result | request => cases hrow'
    | result | request => cases hrow
  results := by
    rw [hv.results_database]
    apply hv.nodup_rows
    intro e e' row row' hrow hrow' heq
    cases e with
    | result c r =>
      cases e' with
      | result c' r' =>
        obtain ⟨id, hid, rfl⟩ := Option.map_eq_some_iff.1 hrow
        obtain ⟨id', hid', rfl⟩ := Option.map_eq_some_iff.1 hrow'
        obtain ⟨hids, hi⟩ := Prod.mk.inj heq
        obtain ⟨hc, hh⟩ := (Database.blockId?_eq_iff hid hid').1 hids
        simp only [Entry.place_result, hc, hh, show r.index = r'.index from hi]
      | block | request => cases hrow'
    | block | request => cases hrow
  requests := List.pairwise_map.2 (hv.distinctRequests.imp fun h heq => h (Prod.mk.inj heq))
  parents row hrow := by
    rw [hv.results_database] at hrow
    obtain ⟨e, -, hrow⟩ := List.mem_filterMap.1 hrow
    cases e with
    | result c r =>
      obtain ⟨id, hid, rfl⟩ := Option.map_eq_some_iff.1 hrow
      obtain ⟨block, hblock, hheight, -⟩ := Database.blockId?_spec hid
      exact ⟨block, hblock, hheight⟩
    | block | request => cases hrow

theorem Valid.represents (hv : j.Valid) : j.database.Represents j where
  blocks := blocks_database j
  results := hv.results_database
  requests := hv.requests_database
  events := hv.events_database
  attributes := by simp only [hv.attributes_database, Event.attributeRows_eq]

end Journal
end TxIndex
