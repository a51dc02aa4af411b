import Mathlib.Data.List.Forall2
import TxIndex.Proofs.Journal.Tables
import TxIndex.Store.Search

/-! # The attributes of a transaction

A condition of a query looks at the attributes whose event belongs to the result of a number
(`Database.valuesOf`). Events are numbered across all blocks and results, and attributes refer to
them by number; since no attribute refers to an event that is yet to come (`Database.Scoped`), what
is added later never reaches an earlier result. So the attributes of a result are the recorded ones
of its own events (`Journal.Valid.shows`).

The proof goes along the entries. Each kind of entry is shown to keep the numbers in bounds
(`Database.Scoped.add`) and to add nothing to the attributes of an earlier result
(`Database.valuesOf_add`); what a new result adds are the recorded attributes of its events
(`Database.valuesOf_addResult`). What a condition meets is then read off these values
(`Database.meets_iff`). -/
namespace TxIndex

/-- The composite keys and values of the recorded attributes of an event. -/
def Event.indexedValues (e : Event) : List (String × String) :=
  e.recordedAttributes.map fun a => (e.compositeKey a.key, a.value)

/-- The composite keys and values under which a transaction is found. -/
def TxResult.indexedValues (r : TxResult) : List (String × String) :=
  (r.recordedEvents (txHash r.tx)).flatMap Event.indexedValues

namespace Table

variable {ρ : Type}

@[simp] theorem numbered_empty : (empty : Table ρ).numbered = [] := rfl

theorem numbered_insert (t : Table ρ) (row : ρ) :
    (t.insert row).numbered = t.numbered ++ [(row, t.nextId)] := by
  simp [numbered, nextId, size, List.zipIdx_append, Nat.add_comm]

theorem mem_numbered_iff (t : Table ρ) {row : ρ} {id : Nat} :
    (row, id) ∈ t.numbered ↔ t.get? id = some row := by
  rw [numbered, List.mem_zipIdx_iff_le_and_getElem?_sub]
  cases id with
  | zero => simp [get?]
  | succ id => simp [get?]

theorem lt_nextId_of_mem (t : Table ρ) {row : ρ} {id : Nat} (h : (row, id) ∈ t.numbered) :
    id < t.nextId := by
  have := (List.mem_zipIdx h).2.1
  simp only [nextId, size]
  omega

theorem pairwise_numbered (t : Table ρ) : t.numbered.Pairwise fun a b => a.2 < b.2 := by
  rw [← List.pairwise_map (f := Prod.snd) (R := (· < ·)), numbered, List.zipIdx_map_snd]
  exact List.pairwise_lt_range'

end Table

namespace Database

variable (db : Database)

/-- The composite keys and values of the attributes stored for the result of a number. -/
def valuesOf (txId : Nat) : List (String × String) :=
  db.events.numbered.flatMap fun (event, eventId) =>
    if event.txId = some txId then
      (db.attributes.rows.filter (·.eventId = eventId)).map fun a => (a.compositeKey, a.value)
    else []

/-- The attributes of an event. -/
theorem mem_valuesOf {txId : Nat} {kv : String × String} :
    kv ∈ db.valuesOf txId ↔ ∃ event eventId, (event, eventId) ∈ db.events.numbered ∧
      event.txId = some txId ∧ ∃ a ∈ db.attributes.rows, a.eventId = eventId ∧
        (a.compositeKey, a.value) = kv := by
  simp only [valuesOf, List.mem_flatMap, Prod.exists]
  constructor
  · rintro ⟨event, eventId, hmem, h⟩
    split at h
    · rename_i htx
      obtain ⟨a, ha, hkv⟩ := List.mem_map.1 h
      obtain ⟨ha, hid⟩ := List.mem_filter.1 ha
      exact ⟨event, eventId, hmem, htx, a, ha, of_decide_eq_true hid, hkv⟩
    · simp at h
  · rintro ⟨event, eventId, hmem, htx, a, ha, hid, hkv⟩
    refine ⟨event, eventId, hmem, ?_⟩
    rw [if_pos htx]
    exact List.mem_map.2 ⟨a, List.mem_filter.2 ⟨ha, decide_eq_true hid⟩, hkv⟩

/-- A condition looks at the values of a result and at nothing else. -/
theorem meets_iff {txId : Nat} {c : Condition} :
    db.meets txId c = true ↔ ∃ kv ∈ db.valuesOf txId, kv.1 = c.tag ∧ c.test.holds kv.2 = true := by
  simp only [meets, List.any_eq_true, Bool.and_eq_true, decide_eq_true_eq, Prod.exists]
  constructor
  · rintro ⟨event, eventId, hmem, htx, a, ha, ⟨hid, hkey⟩, hval⟩
    exact ⟨a.compositeKey, a.value,
      db.mem_valuesOf.2 ⟨event, eventId, hmem, htx, a, ha, hid, rfl⟩, hkey, hval⟩
  · rintro ⟨k, v, hkv, hkey, hval⟩
    obtain ⟨event, eventId, hmem, htx, a, ha, hid, hkv⟩ := db.mem_valuesOf.1 hkv
    obtain ⟨rfl, rfl⟩ := Prod.mk.inj hkv
    exact ⟨event, eventId, hmem, htx, a, ha, ⟨hid, hkey⟩, hval⟩

/-- Attributes refer to events that are there, and events to results that are there. -/
structure Scoped : Prop where
  attributes : ∀ a ∈ db.attributes.rows, a.eventId < db.events.nextId
  events : ∀ event ∈ db.events.rows, ∀ txId, event.txId = some txId → txId < db.results.nextId

variable {db} {blockId t : Nat} {txId : Option Nat}

theorem Scoped.addEvent (hs : db.Scoped) (htx : ∀ t, txId = some t → t < db.results.nextId)
    (e : Event) : (addEvent blockId txId db e).Scoped where
  attributes a ha := by
    simp only [Database.addEvent, Table.rows_insertAll, List.mem_append] at ha
    simp only [Database.addEvent, Table.nextId, Table.size_insert]
    rcases ha with ha | ha
    · have := hs.attributes a ha
      simp only [Table.nextId] at this
      omega
    · obtain ⟨a', _, rfl⟩ := List.mem_map.1 ha
      simp only [Table.nextId]
      omega
  events event he t ht := by
    simp only [Database.addEvent, Table.rows_insert, List.mem_append, List.mem_singleton] at he
    rcases he with he | rfl
    · exact hs.events event he t ht
    · exact htx t ht

/-- A new event brings its own attributes to the result it belongs to. -/
theorem valuesOf_addEvent (hs : db.Scoped) (e : Event) :
    (addEvent blockId txId db e).valuesOf t =
      db.valuesOf t ++ if txId = some t then e.indexedValues else [] := by
  have hrows : ∀ a ∈ e.attributeRows db.events.nextId, a.eventId = db.events.nextId := by
    intro a ha
    obtain ⟨a', _, rfl⟩ := List.mem_map.1 ha
    rfl
  -- Attributes of earlier events: none of the new ones is among them.
  have hold : ∀ p ∈ db.events.numbered,
      (db.attributes.rows ++ e.attributeRows db.events.nextId).filter (·.eventId = p.2) =
        db.attributes.rows.filter (·.eventId = p.2) := by
    intro p hp
    rw [List.filter_append, List.append_right_eq_self, List.filter_eq_nil_iff]
    intro a ha
    have := db.events.lt_nextId_of_mem hp
    simp only [hrows a ha, decide_eq_true_eq]
    omega
  -- Attributes of the new event: none of the earlier ones is among them.
  have hnew : (db.attributes.rows ++ e.attributeRows db.events.nextId).filter
      (·.eventId = db.events.nextId) = e.attributeRows db.events.nextId := by
    rw [List.filter_append, List.filter_eq_nil_iff.2, List.nil_append, List.filter_eq_self]
    · exact fun a ha => decide_eq_true (hrows a ha)
    · intro a ha
      have := hs.attributes a ha
      simp only [decide_eq_true_eq]
      omega
  simp only [valuesOf, addEvent, Table.numbered_insert, Table.rows_insertAll, List.flatMap_append,
    List.flatMap_cons, List.flatMap_nil, List.append_nil, hnew]
  refine congrArg₂ (· ++ ·) ?_ ?_
  · exact List.flatMap_congr fun p hp => by rw [hold p hp]
  · split
    · simp [Event.attributeRows, Event.indexedValues]
    · rfl

theorem Scoped.addEvents (hs : db.Scoped) (htx : ∀ t, txId = some t → t < db.results.nextId)
    (es : List Event) : (db.addEvents blockId txId es).Scoped := by
  induction es generalizing db with
  | nil => exact hs
  | cons e es ih => exact ih (hs.addEvent htx e) htx

theorem valuesOf_addEvents (hs : db.Scoped) (htx : ∀ t, txId = some t → t < db.results.nextId)
    (es : List Event) : (db.addEvents blockId txId es).valuesOf t =
      db.valuesOf t ++ if txId = some t then es.flatMap Event.indexedValues else [] := by
  induction es generalizing db with
  | nil => simp [Database.addEvents]
  | cons e es ih =>
    rw [addEvents_cons, ih (hs.addEvent htx e) htx, valuesOf_addEvent hs]
    by_cases h : txId = some t <;> simp [h]

theorem scoped_empty : Database.empty.Scoped where
  attributes a ha := by simp [Database.empty] at ha
  events event he := by simp [Database.empty] at he

/-- A result that is yet to come has no attributes. -/
theorem Scoped.valuesOf_nextId (hs : db.Scoped) : db.valuesOf db.results.nextId = [] := by
  rw [List.eq_nil_iff_forall_not_mem]
  intro kv hkv
  obtain ⟨event, eventId, hmem, htx, _⟩ := db.mem_valuesOf.1 hkv
  exact absurd (hs.events event (List.fst_mem_of_mem_zipIdx hmem) _ htx) (Nat.lt_irrefl _)

theorem Scoped.insertBlock (hs : db.Scoped) (row : BlockRow) :
    Scoped { db with blocks := db.blocks.insert row } :=
  ⟨hs.attributes, hs.events⟩

theorem scoped_addBlock (hs : db.Scoped) (c : String) (b : BlockEvents) :
    (db.addBlock c b).Scoped :=
  (hs.insertBlock _).addEvents (by simp) _

theorem valuesOf_addBlock (hs : db.Scoped) (c : String) (b : BlockEvents) :
    (db.addBlock c b).valuesOf t = db.valuesOf t := by
  rw [addBlock, valuesOf_addEvents (hs.insertBlock _) (by simp)]
  simp [valuesOf]

theorem Scoped.insertResult (hs : db.Scoped) (row : ResultRow) :
    Scoped { db with results := db.results.insert row } where
  attributes := hs.attributes
  events event he t ht := by
    have := hs.events event he t ht
    simp only [Table.nextId, Table.size_insert] at this ⊢
    omega

theorem scoped_addResult (hs : db.Scoped) (r : TxResult) (hash : String) (blob : List UInt8) :
    (db.addResult blockId r hash blob).Scoped := by
  refine (hs.insertResult _).addEvents (fun t h => ?_) _
  obtain rfl := Option.some.inj h
  simp [Table.nextId]

theorem valuesOf_addResult (hs : db.Scoped) (r : TxResult) (hash : String) (blob : List UInt8) :
    (db.addResult blockId r hash blob).valuesOf t =
      db.valuesOf t ++ if t = db.results.nextId then
        (r.recordedEvents hash).flatMap Event.indexedValues else [] := by
  rw [addResult, valuesOf_addEvents (hs.insertResult _)]
  · by_cases h : t = db.results.nextId
    · simp [valuesOf, h]
    · simp [valuesOf, h, Ne.symm h]
  · intro t h
    obtain rfl := Option.some.inj h
    simp [Table.nextId]

/-- A numbered row shows a result of a chain: the row is that of the result, and the attributes
stored for its number are those of the result. -/
structure Shows (db : Database) (numbered : ResultRow × Nat) (cr : String × TxResult) : Prop where
  block : db.blockId? cr.2.height cr.1 = some numbered.1.blockId
  index : numbered.1.index = cr.2.index
  height : numbered.1.height = cr.2.height
  txHash : numbered.1.txHash = txHash cr.2.tx
  blob : numbered.1.blob = Wire.txResult.encode cr.2
  values : db.valuesOf numbered.2 = cr.2.indexedValues

theorem Scoped.add (hs : db.Scoped) (e : Entry) : (db.add e).Scoped := by
  cases e with
  | block c b => exact scoped_addBlock hs c b
  | result c r =>
    simp only [Database.add]
    split
    · exact scoped_addResult hs _ _ _
    · exact hs
  | request c h q =>
    simp only [Database.add]
    split
    · exact ⟨hs.attributes, hs.events⟩
    · exact hs

theorem valuesOf_add (hs : db.Scoped) (e : Entry) (ht : t < db.results.nextId) :
    (db.add e).valuesOf t = db.valuesOf t := by
  cases e with
  | block c b => exact valuesOf_addBlock hs c b
  | result c r =>
    simp only [Database.add]
    split
    · rw [valuesOf_addResult hs, if_neg (Nat.ne_of_lt ht), List.append_nil]
    · rfl
  | request c h q =>
    simp only [Database.add]
    split <;> rfl

theorem Shows.add (hs : db.Scoped) {numbered : ResultRow × Nat} {cr : String × TxResult}
    (h : db.Shows numbered cr) (hmem : numbered ∈ db.results.numbered) (e : Entry) :
    (db.add e).Shows numbered cr :=
  { h with
    block := blockId?_add e h.block
    values := by rw [valuesOf_add hs e (db.results.lt_nextId_of_mem hmem), h.values] }

end Database

namespace Journal

variable {j : Journal}

/-- The results of a journal, each with its chain. -/
def results (j : Journal) : List (String × TxResult) :=
  j.filterMap fun
    | .result c r => some (c, r)
    | _ => none

theorem results_append (j k : Journal) : Journal.results (j ++ k) = j.results ++ k.results :=
  List.filterMap_append

theorem mem_results {c : String} {r : TxResult} : (c, r) ∈ j.results ↔ .result c r ∈ j := by
  simp only [results, List.mem_filterMap]
  constructor
  · rintro ⟨e, he, h⟩
    cases e with
    | result c' r' =>
      obtain ⟨rfl, rfl⟩ := Prod.mk.inj (Option.some.inj h)
      exact he
    | block | request => simp at h
  · exact fun h => ⟨_, h, rfl⟩

theorem scoped_database (j : Journal) : j.database.Scoped := by
  induction j using List.reverseRecOn with
  | nil => exact Database.scoped_empty
  | append_singleton j e ih =>
    rw [database_snoc]
    exact ih.add e

/-- The numbered rows of results show the results of the journal, in their order. -/
theorem Valid.shows (hv : j.Valid) :
    List.Forall₂ j.database.Shows j.database.results.numbered j.results := by
  induction hv with
  | nil => exact .nil
  | @snoc j e hv ha ih =>
    have hs := scoped_database j
    -- The rows that are there keep showing their results, attributes included.
    have hold : List.Forall₂ (j.database.add e).Shows j.database.results.numbered j.results :=
      ((List.forall₂_and_left _ _).2 ⟨fun _ h => h, ih⟩).imp
        fun numbered cr ⟨hmem, h⟩ => h.add hs hmem e
    rw [database_snoc, results_append]
    cases e with
    | block c b => simpa [Database.add, Database.addBlock, results] using hold
    | request c h q =>
      simp only [results, List.filterMap_cons, List.filterMap_nil, List.append_nil]
      have hres : (j.database.add (.request c h q)).results = j.database.results := by
        simp only [Database.add]
        split <;> rfl
      rw [hres]
      exact hold
    | result c r =>
      obtain ⟨id, hid⟩ := ha.exists_blockId? rfl (by simp)
      have hadd : j.database.add (.result c r) =
          j.database.addResult id r (txHash r.tx) (Wire.txResult.encode r) := by
        simp [Database.add, hid]
      have hrows : (j.database.add (.result c r)).results =
          j.database.results.insert
            ⟨id, r.index, r.height, txHash r.tx, Wire.txResult.encode r⟩ := by
        rw [hadd]
        simp [Database.addResult]
      rw [hrows, Table.numbered_insert]
      refine List.rel_append hold (.cons ?_ .nil)
      refine ⟨Database.blockId?_add _ hid, rfl, rfl, rfl, rfl, ?_⟩
      rw [hadd, Database.valuesOf_addResult hs, hs.valuesOf_nextId, if_pos rfl, List.nil_append]
      rfl

end Journal
end TxIndex
