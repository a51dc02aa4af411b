import Mathlib.Data.List.Nodup
import TxIndex.Encoding
import TxIndex.Store.Recording

/-! # Journals

A database grows by one block, one result or one request at a time, each with what belongs to it.
Its journal lists these entries in the order in which they were recorded. An entry stands at a
place: a block at a height of its chain, a result and a request at a position of such a block. No
place is taken twice, and a result or a request comes after its block (`Journal.Valid`).

The tables can be read off the journal, row numbers included (`Journal.database`). What a run does
to a database is therefore a matter of entries and their places, and statements about it need not
speak of row numbers at all. -/
namespace TxIndex

/-- What a unit of work adds to a database. -/
inductive Entry where
  | block (chainId : String) (b : BlockEvents)
  | result (chainId : String) (r : TxResult)
  | request (chainId : String) (height : Int64) (q : TxRequest)
deriving DecidableEq

/-- Where an entry stands. -/
inductive Place where
  | block (chainId : String) (height : Int64)
  | result (chainId : String) (height : Int64) (index : UInt32)
  | request (chainId : String) (height : Int64) (index : UInt32)
deriving DecidableEq

namespace Place

/-- The chain of a place. -/
def chainId : Place → String
  | .block chainId _ => chainId
  | .result chainId _ _ => chainId
  | .request chainId _ _ => chainId

/-- The place of the block in which a place lies. -/
def home : Place → Place
  | .block chainId height => .block chainId height
  | .result chainId height _ => .block chainId height
  | .request chainId height _ => .block chainId height

@[simp] theorem home_home (p : Place) : p.home.home = p.home := by cases p <;> rfl

@[simp] theorem chainId_home (p : Place) : p.home.chainId = p.chainId := by cases p <;> rfl

end Place

namespace Entry

/-- The place of an entry. -/
def place : Entry → Place
  | .block chainId b => .block chainId b.height
  | .result chainId r => .result chainId r.height r.index
  | .request chainId height q => .request chainId height q.index

/-- The chain of an entry. -/
def chainId (e : Entry) : String := e.place.chainId

@[simp] theorem place_block (c : String) (b : BlockEvents) :
    (Entry.block c b).place = .block c b.height := rfl

@[simp] theorem place_result (c : String) (r : TxResult) :
    (Entry.result c r).place = .result c r.height r.index := rfl

@[simp] theorem place_request (c : String) (h : Int64) (q : TxRequest) :
    (Entry.request c h q).place = .request c h q.index := rfl

end Entry

/-- Entries in the order in which they were recorded. -/
abbrev Journal := List Entry

namespace Journal

variable (j : Journal)

/-- A place is taken. -/
def Holds (p : Place) : Prop := ∃ e ∈ j, e.place = p

instance (p : Place) : Decidable (j.Holds p) := inferInstanceAs (Decidable (∃ e ∈ j, e.place = p))

/-- An entry may be added: its place is free, and its block is there unless it is a block. -/
def Accepts (e : Entry) : Prop :=
  ¬ j.Holds e.place ∧ (e.place.home = e.place ∨ j.Holds e.place.home)

instance (e : Entry) : Decidable (j.Accepts e) :=
  inferInstanceAs (Decidable (¬ j.Holds e.place ∧ _))

/-- The journal with an entry, if it may be added. -/
def record (e : Entry) : Journal := if j.Accepts e then j ++ [e] else j

/-- Every entry was accepted when it was added. -/
inductive Valid : Journal → Prop where
  | nil : Valid []
  | snoc {j : Journal} {e : Entry} (valid : Valid j) (accepts : j.Accepts e) : Valid (j ++ [e])

variable {j} {e : Entry} {p : Place}

@[simp] theorem not_holds_nil : ¬ Journal.Holds [] p := by simp [Holds]

theorem holds_append {k : Journal} : (j ++ k).Holds p ↔ j.Holds p ∨ k.Holds p := by
  simp only [Holds, List.mem_append]
  constructor
  · rintro ⟨e, he | he, hp⟩
    · exact .inl ⟨e, he, hp⟩
    · exact .inr ⟨e, he, hp⟩
  · rintro (⟨e, he, hp⟩ | ⟨e, he, hp⟩)
    · exact ⟨e, .inl he, hp⟩
    · exact ⟨e, .inr he, hp⟩

theorem holds_snoc : Journal.Holds (j ++ [e]) p ↔ j.Holds p ∨ e.place = p := by
  rw [holds_append]
  simp [Holds]

theorem record_of_accepts (h : j.Accepts e) : j.record e = j ++ [e] := if_pos h

theorem record_of_not_accepts (h : ¬ j.Accepts e) : j.record e = j := if_neg h

/-- What is recorded at a taken place is dropped. -/
theorem record_of_holds (h : j.Holds e.place) : j.record e = j :=
  record_of_not_accepts fun ha => ha.1 h

/-- Recording keeps what is there. -/
theorem prefix_record : j <+: j.record e := by
  unfold record
  split
  · exact List.prefix_append _ _
  · exact List.prefix_refl _

theorem mem_record_of_mem {e' : Entry} (h : e' ∈ j) : e' ∈ j.record e := prefix_record.subset h

theorem Holds.record (h : j.Holds p) : (j.record e).Holds p := by
  obtain ⟨e', he', hp⟩ := h
  exact ⟨e', mem_record_of_mem he', hp⟩

/-- Whatever is new in a journal after recording is the entry recorded. -/
theorem mem_record {e' : Entry} (h : e' ∈ j.record e) : e' ∈ j ∨ e' = e ∧ j.Accepts e := by
  unfold Journal.record at h
  split at h
  · rename_i ha
    rcases List.mem_append.1 h with h | h
    · exact .inl h
    · exact .inr ⟨List.mem_singleton.1 h, ha⟩
  · exact .inl h

/-- A block, or an entry whose block is recorded, has its place afterwards. -/
theorem holds_record (h : e.place.home = e.place ∨ j.Holds e.place.home) :
    (j.record e).Holds e.place := by
  by_cases hp : j.Holds e.place
  · exact hp.record
  · rw [record_of_accepts ⟨hp, h⟩, holds_snoc]
    exact .inr rfl

/-- After an entry is recorded its place is taken, and of the others those that were. -/
theorem holds_record_iff (h : e.place.home = e.place ∨ j.Holds e.place.home) {p : Place} :
    (j.record e).Holds p ↔ j.Holds p ∨ e.place = p := by
  constructor
  · rintro ⟨e', he', hp⟩
    rcases mem_record he' with he' | ⟨rfl, -⟩
    · exact .inl ⟨e', he', hp⟩
    · exact .inr hp
  · rintro (hp | rfl)
    · exact hp.record
    · exact holds_record h

theorem holds_record_block (c : String) (b : BlockEvents) :
    (j.record (.block c b)).Holds (.block c b.height) :=
  holds_record (.inl rfl)

theorem Valid.record (h : j.Valid) : (j.record e).Valid := by
  unfold Journal.record
  split
  · rename_i ha
    exact .snoc h ha
  · exact h

/-- No two entries share a place. -/
theorem Valid.nodup_places (h : j.Valid) : (j.map Entry.place).Nodup := by
  induction h with
  | nil => exact List.nodup_nil
  | @snoc j e _ ha ih =>
    rw [List.map_append, List.nodup_append]
    refine ⟨ih, List.nodup_singleton _, ?_⟩
    intro p hp q hq hpq
    obtain ⟨e', he', rfl⟩ := List.mem_map.1 hp
    rw [List.map_singleton, List.mem_singleton] at hq
    exact ha.1 ⟨e', he', hpq.trans hq⟩

/-- The block of every entry is recorded. -/
theorem Valid.holds_home (h : j.Valid) (he : e ∈ j) : j.Holds e.place.home := by
  induction h with
  | nil => simp at he
  | @snoc j e' _ ha ih =>
    rw [holds_snoc]
    rcases List.mem_append.1 he with he | he
    · exact .inl (ih he)
    · obtain rfl := List.mem_singleton.1 he
      exact ha.2.elim (fun hp => .inr hp.symm) .inl

/-! ## The tables of a journal -/

end Journal

namespace Database

/-- The database with one more entry. A result or a request without its block is left out. -/
def add (db : Database) : Entry → Database
  | .block c b => db.addBlock c b
  | .result c r =>
    match db.blockId? r.height c with
    | some blockId => db.addResult blockId r (txHash r.tx) (Wire.txResult.encode r)
    | none => db
  | .request c height q =>
    match db.blockId? height c with
    | some blockId => db.addRequest blockId q
    | none => db

end Database

namespace Journal

/-- The database that holds the entries of a journal and nothing else. -/
def database (j : Journal) : Database := j.foldl Database.add .empty

@[simp] theorem database_nil : Journal.database [] = .empty := rfl

@[simp] theorem database_snoc (j : Journal) (e : Entry) :
    Journal.database (j ++ [e]) = j.database.add e := by
  simp [database]

end Journal
end TxIndex
