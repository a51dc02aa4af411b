import TxIndex.Action
import TxIndex.Chain.Search
import TxIndex.Encoding
import TxIndex.Query.Basic

/-! # Modules

A module takes part in the indexing of finalized blocks by two hooks and may offer a search. The
registry holds modules of different names in the order of their registration and hands each block to
all of them, up to the first that fails. -/
namespace TxIndex

/-- A module that works on a state of type `σ`. -/
structure Module (σ : Type) where
  name : String
  /-- The kind of database that the module writes to. -/
  backend : String
  /-- The chain that the module writes for. -/
  chainId : String
  /-- How the module reads transactions. -/
  encoding : Encoding
  /-- Records what the module keeps of a block. -/
  insert : FinalizeRequest → FinalizeResponse → Action σ Unit
  /-- Publishes what the module has to say about a block. -/
  emit : FinalizeRequest → FinalizeResponse → Action σ Unit
  /-- Finds transactions. -/
  search : Query → UInt16 → σ → Except Failure SearchResult

namespace Module

variable {σ : Type}

/-- The hook of a module that does nothing. -/
def idle (_ : FinalizeRequest) (_ : FinalizeResponse) : Action σ Unit := fun s => (.ok (), s)

/-- The search of a module that offers none. -/
def noSearch (name backend : String) (_ : Query) (_ : UInt16) (_ : σ) :
    Except Failure SearchResult :=
  .error (.unsupported s!"{name} tx search" backend)

end Module

/-- Modules of different names in the order of their registration. -/
structure Registry (σ : Type) where
  modules : List (Module σ)
  distinct : (modules.map (·.name)).Nodup := by simp

namespace Registry

variable {σ : Type}

/-- The registry without modules. -/
def empty : Registry σ := ⟨[], List.nodup_nil⟩

variable (r : Registry σ)

/-- The module of a name. -/
def find? (name : String) : Option (Module σ) := r.modules.find? (·.name = name)

/-- The names of the modules in the order of their registration. -/
def names : List String := r.modules.map (·.name)

/-- The number of modules. -/
def size : Nat := r.modules.length

/-- There is no module. -/
def isEmpty : Bool := r.modules.isEmpty

theorem not_mem_names_of_find? {name : String} (h : r.find? name = none) : name ∉ r.names := by
  simp only [find?, List.find?_eq_none, decide_eq_true_eq] at h
  simpa [names] using h

theorem nodup_append {m : Module σ} (h : r.find? m.name = none) :
    ((r.modules ++ [m]).map (·.name)).Nodup := by
  rw [List.map_append, List.nodup_append]
  refine ⟨r.distinct, by simp, fun a ha b hb hab => ?_⟩
  simp only [List.map_cons, List.map_nil, List.mem_singleton] at hb
  exact r.not_mem_names_of_find? h (hb ▸ hab ▸ ha)

/-- The registry with one more module, whose name must be new. -/
def register (m : Module σ) : Except Failure (Registry σ) :=
  match h : r.find? m.name with
  | some _ => .error (.duplicateModule m.name)
  | none => .ok ⟨r.modules ++ [m], r.nodup_append h⟩

/-- Hands a finalized block to the modules for recording. -/
def dispatch (req : FinalizeRequest) (res : FinalizeResponse) : Action σ Unit :=
  Action.each (fun m => m.insert req res) r.modules

/-- Hands a finalized block to the modules for publishing. -/
def emit (req : FinalizeRequest) (res : FinalizeResponse) : Action σ Unit :=
  Action.each (fun m => m.emit req res) r.modules

/-- Searches through the module of a name. -/
def search (name : String) (q : Query) (limit : UInt16) (s : σ) : Except Failure SearchResult :=
  match r.find? name with
  | some m => m.search q limit s
  | none => .error (.unknownModule name)

end Registry
end TxIndex
