import Mathlib.Data.List.Basic
import TxIndex.Proofs.Module.Hooks

/-! # Runs of a registry

A registry is asked to register modules, to hand out blocks and to search, in any order. Whatever
was asked of it, it holds of each name the module that came first with it, in the order in which the
names came first; a later module of the name is refused and changes nothing. Blocks and searches
reach these modules and no others (`Registry.obeys_after`).

A registry is compared with the list of all modules that were offered to it. Adding a module to that
list changes the first ones of each name only if the name is new (`Registry.standing_snoc_of_mem`,
`Registry.standing_snoc_of_not_mem`), and that is also what registering does
(`Registry.Holds.perform`); the rest is an induction over the calls (`Registry.holds_after`). -/
namespace TxIndex
namespace Registry

variable {σ : Type}

/-! ## The first of each name -/

section Newcomers

variable {ms : List (Module σ)} {m : Module σ} {name : String}

/-- The names of modules, each where it comes first. -/
def nameOrder (ms : List (Module σ)) : List String := (ms.map (·.name)).eraseDups

/-- The module that comes first with a name. -/
def firstNamed? (ms : List (Module σ)) (name : String) : Option (Module σ) :=
  ms.find? (·.name = name)

/-- The first module of each name, in the order in which the names come first. -/
def standing (ms : List (Module σ)) : List (Module σ) := (nameOrder ms).filterMap (firstNamed? ms)

theorem mem_nameOrder : name ∈ nameOrder ms ↔ ∃ m, firstNamed? ms name = some m := by
  rw [nameOrder, List.mem_eraseDups, ← Option.isSome_iff_exists, firstNamed?, List.find?_isSome]
  simp

theorem not_mem_nameOrder : name ∉ nameOrder ms ↔ firstNamed? ms name = none := by
  rw [mem_nameOrder, ← Option.isSome_iff_exists, Option.not_isSome_iff_eq_none]

theorem firstNamed?_snoc :
    firstNamed? (ms ++ [m]) name =
      (firstNamed? ms name).or (if m.name = name then m else none) := by
  rw [firstNamed?, List.find?_append]
  by_cases h : m.name = name <;> simp [firstNamed?, h]

/-- A name that came before keeps its place. -/
theorem nameOrder_snoc_of_mem (h : m.name ∈ nameOrder ms) :
    nameOrder (ms ++ [m]) = nameOrder ms := by
  have hmem : m.name ∈ ms.map (·.name) := List.mem_eraseDups.1 h
  rw [nameOrder, List.map_append, List.eraseDups_append, List.map_singleton, List.removeAll,
    List.filter_cons_of_neg (by simpa using hmem), List.filter_nil, List.eraseDups_nil,
    List.append_nil, nameOrder]

/-- A name that came before keeps its module. -/
theorem firstNamed?_snoc_of_mem (h : m.name ∈ nameOrder ms) :
    firstNamed? (ms ++ [m]) name = firstNamed? ms name := by
  obtain ⟨first, hfirst⟩ := mem_nameOrder.1 h
  rw [firstNamed?_snoc]
  by_cases hname : m.name = name
  · rw [← hname, hfirst, Option.some_or]
  · rw [if_neg hname, Option.or_none]

theorem standing_snoc_of_mem (h : m.name ∈ nameOrder ms) : standing (ms ++ [m]) = standing ms := by
  rw [standing, nameOrder_snoc_of_mem h, standing]
  exact List.filterMap_congr fun _ _ => firstNamed?_snoc_of_mem h

/-- A new name comes last. -/
theorem nameOrder_snoc_of_not_mem (h : m.name ∉ nameOrder ms) :
    nameOrder (ms ++ [m]) = nameOrder ms ++ [m.name] := by
  have hmem : m.name ∉ ms.map (·.name) := fun hm => h (List.mem_eraseDups.2 hm)
  rw [nameOrder, List.map_append, List.eraseDups_append, List.map_singleton, List.removeAll,
    List.filter_cons_of_pos (by simpa using hmem), List.filter_nil, List.eraseDups_cons,
    List.filter_nil, List.eraseDups_nil, nameOrder]

theorem standing_snoc_of_not_mem (h : m.name ∉ nameOrder ms) :
    standing (ms ++ [m]) = standing ms ++ [m] := by
  have hothers : ∀ name ∈ nameOrder ms, firstNamed? (ms ++ [m]) name = firstNamed? ms name := by
    intro name hname
    obtain ⟨first, hfirst⟩ := mem_nameOrder.1 hname
    rw [firstNamed?_snoc, hfirst, Option.some_or]
  have hlast : firstNamed? (ms ++ [m]) m.name = some m := by
    rw [firstNamed?_snoc, not_mem_nameOrder.1 h, Option.none_or, if_pos rfl]
  rw [standing, nameOrder_snoc_of_not_mem h, List.filterMap_append, List.filterMap_congr hothers,
    List.filterMap_cons_some hlast, List.filterMap_nil, standing]

end Newcomers

/-! ## What is asked of a registry -/

/-- What is asked of a registry. -/
inductive Call (σ : Type) where
  | register (m : Module σ)
  | hand (hook : Hook) (req : FinalizeRequest) (res : FinalizeResponse)
  | search (name : String) (q : Query) (limit : UInt16)

/-- What a registry answers. -/
inductive Answer where
  | done (outcome : Except Failure Unit)
  | found (result : Except Failure SearchResult)

/-- The answer of a registry that works on a state, and both after the call. -/
def perform : Call σ → Registry σ × σ → Answer × Registry σ × σ
  | .register m, (r, s) =>
    match r.register m with
    | .ok r' => (.done (.ok ()), r', s)
    | .error failure => (.done (.error failure), r, s)
  | .hand hook req res, (r, s) =>
    let (outcome, t) := r.hand hook req res s
    (.done outcome, r, t)
  | .search name q limit, (r, s) => (.found (r.search name q limit s), r, s)

/-- The registry and the state after calls, where at first there is no module. -/
def after (s : σ) (calls : List (Call σ)) : Registry σ × σ :=
  calls.foldl (fun site call => (perform call site).2) (.empty, s)

/-- The module that a call is to register. -/
def Call.newcomer? : Call σ → Option (Module σ)
  | .register m => some m
  | .hand .. | .search .. => none

/-- The modules that were to be registered, in the order of the calls, whether they were or not. -/
def newcomers (calls : List (Call σ)) : List (Module σ) := calls.filterMap Call.newcomer?

theorem newcomers_snoc (calls : List (Call σ)) (call : Call σ) :
    newcomers (calls ++ [call]) = newcomers calls ++ call.newcomer?.toList := by
  rw [newcomers, List.filterMap_append]
  cases h : call.newcomer? <;> simp [newcomers, h]

theorem register_of_find?_some {r : Registry σ} {m m' : Module σ} (h : r.find? m.name = some m') :
    r.register m = .error (.duplicateModule m.name) := by
  unfold register
  split
  · rfl
  · rename_i hnone
    cases hnone.symm.trans h

theorem register_of_find?_none {r : Registry σ} {m : Module σ} (h : r.find? m.name = none) :
    ∃ r', r.register m = .ok r' ∧ r'.modules = r.modules ++ [m] := by
  unfold register
  split
  · rename_i hsome
    cases hsome.symm.trans h
  · exact ⟨_, rfl, rfl⟩

/-! ## What a registry holds -/

/-- Of the modules that came the registry holds the first of each name, in their order. -/
structure Holds (ms : List (Module σ)) (r : Registry σ) : Prop where
  names : r.names = nameOrder ms
  find? : ∀ name, r.find? name = firstNamed? ms name
  modules : r.modules = standing ms

theorem holds_empty : Holds (σ := σ) [] .empty := ⟨rfl, fun _ => rfl, rfl⟩

namespace Holds

variable {ms : List (Module σ)} {r : Registry σ} {m : Module σ} (h : Holds ms r) (s : σ)

include h in
/-- A module whose name came before is refused, and nothing changes. -/
theorem perform_register_of_mem (hm : m.name ∈ nameOrder ms) :
    perform (.register m) (r, s) = (.done (.error (.duplicateModule m.name)), r, s) := by
  obtain ⟨first, hfirst⟩ := mem_nameOrder.1 hm
  have hfind : r.find? m.name = some first := by rw [h.find?, hfirst]
  simp only [Registry.perform, register_of_find?_some hfind]

include h in
/-- A module whose name is new comes to stand behind the others. -/
theorem perform_register_of_not_mem (hm : m.name ∉ nameOrder ms) :
    ∃ r', perform (.register m) (r, s) = (.done (.ok ()), r', s) ∧
      r'.modules = r.modules ++ [m] := by
  have hfind : r.find? m.name = none := by rw [h.find?, not_mem_nameOrder.1 hm]
  obtain ⟨r', hregister, hmodules⟩ := register_of_find?_none hfind
  exact ⟨r', by simp only [Registry.perform, hregister], hmodules⟩

include h in
theorem snoc_of_mem (hm : m.name ∈ nameOrder ms) : Holds (ms ++ [m]) r where
  names := by rw [nameOrder_snoc_of_mem hm, h.names]
  find? name := by rw [firstNamed?_snoc_of_mem hm, h.find?]
  modules := by rw [standing_snoc_of_mem hm, h.modules]

include h in
theorem snoc_of_not_mem (hm : m.name ∉ nameOrder ms) {r' : Registry σ}
    (hmodules : r'.modules = r.modules ++ [m]) : Holds (ms ++ [m]) r' where
  names := by
    rw [Registry.names, hmodules, List.map_append, nameOrder_snoc_of_not_mem hm, ← h.names]
    rfl
  find? name := by
    rw [firstNamed?_snoc, ← h.find?, Registry.find?, hmodules, List.find?_append]
    by_cases hname : m.name = name <;> simp [Registry.find?, hname]
  modules := by rw [hmodules, standing_snoc_of_not_mem hm, h.modules]

end Holds

/-- Whatever is asked next, the registry holds what it should. -/
theorem Holds.perform {calls : List (Call σ)} {r : Registry σ} (h : Holds (newcomers calls) r)
    (s : σ) (call : Call σ) :
    Holds (newcomers (calls ++ [call])) (Registry.perform call (r, s)).2.1 := by
  rw [newcomers_snoc]
  cases call with
  | register m =>
    by_cases hm : m.name ∈ nameOrder (newcomers calls)
    · rw [h.perform_register_of_mem s hm]
      exact h.snoc_of_mem hm
    · obtain ⟨r', hperform, hmodules⟩ := h.perform_register_of_not_mem s hm
      rw [hperform]
      exact h.snoc_of_not_mem hm hmodules
  | hand | search =>
    rw [Call.newcomer?, Option.toList_none, List.append_nil]
    exact h

theorem Holds.foldl {before : List (Call σ)} {site : Registry σ × σ}
    (h : Holds (newcomers before) site.1) (calls : List (Call σ)) :
    Holds (newcomers (before ++ calls))
      (calls.foldl (fun site call => (Registry.perform call site).2) site).1 := by
  induction calls generalizing before site with
  | nil => simpa using h
  | cons call calls ih => simpa using ih (h.perform site.2 call)

theorem holds_after (s : σ) (calls : List (Call σ)) :
    Holds (newcomers calls) (after s calls).1 := by
  have hstart : Holds (newcomers []) ((.empty, s) : Registry σ × σ).1 := holds_empty
  exact hstart.foldl calls

/-! ## How a registry answers -/

theorem search_of_find?_some {r : Registry σ} {name : String} {m : Module σ}
    (h : r.find? name = some m) (q : Query) (limit : UInt16) (s : σ) :
    r.search name q limit s = m.search q limit s := by
  rw [search, h]

theorem search_of_find?_none {r : Registry σ} {name : String} (h : r.find? name = none) (q : Query)
    (limit : UInt16) (s : σ) : r.search name q limit s = .error (.unknownModule name) := by
  rw [search, h]

/-- What holds of a registry and its state after calls, and of whatever is asked next. -/
structure Obeys (calls : List (Call σ)) (r : Registry σ) (s : σ) : Prop where
  /-- The names are those that came, each once and where it came first. -/
  names : r.names = ((newcomers calls).map (·.name)).eraseDups
  size : r.size = r.names.length
  isEmpty : r.isEmpty = r.names.isEmpty
  /-- A name leads to the module that came first with it. -/
  find? : ∀ name, r.find? name = (newcomers calls).find? (·.name = name)
  /-- A module is refused, and nothing changes, exactly if its name came before. -/
  register : ∀ m : Module σ,
    (m.name ∈ (newcomers calls).map (·.name) ∧
      perform (.register m) (r, s) = (.done (.error (.duplicateModule m.name)), r, s)) ∨
    (m.name ∉ (newcomers calls).map (·.name) ∧
      ∃ r', perform (.register m) (r, s) = (.done (.ok ()), r', s) ∧ r'.modules = r.modules ++ [m])
  /-- A block is handed to the first module of each name, in order and up to the first that fails.
  No other hook is called, and none twice. -/
  hand : ∀ hook req res log, ∃ answer t made,
    perform (.hand hook req res) (r, s) = (.done answer, r, t) ∧
      r.observed.hand hook req res (s, log) = (answer, t, log ++ made) ∧
      HandedOut hook req res (standing (newcomers calls)) made answer ∧
      (made.map (·.callee.name)).Nodup
  /-- A search is that of the first module of the name, and no module answers for another name. -/
  search : ∀ name q limit,
    (∃ m, (newcomers calls).find? (·.name = name) = some m ∧
      perform (.search name q limit) (r, s) = (.found (m.search q limit s), r, s)) ∨
    (name ∉ (newcomers calls).map (·.name) ∧
      perform (.search name q limit) (r, s) = (.found (.error (.unknownModule name)), r, s))
  /-- The module is unknown exactly if the name never came, unless a module says so itself. -/
  unknown : ∀ name q limit,
    (∀ m ∈ newcomers calls, m.search q limit s ≠ .error (.unknownModule name)) →
    (r.search name q limit s = .error (.unknownModule name) ↔
      name ∉ (newcomers calls).map (·.name))

/-- **Whatever was asked of a registry**, it holds the first module of each name, in the order in
which the names came, and hands blocks and searches to these. -/
theorem obeys_after (s : σ) (calls : List (Call σ)) :
    Obeys calls (after s calls).1 (after s calls).2 := by
  have h := holds_after s calls
  generalize after s calls = site at h
  obtain ⟨r, t⟩ := site
  replace h : Holds (newcomers calls) r := h
  have hmem : ∀ name, name ∈ (newcomers calls).map (·.name) ↔ name ∈ nameOrder (newcomers calls) :=
    fun name => List.mem_eraseDups.symm
  constructor
  case names => exact h.names
  case size => rw [size, names, List.length_map]
  case isEmpty => rw [isEmpty, names, List.isEmpty_map]
  case find? => exact h.find?
  case register =>
    intro m
    rw [hmem]
    by_cases hm : m.name ∈ nameOrder (newcomers calls)
    · exact .inl ⟨hm, h.perform_register_of_mem t hm⟩
    · exact .inr ⟨hm, h.perform_register_of_not_mem t hm⟩
  case hand =>
    intro hook req res log
    obtain ⟨answer, u, made, hplain, hobserved, hmade⟩ := r.hand_observed hook req res t log
    refine ⟨answer, u, made, ?_, hobserved, h.modules ▸ hmade, hmade.nodup r.distinct⟩
    simp only [perform, hplain]
  case search =>
    intro name q limit
    rw [hmem]
    cases hfirst : firstNamed? (newcomers calls) name with
    | some m =>
      have hfind : r.find? name = some m := by rw [h.find?, hfirst]
      exact .inl ⟨m, hfirst, by simp only [perform, search_of_find?_some hfind]⟩
    | none =>
      have hfind : r.find? name = none := by rw [h.find?, hfirst]
      exact .inr ⟨not_mem_nameOrder.2 hfirst, by simp only [perform, search_of_find?_none hfind]⟩
  case unknown =>
    intro name q limit hown
    rw [hmem, not_mem_nameOrder, ← h.find?]
    cases hfind : r.find? name with
    | some m =>
      have hm : m ∈ newcomers calls := List.mem_of_find?_eq_some ((h.find? name).symm.trans hfind)
      rw [search_of_find?_some hfind]
      exact ⟨fun hsearch => absurd hsearch (hown m hm), fun hnone => absurd hnone (Option.some_ne_none m)⟩
    | none => exact ⟨fun _ => rfl, fun _ => search_of_find?_none hfind q limit t⟩

end Registry
end TxIndex
