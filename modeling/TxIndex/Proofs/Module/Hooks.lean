import TxIndex.Module.Registry

/-! # Calls of hooks

A module is observed by noting every call of its hooks, with the block and with how the call ended;
otherwise it works as before. What a registry does is then told by its observed modules: a block is
handed to the hooks of the modules at the front, once each and in their order, up to the first that
fails, and the registry answers as that one did (`Registry.hand_observed`).

What was handed out is described by three cases, one for no module, one for a module that fails and
one for a module that succeeds and those behind it (`HandedOut.nil`, `HandedOut.failed`,
`HandedOut.cons`), and the repetition over the modules is one of them at each step. -/
namespace TxIndex

variable {σ : Type}

/-- The hooks of a module. -/
inductive Hook where
  | insert
  | emit
deriving DecidableEq

/-- The hook of a kind, called for a block. -/
def Module.hook (hook : Hook) (req : FinalizeRequest) (res : FinalizeResponse) (m : Module σ) :
    Action σ Unit :=
  match hook with
  | .insert => m.insert req res
  | .emit => m.emit req res

/-- A call of a hook, and how it ended. -/
structure HookCall (σ : Type) where
  callee : Module σ
  hook : Hook
  req : FinalizeRequest
  res : FinalizeResponse
  outcome : Except Failure Unit

/-- A state, and the calls that were made so far. -/
abbrev Observed (σ : Type) := σ × List (HookCall σ)

namespace Module

/-- The hook of a kind, each call of which is noted. -/
def observedHook (m : Module σ) (hook : Hook) (req : FinalizeRequest) (res : FinalizeResponse) :
    Action (Observed σ) Unit := fun s =>
  let (outcome, t) := m.hook hook req res s.1
  (outcome, t, s.2 ++ [⟨m, hook, req, res, outcome⟩])

/-- The module, with the calls of its hooks noted. -/
def observed (m : Module σ) : Module (Observed σ) where
  name := m.name
  backend := m.backend
  chainId := m.chainId
  encoding := m.encoding
  insert := m.observedHook .insert
  emit := m.observedHook .emit
  search q limit s := m.search q limit s.1

theorem hook_observed (m : Module σ) (hook : Hook) (req : FinalizeRequest)
    (res : FinalizeResponse) : m.observed.hook hook req res = m.observedHook hook req res := by
  cases hook <;> rfl

theorem observedHook_eq {m : Module σ} {hook : Hook} {req : FinalizeRequest}
    {res : FinalizeResponse} {s t : σ} {outcome : Except Failure Unit}
    (h : m.hook hook req res s = (outcome, t)) (log : List (HookCall σ)) :
    m.observed.hook hook req res (s, log) =
      (outcome, t, log ++ [⟨m, hook, req, res, outcome⟩]) := by
  rw [hook_observed, observedHook, h]

end Module

/-- Calls of hooks by which a block is handed out to modules, and the answer that is given. -/
structure HandedOut (hook : Hook) (req : FinalizeRequest) (res : FinalizeResponse)
    (ms : List (Module σ)) (calls : List (HookCall σ)) (answer : Except Failure Unit) : Prop where
  /-- All calls are of one kind and for one block. -/
  uniform : ∀ call ∈ calls, call.hook = hook ∧ call.req = req ∧ call.res = res
  /-- The modules at the front are called, once each and in their order. -/
  front : calls.map (·.callee) <+: ms
  /-- Either all modules are called and none fails, or the last that is called is the first that
  fails, and its failure is the answer. -/
  ends : (answer = .ok () ∧ calls.map (·.callee) = ms ∧ ∀ call ∈ calls, call.outcome = .ok ()) ∨
    ∃ before last failure, calls = before ++ [last] ∧ (∀ call ∈ before, call.outcome = .ok ()) ∧
      last.outcome = .error failure ∧ answer = .error failure

namespace HandedOut

variable {hook : Hook} {req : FinalizeRequest} {res : FinalizeResponse} {m : Module σ}
  {ms : List (Module σ)} {calls : List (HookCall σ)} {answer : Except Failure Unit}

theorem nil : HandedOut (σ := σ) hook req res [] [] (.ok ()) :=
  ⟨by simp, List.prefix_rfl, .inl ⟨rfl, rfl, by simp⟩⟩

/-- The first module fails. -/
theorem failed (failure : Failure) :
    HandedOut hook req res (m :: ms) [⟨m, hook, req, res, .error failure⟩] (.error failure) where
  uniform := by simp
  front := ⟨ms, rfl⟩
  ends := .inr ⟨[], _, failure, rfl, by simp, rfl, rfl⟩

/-- The first module does not fail, and the block is handed out to the others. -/
theorem cons (h : HandedOut hook req res ms calls answer) :
    HandedOut hook req res (m :: ms) (⟨m, hook, req, res, .ok ()⟩ :: calls) answer where
  uniform := List.forall_mem_cons.2 ⟨⟨rfl, rfl, rfl⟩, h.uniform⟩
  front := List.cons_prefix_cons.2 ⟨rfl, h.front⟩
  ends := by
    rcases h.ends with ⟨hanswer, hall, hok⟩ | ⟨before, last, failure, rfl, hok, hlast, hanswer⟩
    · refine .inl ⟨hanswer, ?_, List.forall_mem_cons.2 ⟨rfl, hok⟩⟩
      rw [List.map_cons, hall]
    · exact .inr ⟨_ :: before, last, failure, rfl, List.forall_mem_cons.2 ⟨rfl, hok⟩, hlast,
        hanswer⟩

/-- No module is called twice. -/
theorem nodup (h : HandedOut hook req res ms calls answer)
    (hms : (ms.map (·.name)).Nodup) : (calls.map (·.callee.name)).Nodup := by
  have hfront := h.front.map (·.name)
  rw [List.map_map] at hfront
  exact hms.sublist hfront.sublist

end HandedOut

namespace Registry

variable (r : Registry σ)

/-- Hands a finalized block to the hooks of a kind. -/
def hand : Hook → FinalizeRequest → FinalizeResponse → Action σ Unit
  | .insert => r.dispatch
  | .emit => r.emit

/-- The registry with its modules observed. -/
def observed : Registry (Observed σ) where
  modules := r.modules.map Module.observed
  distinct := by
    rw [List.map_map]
    exact r.distinct

theorem hand_eq (hook : Hook) (req : FinalizeRequest) (res : FinalizeResponse) :
    r.hand hook req res = Action.each (Module.hook hook req res) r.modules := by
  cases hook <;> rfl

theorem each_observed (hook : Hook) (req : FinalizeRequest) (res : FinalizeResponse)
    (ms : List (Module σ)) (s : σ) (log : List (HookCall σ)) :
    ∃ answer t calls, Action.each (Module.hook hook req res) ms s = (answer, t) ∧
      Action.each (Module.hook hook req res) (ms.map Module.observed) (s, log) =
        (answer, t, log ++ calls) ∧
      HandedOut hook req res ms calls answer := by
  induction ms generalizing s log with
  | nil => exact ⟨.ok (), s, [], rfl, by rw [List.append_nil]; rfl, .nil⟩
  | cons m ms ih =>
    rcases hm : m.hook hook req res s with ⟨outcome, t⟩
    have hobserved := Module.observedHook_eq hm log
    cases outcome with
    | error failure =>
      exact ⟨.error failure, t, _, Action.each_cons_error _ hm,
        Action.each_cons_error _ hobserved, .failed failure⟩
    | ok _ =>
      obtain ⟨answer, u, calls, hplain, hcalls, hhanded⟩ :=
        ih t (log ++ [⟨m, hook, req, res, .ok ()⟩])
      refine ⟨answer, u, _ :: calls, ?_, ?_, hhanded.cons⟩
      · rw [Action.each_cons_ok _ hm, hplain]
      · rw [List.map_cons, Action.each_cons_ok _ hobserved, hcalls, List.append_assoc,
          List.singleton_append]

/-- **A block is handed out to the modules in order, up to the first that fails.** Observing the
modules changes neither the answer nor the state. -/
theorem hand_observed (hook : Hook) (req : FinalizeRequest) (res : FinalizeResponse) (s : σ)
    (log : List (HookCall σ)) :
    ∃ answer t calls, r.hand hook req res s = (answer, t) ∧
      r.observed.hand hook req res (s, log) = (answer, t, log ++ calls) ∧
      HandedOut hook req res r.modules calls answer := by
  rw [hand_eq, hand_eq]
  exact each_observed hook req res r.modules s log

end Registry
end TxIndex
