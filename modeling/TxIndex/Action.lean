import TxIndex.Failure

/-! # Actions

An action works on a state and gives a value or fails. What it did before it failed stays done, so
the new state is there in either case. -/
namespace TxIndex

/-- Work on a state of type `σ` that gives a value or fails. -/
abbrev Action (σ α : Type) := σ → Except Failure α × σ

namespace Action

variable {σ α : Type}

/-- An action for each item, in their order, up to the first that fails. -/
def each (act : α → Action σ Unit) : List α → Action σ Unit
  | [], s => (.ok (), s)
  | a :: as, s =>
    match act a s with
    | (.ok (), s) => each act as s
    | (.error failure, s) => (.error failure, s)

variable (act : α → Action σ Unit)

@[simp] theorem each_nil (s : σ) : each act [] s = (.ok (), s) := rfl

theorem each_cons_ok {a : α} {as : List α} {s t : σ} (h : act a s = (.ok (), t)) :
    each act (a :: as) s = each act as t := by
  simp [each, h]

theorem each_cons_error {a : α} {as : List α} {s t : σ} {failure : Failure}
    (h : act a s = (.error failure, t)) : each act (a :: as) s = (.error failure, t) := by
  simp [each, h]

end Action
end TxIndex
