import Mathlib.Data.List.Forall2
import TxIndex.Sql.Statement

/-! # The shape of a plan

Two plans are of one shape if they ask in the same way: within the same limit, in windows limited on
the same sides, by the same operators, of arguments of the same kinds. What they ask about may
differ in everything: tags, texts, numbers, heights, the tip of the chain. The text of a statement
is decided by the shape alone (`Plan.render_sameShape`), so nothing of what a query asks about gets
into it.

The proof goes through the statement from the inside out, from the predicate of a condition to its
subquery, to the row of all subqueries, and to the window. At each level the same pieces are written
and arguments of the same kinds are taken, whatever their values. -/
namespace TxIndex

/-- Whether an argument is a text or a number. -/
inductive ArgumentKind where
  | text
  | number
deriving DecidableEq

/-- The kind of an argument. -/
def Argument.kind : Argument → ArgumentKind
  | .text _ => .text
  | .number _ => .number

/-- Two conditions have the same operator and arguments of the same kind, or both have none. -/
structure Condition.SameShape (c c' : Condition) : Prop where
  op : c.op = c'.op
  kind : c.arg.map Argument.kind = c'.arg.map Argument.kind

/-- Two windows are limited on the same sides, by limits that are both inclusive or both exclusive,
or both are a fixed height, or both go up to the tip. -/
def HeightWindow.SameShape : HeightWindow → HeightWindow → Prop
  | .range r, .range r' =>
    r.lower.map Bound.inclusive = r'.lower.map Bound.inclusive ∧
      r.upper.map Bound.inclusive = r'.upper.map Bound.inclusive
  | .exact _, .exact _ => True
  | .belowTip, .belowTip => True
  | _, _ => False

/-- Two plans ask in the same way. -/
structure Plan.SameShape (p p' : Plan) : Prop where
  limit : p.limit = p'.limit
  window : p.window.SameShape p'.window
  filters : List.Forall₂ Condition.SameShape p.filters p'.filters

/-- Two tests are alike but for the texts and numbers in them. -/
inductive Test.SameShape : Test → Test → Prop where
  | present : SameShape .present .present
  | contains (s s' : String) : SameShape (.contains s) (.contains s')
  | text (c : Comparison) (s s' : String) : SameShape (.text c s) (.text c s')
  | number (c : Comparison) (n n' : Literal) : SameShape (.number c n) (.number c n')

/-- Two arguments of statements are both numbers or both texts. -/
inductive Sql.Arg.SameKind : Sql.Arg → Sql.Arg → Prop where
  | int (n n' : Int64) : SameKind (.int n) (.int n')
  | text (s s' : String) : SameKind (.text s) (.text s')

variable {c c' : Condition} {t t' : Test} {cs cs' : List Condition}

theorem Condition.SameShape.test (h : c.SameShape c') : c.test.SameShape c'.test := by
  rcases c with ⟨tag, op, arg⟩
  rcases c' with ⟨tag', op', arg'⟩
  obtain ⟨hop, hkind⟩ := h
  obtain rfl : op = op' := hop
  cases op with
  | present => exact .present
  | contains =>
    match arg, arg', hkind with
    | none, none, _ => exact .present
    | some a, some a', _ => exact .contains _ _
  | compare o =>
    match arg, arg', hkind with
    | none, none, _ => exact .present
    | some (.text s), some (.text s'), _ => exact .text o s s'
    | some (.number n), some (.number n'), _ => exact .number o n n'

namespace Sql

theorem predicate_sameShape (h : t.SameShape t') (d : Dialect) (n : Nat) :
    predicate d n t = predicate d n t' := by
  cases h <;> rfl

theorem testArgs_sameShape (h : t.SameShape t') :
    List.Forall₂ Arg.SameKind (testArgs t) (testArgs t') := by
  cases h with
  | present => exact .nil
  | contains s s' => exact .cons (.text s s') .nil
  | text c s s' => exact .cons (.text s s') .nil
  | number c n n' => exact .cons (.text n.text n'.text) .nil

theorem conditionArgs_sameShape (h : c.SameShape c') :
    List.Forall₂ Arg.SameKind (conditionArgs c) (conditionArgs c') :=
  .cons (.text c.tag c'.tag) (testArgs_sameShape h.test)

theorem semiJoin_sameShape (h : c.SameShape c') (d : Dialect) (n : Nat) :
    semiJoin d n c = semiJoin d n c' := by
  unfold semiJoin
  rw [predicate_sameShape h.test d (n + 1)]

/-- Conditions alike take equally many placeholders, so those behind them are numbered alike. -/
theorem semiJoins_sameShape (h : List.Forall₂ Condition.SameShape cs cs') (d : Dialect) (n : Nat) :
    semiJoins d n cs = semiJoins d n cs' := by
  induction h generalizing n with
  | nil => rfl
  | cons h _ ih =>
    rw [semiJoins, semiJoins, semiJoin_sameShape h, (conditionArgs_sameShape h).length_eq, ih]

theorem filterArgs_sameShape (h : List.Forall₂ Condition.SameShape cs cs') :
    List.Forall₂ Arg.SameKind (cs.flatMap conditionArgs) (cs'.flatMap conditionArgs) :=
  List.rel_flatMap h fun _ _ => conditionArgs_sameShape

/-- The clauses of a window show its comparisons, and no height. -/
theorem heightClauses_congr {bounds bounds' : List (Comparison × Int64)}
    (h : bounds.map Prod.fst = bounds'.map Prod.fst) (n : Nat) :
    heightClauses n bounds = heightClauses n bounds' := by
  induction bounds generalizing bounds' n with
  | nil => rw [List.map_eq_nil_iff.1 h.symm]
  | cons b bounds ih =>
    obtain ⟨b', rest, rfl, hb, hrest⟩ := List.map_eq_cons_iff.1 h.symm
    rw [heightClauses, heightClauses, hb, ih hrest.symm]

end Sql

namespace HeightWindow

/-- The comparison of a limit shows whether it is inclusive. -/
theorem map_fst_toList {lower lower' : Option Bound} {side : Bound → Comparison × Int64}
    (hside : ∀ b b' : Bound, b.inclusive = b'.inclusive → (side b).1 = (side b').1)
    (h : lower.map Bound.inclusive = lower'.map Bound.inclusive) :
    (lower.map side).toList.map Prod.fst = (lower'.map side).toList.map Prod.fst := by
  cases lower with
  | none => rw [Option.map_eq_none_iff.1 h.symm]
  | some b =>
    obtain ⟨b', rfl, hb⟩ := Option.map_eq_some_iff.1 h.symm
    simp [hside b b' hb.symm]

variable {w w' : HeightWindow} {tip tip' : Option Int64}

/-- Windows of one shape have the same comparisons, the tip being given where it is needed. -/
theorem SameShape.bounds? (h : w.SameShape w')
    (htip : w = .belowTip → tip.isSome = true ∧ tip'.isSome = true) :
    ∃ bounds bounds', w.bounds? tip = some bounds ∧ w'.bounds? tip' = some bounds' ∧
      bounds.map Prod.fst = bounds'.map Prod.fst := by
  match w, w', h with
  | .range r, .range r', ⟨hlower, hupper⟩ =>
    refine ⟨_, _, rfl, rfl, ?_⟩
    rw [List.map_append, List.map_append,
      map_fst_toList (fun b b' hb => by simp [lowerBound, hb]) hlower,
      map_fst_toList (fun b b' hb => by simp [upperBound, hb]) hupper]
  | .exact height, .exact height', _ => exact ⟨_, _, rfl, rfl, rfl⟩
  | .belowTip, .belowTip, _ =>
    obtain ⟨height, rfl⟩ := Option.isSome_iff_exists.1 (htip rfl).1
    obtain ⟨height', rfl⟩ := Option.isSome_iff_exists.1 (htip rfl).2
    exact ⟨_, _, rfl, rfl, rfl⟩

end HeightWindow

namespace Plan

open Sql

/-- **The text of a statement is decided by the shape of its plan.** In either dialect two plans of
one shape are rendered as the same text, whatever their tags, texts, numbers and heights, and
whatever tip they are given. Only the arguments differ, and these are of the same kinds, one by
one. -/
theorem render_sameShape {p p' : Plan} (h : p.SameShape p') (d : Dialect)
    {tip tip' : Option Int64}
    (htip : p.needsTip = true → tip.isSome = true ∧ tip'.isSome = true) :
    ∃ text args args', p.render d tip = .ok ⟨text, args⟩ ∧ p'.render d tip' = .ok ⟨text, args'⟩ ∧
      List.Forall₂ Arg.SameKind args args' := by
  obtain ⟨bounds, bounds', hbounds, hbounds', hsides⟩ :=
    h.window.bounds? fun hw => htip (decide_eq_true hw)
  have hlength : bounds.length = bounds'.length := by
    simpa using congrArg List.length hsides
  have hheights : List.Forall₂ Arg.SameKind (bounds.map fun b => Arg.int b.2)
      (bounds'.map fun b => Arg.int b.2) := by
    refine List.forall₂_iff_get.2 ⟨by simpa using hlength, fun i _ _ => ?_⟩
    simpa using Arg.SameKind.int _ _
  refine ⟨_, _, _, by rw [render, hbounds], ?_,
    List.rel_append hheights (filterArgs_sameShape h.filters)⟩
  rw [render, hbounds']
  simp only [heightClauses_congr hsides, hlength, semiJoins_sameShape h.filters, h.limit]

/-- A plan whose tags, texts and numbers are as given. -/
def asking (tag text number : String) (height : Int64) : Plan :=
  ⟨.range ⟨some ⟨height, true⟩, none⟩,
    [.compare .eq tag (.text text), .compare .gt tag (.number ⟨number⟩), .present tag], 10⟩

/-- The general statement at two plans, one of which asks about pieces of statements. -/
theorem render_sameShape_of_quotes :
    (asking "account.owner" "Ivan" "5" 1).SameShape
        (asking "'; DROP TABLE events; --" "$1 OR 1 = 1" "0) UNION SELECT" 7) ∧
      ∃ text args args', (asking "account.owner" "Ivan" "5" 1).render .sqlite none =
          .ok ⟨text, args⟩ ∧
        (asking "'; DROP TABLE events; --" "$1 OR 1 = 1" "0) UNION SELECT" 7).render .sqlite
          (some 9) = .ok ⟨text, args'⟩ ∧ List.Forall₂ Arg.SameKind args args' := by
  have h : (asking "account.owner" "Ivan" "5" 1).SameShape
      (asking "'; DROP TABLE events; --" "$1 OR 1 = 1" "0) UNION SELECT" 7) :=
    ⟨rfl, ⟨rfl, rfl⟩, .cons ⟨rfl, rfl⟩ (.cons ⟨rfl, rfl⟩ (.cons ⟨rfl, rfl⟩ .nil))⟩
  exact ⟨h, render_sameShape h .sqlite (by simp [asking, needsTip])⟩

end Plan
end TxIndex
