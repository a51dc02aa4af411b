import TxIndex.Height

/-! # Search plans

A query is compiled to a plan: the window of heights to look at, the conditions that attributes must
meet, and the greatest number of hits. A query that limits the height is not bound by an equality;
a query that says nothing about the height looks at everything up to the tip of the chain. -/
namespace TxIndex

/-- The heights that a search looks at. -/
inductive HeightWindow where
  | range (r : HeightRange)
  | exact (height : Int64)
  /-- Up to the greatest recorded height of the chain. -/
  | belowTip
deriving DecidableEq

namespace HeightWindow

/-- The lower limit as a comparison. -/
def lowerBound (b : Bound) : Comparison × Int64 := (if b.inclusive then .ge else .gt, b.value)

/-- The upper limit as a comparison. -/
def upperBound (b : Bound) : Comparison × Int64 := (if b.inclusive then .le else .lt, b.value)

/-- The comparisons that a height in the window meets, the tip of the chain being given. Without the
tip nothing can be said about a window up to it. -/
def bounds? (tip : Option Int64) : HeightWindow → Option (List (Comparison × Int64))
  | .range r => some ((r.lower.map lowerBound).toList ++ (r.upper.map upperBound).toList)
  | .exact height => some [(.eq, height)]
  | .belowTip => tip.map fun height => [(.le, height)]

end HeightWindow

/-- What an attribute must satisfy. -/
inductive Test where
  /-- It is there. -/
  | present
  /-- Its value contains a text. -/
  | contains (needle : String)
  /-- Its value compares with a text. -/
  | text (c : Comparison) (s : String)
  /-- Its value is a number and compares with a number. -/
  | number (c : Comparison) (n : Literal)
deriving DecidableEq

/-- What a condition asks of the attribute under its tag. -/
def Condition.test (c : Condition) : Test :=
  match c.op, c.arg with
  | .present, _ => .present
  | _, none => .present
  | .contains, some arg => .contains arg.raw
  | .compare o, some (.text s) => .text o s
  | .compare o, some (.number n) => .number o n

/-- A compiled query. -/
structure Plan where
  window : HeightWindow
  filters : List Condition
  limit : UInt16
deriving DecidableEq

namespace Plan

/-- The greatest number of hits of any search. -/
def ceiling : UInt16 := 5000

/-- The condition lacks the argument that its operator takes. -/
def lacksArgument (c : Condition) : Bool := c.op ≠ .present && c.arg.isNone

/-- The window of a range and a fixed height. -/
def windowOf (range : HeightRange) (fixed : Option Int64) : HeightWindow :=
  if range.isUnbounded then
    match fixed with
    | some height => .exact height
    | none => .belowTip
  else .range range

/-- The plan of a query that may have at most the lesser of two numbers of hits. -/
def compileWithin (q : Query) (limit ceiling : UInt16) : Except Failure Plan := do
  let (rest, fixed) ← Condition.splitFixed q.conditions
  let (filters, range) ← Condition.splitRange rest
  match filters.find? lacksArgument with
  | some c => .error (.query s!"missing value for {c.tag}")
  | none => return ⟨windowOf range fixed, filters, min limit ceiling⟩

/-- The plan of a query. -/
def compile (q : Query) (limit : UInt16) : Except Failure Plan := compileWithin q limit ceiling

/-- The search depends on the tip of the chain. -/
def needsTip (p : Plan) : Bool := p.window = .belowTip

end Plan
end TxIndex
