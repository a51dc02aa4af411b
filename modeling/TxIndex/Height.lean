import TxIndex.Chain.Event
import TxIndex.Query.Printer

/-! # Heights in queries

Conditions on the height of a transaction are taken out of a query before the others are matched
against attributes. An equality fixes the height, and of several the last one counts. The other
comparisons limit the height on one side; together they leave a range, of which each side is the
tightest limit given. -/
namespace TxIndex

/-- A limit of heights. -/
structure Bound where
  value : Int64
  /-- The limit itself is allowed. -/
  inclusive : Bool
deriving DecidableEq

/-- The heights between two limits, of which either may be missing. -/
structure HeightRange where
  lower : Option Bound
  upper : Option Bound
deriving DecidableEq

/-- A limit on one side. -/
inductive HeightLimit where
  | lower (b : Bound)
  | upper (b : Bound)
deriving DecidableEq

namespace HeightRange

/-- All heights. -/
def all : HeightRange := ⟨none, none⟩

/-- Neither side is limited. -/
def isUnbounded (r : HeightRange) : Bool := r.lower.isNone && r.upper.isNone

/-- The range with a lower limit, if that is tighter than the present one. Of two limits of the same
value the one that excludes it is tighter. -/
def tightenLower (r : HeightRange) (b : Bound) : HeightRange :=
  match r.lower with
  | none => { r with lower := some b }
  | some cur =>
    if cur.value < b.value ∨ (b.value = cur.value ∧ b.inclusive = false) then
      { r with lower := some b }
    else r

/-- The range with an upper limit, if that is tighter than the present one. -/
def tightenUpper (r : HeightRange) (b : Bound) : HeightRange :=
  match r.upper with
  | none => { r with upper := some b }
  | some cur =>
    if b.value < cur.value ∨ (b.value = cur.value ∧ b.inclusive = false) then
      { r with upper := some b }
    else r

/-- The range with one more limit. -/
def tighten (r : HeightRange) : HeightLimit → HeightRange
  | .lower b => r.tightenLower b
  | .upper b => r.tightenUpper b

end HeightRange

/-- The limit that a comparison sets, if it sets one. -/
def Operator.limit? : Operator → Option (Int64 → HeightLimit)
  | .compare .lt => some fun value => .upper ⟨value, false⟩
  | .compare .le => some fun value => .upper ⟨value, true⟩
  | .compare .gt => some fun value => .lower ⟨value, false⟩
  | .compare .ge => some fun value => .lower ⟨value, true⟩
  | _ => none

namespace Condition

/-- The height that the condition compares with. A text must be a decimal literal. -/
def height (c : Condition) : Except Failure Int64 :=
  match c.arg with
  | some (.number n) => n.toInt64
  | some (.text s) =>
    match Literal.parse? s with
    | some n => n.toInt64
    | none => .error (.heightNotIntegral s)
  | none => .error (.heightNotIntegral c.print)

/-- The condition fixes the height. -/
def fixesHeight (c : Condition) : Bool := c.tag = txHeightKey && c.op = .compare .eq

/-- The limit that the condition sets to the height, if it sets one. -/
def heightLimit? (c : Condition) : Option (Int64 → HeightLimit) :=
  if c.tag = txHeightKey then c.op.limit? else none

/-- The conditions that do not fix the height, and the height that the last of the others fixes. -/
def splitFixed : List Condition → Except Failure (List Condition × Option Int64)
  | [] => .ok ([], none)
  | c :: cs =>
    if c.fixesHeight then do
      let value ← c.height
      let (rest, last) ← splitFixed cs
      return (rest, last.or (some value))
    else do
      let (rest, last) ← splitFixed cs
      return (c :: rest, last)

/-- The conditions that do not limit the height, and the limits that the others set. -/
def splitLimits : List Condition → Except Failure (List Condition × List HeightLimit)
  | [] => .ok ([], [])
  | c :: cs =>
    match c.heightLimit? with
    | some limit => do
      let value ← c.height
      let (rest, limits) ← splitLimits cs
      return (rest, limit value :: limits)
    | none => do
      let (rest, limits) ← splitLimits cs
      return (c :: rest, limits)

/-- The conditions that do not limit the height, and the range that the others leave. -/
def splitRange (cs : List Condition) : Except Failure (List Condition × HeightRange) := do
  let (rest, limits) ← splitLimits cs
  return (rest, limits.foldl HeightRange.tighten .all)

end Condition
end TxIndex
