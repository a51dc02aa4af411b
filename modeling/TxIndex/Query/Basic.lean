import TxIndex.Decimal.Literal

/-! # Queries

A query is a conjunction of conditions. A condition names an attribute by its tag and says that the
attribute is there, that its value contains a text, or how its value compares with a text or a
number. -/
namespace TxIndex

/-- How a value stands to the argument. -/
inductive Comparison where
  | eq | lt | le | gt | ge
deriving DecidableEq

namespace Comparison

/-- The comparison as it is written. -/
def symbol : Comparison → String
  | .eq => "="
  | .lt => "<"
  | .le => "<="
  | .gt => ">"
  | .ge => ">="

/-- The comparison bounds the value on one side. -/
def isBound : Comparison → Bool
  | .eq => false
  | _ => true

/-- Two things in the given order satisfy the comparison. -/
def admits : Comparison → Ordering → Bool
  | .eq, o => o.isEq
  | .lt, o => o.isLT
  | .le, o => o.isLE
  | .gt, o => o.isGT
  | .ge, o => o.isGE

end Comparison

/-- What a condition asks of the attribute it names. -/
inductive Operator where
  | compare (c : Comparison)
  | contains
  | present
deriving DecidableEq

namespace Operator

/-- The operator as it is written. -/
def word : Operator → String
  | .compare c => c.symbol
  | .contains => "CONTAINS"
  | .present => "EXISTS"

/-- The comparison that the operator makes, if it makes one. -/
def comparison? : Operator → Option Comparison
  | .compare c => some c
  | _ => none

/-- The operator bounds the value on one side. -/
def isBound (op : Operator) : Bool := op.comparison?.any Comparison.isBound

end Operator

/-- What a condition compares with. -/
inductive Argument where
  | text (s : String)
  | number (n : Literal)
deriving DecidableEq

namespace Argument

/-- The argument without its kind: the text itself, or the number as it was written. -/
def raw : Argument → String
  | .text s => s
  | .number n => n.text

end Argument

/-- One condition of a query. The parser leaves the argument out only where the operator asks for
presence; conditions built otherwise may have any shape. -/
structure Condition where
  tag : String
  op : Operator
  arg : Option Argument
deriving DecidableEq

namespace Condition

/-- The value compares with the argument. -/
def compare (c : Comparison) (tag : String) (arg : Argument) : Condition := ⟨tag, .compare c, arg⟩

/-- The value contains a text. -/
def contains (tag needle : String) : Condition := ⟨tag, .contains, some (.text needle)⟩

/-- The attribute is there. -/
def present (tag : String) : Condition := ⟨tag, .present, none⟩

end Condition

/-- A conjunction of conditions. -/
structure Query where
  conditions : List Condition
deriving DecidableEq

namespace Query

/-- The query asks nothing. -/
def isEmpty (q : Query) : Bool := q.conditions.isEmpty

end Query
end TxIndex
