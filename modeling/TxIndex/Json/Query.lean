import TxIndex.Json.Form
import TxIndex.Query.Basic

/-! # JSON forms of queries

An operator is its name, or an object with the name as its one key and null under it. An argument is
an object whose one key tells the kind. The literal of a number is any string. -/
namespace TxIndex
namespace Json

/-- The name of an operator. -/
def operatorName : Operator → String
  | .compare .eq => "Eq"
  | .compare .lt => "Lt"
  | .compare .le => "Leq"
  | .compare .gt => "Gt"
  | .compare .ge => "Geq"
  | .contains => "Contains"
  | .present => "Exists"

/-- All operators. -/
def operators : List Operator :=
  [.compare .eq, .compare .lt, .compare .le, .compare .gt, .compare .ge, .contains, .present]

/-- The operator of a name. -/
def operatorNamed? (name : String) : Option Operator := operators.find? (operatorName · = name)

instance : JsonForm Operator where
  toJson op := .text (operatorName op)
  ofJson?
    | .text name => operatorNamed? name
    | .object [(name, .null)] => operatorNamed? name
    | _ => none

instance : JsonForm Literal where
  toJson n := .text n.text
  ofJson? j := (as? j).map Literal.mk

instance : JsonForm Argument where
  toJson
    | .text s => .object [("Str", .text s)]
    | .number n => .object [("Number", of n)]
  ofJson?
    | .object [("Str", j)] => (as? j).map Argument.text
    | .object [("Number", j)] => (as? j).map Argument.number
    | _ => none

instance : JsonForm Condition where
  toJson c := .object [("tag", of c.tag), ("op", of c.op), ("arg", of c.arg)]
  ofJson? j := do
    let r ← j.record? ["tag", "op", "arg"]
    return ⟨← r.get? "tag", ← r.get? "op", ← r.getNullable? "arg"⟩

instance : JsonForm Query where
  toJson q := .object [("conditions", of q.conditions)]
  ofJson? j := do
    let r ← j.record? ["conditions"]
    return ⟨← r.get? "conditions"⟩

end Json
end TxIndex
