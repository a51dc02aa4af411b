import TxIndex.Json.Basic

/-! # Values with a JSON form

A type has a JSON form when its values can be written as JSON and read back. Integers are read only
within the bounds of their type and texts only from strings. A record is read from an object, by the
names of its fields, or from an array, by their order: an object may have further members but none
of the fields twice, and an array may not be longer than the record. -/
namespace TxIndex

/-- Writing a value as JSON, and reading it. -/
class JsonForm (α : Type) where
  toJson : α → Json
  ofJson? : Json → Option α

namespace Json

/-- The JSON form of a value. -/
def of {α : Type} [JsonForm α] (a : α) : Json := JsonForm.toJson a

/-- The value of a JSON form. -/
def as? {α : Type} [JsonForm α] (j : Json) : Option α := JsonForm.ofJson? j

/-- An integer within bounds. -/
def integerWithin? (low high : Int) : Json → Option Int
  | .integer n => if low ≤ n ∧ n ≤ high then some n else none
  | _ => none

instance : JsonForm Bool where
  toJson := .bool
  ofJson?
    | .bool b => some b
    | _ => none

instance : JsonForm String where
  toJson := .text
  ofJson?
    | .text s => some s
    | _ => none

instance : JsonForm UInt8 where
  toJson n := .integer n.toNat
  ofJson? j := (integerWithin? 0 (UInt8.size - 1) j).map fun n => UInt8.ofNat n.toNat

instance : JsonForm UInt16 where
  toJson n := .integer n.toNat
  ofJson? j := (integerWithin? 0 (UInt16.size - 1) j).map fun n => UInt16.ofNat n.toNat

instance : JsonForm UInt32 where
  toJson n := .integer n.toNat
  ofJson? j := (integerWithin? 0 (UInt32.size - 1) j).map fun n => UInt32.ofNat n.toNat

instance : JsonForm UInt64 where
  toJson n := .integer n.toNat
  ofJson? j := (integerWithin? 0 (UInt64.size - 1) j).map fun n => UInt64.ofNat n.toNat

instance : JsonForm Int64 where
  toJson n := .integer n.toInt
  ofJson? j := (integerWithin? Int64.minValue.toInt Int64.maxValue.toInt j).map Int64.ofInt

instance {α : Type} [JsonForm α] : JsonForm (List α) where
  toJson xs := .array (xs.map JsonForm.toJson)
  ofJson?
    | .array items => items.mapM JsonForm.ofJson?
    | _ => none

instance {α : Type} [JsonForm α] : JsonForm (Option α) where
  toJson
    | some a => JsonForm.toJson a
    | none => .null
  ofJson?
    | .null => some none
    | j => (JsonForm.ofJson? j).map some

/-- What the fields of a record are read from. -/
structure Record where
  /-- The fields are told by their names. -/
  byName : Bool
  /-- The values, under the names of their fields. -/
  values : List (String × Json)

/-- The record that a value holds, of which the names of the fields are given. -/
def record? (names : List String) : Json → Option Record
  | .object members =>
    if names.all fun name => (members.filter (·.1 = name)).length ≤ 1 then some ⟨true, members⟩
    else none
  | .array items =>
    if items.length ≤ names.length then some ⟨false, names.zip items⟩ else none
  | _ => none

namespace Record

variable {α : Type} [JsonForm α]

/-- A field that must be there. -/
def get? (r : Record) (name : String) : Option α := (r.values.lookup name).bind as?

/-- A field that has a default. -/
def getD? (r : Record) (name : String) (default : α) : Option α :=
  match r.values.lookup name with
  | some j => as? j
  | none => some default

/-- A field that may be null. Told by its name it may also be left out. -/
def getNullable? (r : Record) (name : String) : Option (Option α) :=
  match r.values.lookup name with
  | some j => as? j
  | none => if r.byName then some none else none

end Record
end Json
end TxIndex
