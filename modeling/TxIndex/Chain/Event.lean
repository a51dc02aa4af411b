/-! # Events

Blocks and transactions emit events: a type and a list of attributes. An indexed attribute can be
searched for under its composite key, the type and the key joined by a point. -/
namespace TxIndex

/-- A key and a value that belong to an event. -/
structure EventAttribute where
  key : String
  value : String
  /-- The attribute can be searched for. -/
  indexed : Bool
deriving DecidableEq

/-- An event of a block or a transaction. -/
structure Event where
  kind : String
  attributes : List EventAttribute
deriving DecidableEq

namespace Event

/-- The composite key of an attribute of the event. -/
def compositeKey (e : Event) (key : String) : String := e.kind ++ "." ++ key

/-- The event whose one indexed attribute has a composite key. The type ends at the first point;
without a point there is no attribute. -/
def ofCompositeKey (key value : String) : Event :=
  let kind := key.toList.takeWhile (· ≠ '.')
  match key.toList.dropWhile (· ≠ '.') with
  | [] => ⟨key, []⟩
  | _ :: rest => ⟨String.ofList kind, [⟨String.ofList rest, value, true⟩]⟩

end Event

/-- The composite key under which every block has its height. -/
def blockHeightKey : String := "block.height"

/-- The composite key under which every transaction has its hash. -/
def txHashKey : String := "tx.hash"

/-- The composite key under which every transaction has its height, and the tag of queries for
heights. -/
def txHeightKey : String := "tx.height"

end TxIndex
