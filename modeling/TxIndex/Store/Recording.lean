import TxIndex.Failure
import TxIndex.Store.Database

/-! # Recording

The three units of work that write to the database. Each of them either is done as a whole or leaves
the database as it was, and each writes nothing where its block, result or request is already
recorded. A block is recorded with its events by whichever unit comes first: the one for the block
itself, or the one for a request in it. A result needs its block. -/
namespace TxIndex

namespace Event

/-- The event has a type. Events without one are not recorded. -/
def isTyped (e : Event) : Bool := e.kind ≠ ""

/-- The first attribute of each key. -/
def firstOfEachKey : List EventAttribute → List EventAttribute
  | [] => []
  | a :: as => a :: (firstOfEachKey as).filter (·.key ≠ a.key)

/-- The attributes that are recorded: the first indexed one of each key. -/
def recordedAttributes (e : Event) : List EventAttribute :=
  firstOfEachKey (e.attributes.filter (·.indexed))

/-- The rows of the recorded attributes, the number of the event being given. -/
def attributeRows (e : Event) (eventId : Nat) : List AttributeRow :=
  e.recordedAttributes.map fun a => ⟨eventId, a.key, e.compositeKey a.key, a.value⟩

end Event

/-- The events that are recorded for a block: its height, and its own. -/
def BlockEvents.recordedEvents (b : BlockEvents) : List Event :=
  Event.ofCompositeKey blockHeightKey (toString b.height) :: b.events.filter Event.isTyped

/-- The events that are recorded for a transaction: its hash, its height, and its own. -/
def TxResult.recordedEvents (r : TxResult) (hash : String) : List Event :=
  Event.ofCompositeKey txHashKey hash ::
    Event.ofCompositeKey txHeightKey (toString r.height) :: r.result.events.filter Event.isTyped

namespace Database

/-- Adds an event with its attributes. -/
def addEvent (blockId : Nat) (txId : Option Nat) (db : Database) (e : Event) : Database :=
  { db with
    events := db.events.insert ⟨blockId, txId, e.kind⟩
    attributes := db.attributes.insertAll (e.attributeRows db.events.nextId) }

/-- Adds events in their order. -/
def addEvents (db : Database) (blockId : Nat) (txId : Option Nat) (es : List Event) : Database :=
  es.foldl (addEvent blockId txId) db

/-- Adds a block with its events. -/
def addBlock (db : Database) (chainId : String) (b : BlockEvents) : Database :=
  { db with blocks := db.blocks.insert ⟨b.height, chainId, b.time⟩ }.addEvents
    db.blocks.nextId none b.recordedEvents

/-- Adds a result with its events. -/
def addResult (db : Database) (blockId : Nat) (r : TxResult) (hash : String)
    (blob : List UInt8) : Database :=
  { db with results := db.results.insert ⟨blockId, r.index, r.height, hash, blob⟩ }.addEvents
    blockId (some db.results.nextId) (r.recordedEvents hash)

/-- Adds a request. -/
def addRequest (db : Database) (blockId : Nat) (request : TxRequest) : Database :=
  { db with requests := db.requests.insert ⟨blockId, request⟩ }

/-- Records a block and its events, unless the chain has a block of its height. -/
def recordBlock (db : Database) (chainId : String) (b : BlockEvents) : Database :=
  match db.blockId? b.height chainId with
  | some _ => db
  | none => db.addBlock chainId b

/-- The number of a block that must be recorded. -/
def requireBlock (db : Database) (height : Int64) (chainId : String) : Except Failure Nat :=
  match db.blockId? height chainId with
  | some id => .ok id
  | none => .error (.blockNotFound height chainId)

/-- Records a result and its events, unless its place is taken. Its block must be recorded. -/
def recordResult (db : Database) (chainId : String) (r : TxResult) (hash : String)
    (blob : List UInt8) : Except Failure Database := do
  let blockId ← db.requireBlock r.height chainId
  if db.results.rows.any (isResult blockId r.index) then return db
  else return db.addResult blockId r hash blob

/-- Records a request, unless its place is taken, and its block before it. Says whether the request
is new. -/
def recordRequest (db : Database) (chainId : String) (b : BlockEvents)
    (request : TxRequest) : Except Failure (Bool × Database) := do
  let db := db.recordBlock chainId b
  let blockId ← db.requireBlock b.height chainId
  if db.requests.rows.any (isRequest blockId request.index) then return (false, db)
  else return (true, db.addRequest blockId request)

end Database
end TxIndex
