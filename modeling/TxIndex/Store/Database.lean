import TxIndex.Chain.Block
import TxIndex.Store.Table

/-! # The database

Five tables: blocks, results of transactions, events, attributes of events, and requests. A block is
known by its height and its chain; a result and a request are each known by their block and their
position in it; an attribute is known by its event and its key. The numbers of rows join them.

All columns are kept but the time at which a result was written down (`ResultRow`). -/
namespace TxIndex

/-- A block of a chain. -/
structure BlockRow where
  height : Int64
  chainId : String
  createdAt : Instant
deriving DecidableEq

/-- The stored result of a transaction. The table has one more column, `created_at`, which is left
out: it is written from the clock, and no statement reads it. Whatever is said of the rows of results
is said of the other columns. -/
structure ResultRow where
  blockId : Nat
  index : UInt32
  height : Int64
  txHash : String
  blob : List UInt8
deriving DecidableEq

/-- An event of a block, or of a transaction if it names one. -/
structure EventRow where
  blockId : Nat
  txId : Option Nat
  kind : String
deriving DecidableEq

/-- An indexed attribute of an event. -/
structure AttributeRow where
  eventId : Nat
  key : String
  compositeKey : String
  value : String
deriving DecidableEq

/-- What is kept of a transaction that was asked for in a block. -/
structure TxRequest where
  height : Int64
  index : UInt32
  createdAt : Instant
  txHash : String
  messages : List UInt8
  fee : String
  memo : String
deriving DecidableEq

/-- A request with its block. -/
structure RequestRow where
  blockId : Nat
  request : TxRequest
deriving DecidableEq

/-- The tables. -/
structure Database where
  blocks : Table BlockRow
  results : Table ResultRow
  events : Table EventRow
  attributes : Table AttributeRow
  requests : Table RequestRow
deriving DecidableEq

namespace Database

/-- The database without rows. -/
def empty : Database := ⟨.empty, .empty, .empty, .empty, .empty⟩

/-- The row is that of a block of the chain. -/
def isBlock (height : Int64) (chainId : String) (row : BlockRow) : Bool :=
  row.height = height && row.chainId = chainId

/-- The row is the result at a place. -/
def isResult (blockId : Nat) (index : UInt32) (row : ResultRow) : Bool :=
  row.blockId = blockId && row.index = index

/-- The row is the request at a place. -/
def isRequest (blockId : Nat) (index : UInt32) (row : RequestRow) : Bool :=
  row.blockId = blockId && row.request.index = index

variable (db : Database)

/-- The number of a block of a chain. -/
def blockId? (height : Int64) (chainId : String) : Option Nat :=
  db.blocks.findId? (isBlock height chainId)

/-- The heights recorded for a chain. -/
def heights (chainId : String) : List Int64 :=
  (db.blocks.rows.filter (·.chainId = chainId)).map (·.height)

/-- The greatest height recorded for a chain. -/
def tip? (chainId : String) : Option Int64 := (db.heights chainId).max?

/-- The requests at the place of a result. -/
def requestsOf (r : ResultRow) : List TxRequest :=
  (db.requests.rows.filter (isRequest r.blockId r.index)).map (·.request)

end Database
end TxIndex
