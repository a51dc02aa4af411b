import TxIndex.Action
import TxIndex.Encoding
import TxIndex.Store.Recording
import TxIndex.Store.Search

/-! # Stores

A store serves one chain over a database, through connections of its own. Several stores may work on
one database. Once a store is stopped its connections are closed: it can neither write nor search,
while the other stores go on.

The failures that are modelled are those of the calls themselves: a stopped store, a block that is
not there, a value that cannot be written. The engine is taken to carry out every statement that it
is given. -/
namespace TxIndex

/-- The database with the connections that are closed. -/
structure Storage where
  database : Database
  /-- The stores whose connections are closed. -/
  closed : List Nat
deriving DecidableEq

namespace Storage

/-- A fresh database. -/
def empty : Storage := ⟨.empty, []⟩

end Storage

/-- A look-up that stores do not offer. -/
inductive Lookup where
  | blocks
  | txs
  | txByHash
  | hasBlock
deriving DecidableEq

namespace Lookup

/-- The look-up in words. -/
def operation : Lookup → String
  | .blocks => "block search"
  | .txs => "tx search"
  | .txByHash => "getTxByHash"
  | .hasBlock => "hasBlock"

/-- The answer of a backend to a look-up. -/
def answer (l : Lookup) (backend : String) : Failure := .unsupported l.operation backend

end Lookup

/-- A store of one chain. -/
structure Store where
  /-- The number of the store, by which its connections are known. -/
  id : Nat
  chainId : String
deriving DecidableEq

namespace Store

/-- The name of the kind of database. -/
def backend : String := "sqlite"

/-- What is said when connections are closed. -/
def closedReason : String := "attempted to acquire a connection on a closed pool"

variable (s : Store)

/-- The connections of the store are open. -/
def isOpen (st : Storage) : Bool := !st.closed.contains s.id

/-- A unit of work. If it fails the database stays as it was. -/
def transact {α : Type} (work : Database → Except Failure (α × Database)) : Action Storage α :=
  fun st =>
    if s.isOpen st then
      match work st.database with
      | .ok (a, db) => (.ok a, { st with database := db })
      | .error failure => (.error failure, st)
    else (.error (.storage "begin" closedReason), st)

/-- Records a block and its events. -/
def indexBlock (b : BlockEvents) : Action Storage Unit :=
  s.transact fun db => .ok ((), db.recordBlock s.chainId b)

/-- Records the result of a transaction and its events, in a unit of its own. -/
def indexTx (r : TxResult) : Action Storage Unit := fun st =>
  match Encoding.encodeResult r with
  | .error failure => (.error failure, st)
  | .ok blob =>
    s.transact (fun db => (((), ·)) <$> db.recordResult s.chainId r (txHash r.tx) blob) st

/-- Records results in their order, up to the first that fails. -/
def indexTxs (rs : List TxResult) : Action Storage Unit := Action.each s.indexTx rs

/-- Records a request in a block, and says whether it is new. -/
def insertRequest (b : BlockEvents) (request : TxRequest) : Action Storage Bool :=
  s.transact fun db => db.recordRequest s.chainId b request

/-- The transactions that a plan finds, the newest first. The only failure of a search is that the
store is stopped: failures of the engine and its limits on statements, of which the depth of an
expression is the first that many filters reach, are not modelled, so an open store always
answers. -/
def search (p : Plan) (st : Storage) : Except Failure (List StoredTx) :=
  if s.isOpen st then .ok (st.database.search s.chainId p)
  else .error (.storage "begin" closedReason)

/-- The number of recorded requests. -/
def requestCount (st : Storage) : Except Failure Nat :=
  if s.isOpen st then .ok st.database.requests.size else .error (.storage "count" closedReason)

/-- The number of recorded events. -/
def eventCount (st : Storage) : Except Failure Nat :=
  if s.isOpen st then .ok st.database.events.size else .error (.storage "count" closedReason)

/-- Closes the connections of the store. -/
def stop : Action Storage Unit := fun st => (.ok (), { st with closed := s.id :: st.closed })

end Store
end TxIndex
