import TxIndex.Config
import TxIndex.Module.Registry
import TxIndex.Store.Basic

/-! # The transaction module

It reads every transaction of a finalized block and records a request for each, in a unit of its
own, up to the first that cannot be read. Its search compiles a query, runs it on the store and
reads the rows back; one row that cannot be read fails the search. -/
namespace TxIndex

/-- The module for transactions. -/
structure TxIndexer where
  store : Store
  encoding : Encoding
  /-- The greatest number of hits of a search. -/
  searchLimit : UInt16
  /-- What the JSON library says of a stored text that is not a fee. -/
  feeComplaint : String → String

namespace TxIndexer

/-- The name of the module. -/
def name : String := "tx"

/-- The module over a store. -/
def ofStore (store : Store) (encoding : Encoding) (feeComplaint : String → String := id) :
    TxIndexer :=
  ⟨store, encoding, Plan.ceiling, feeComplaint⟩

/-- Sets the greatest number of hits, within the general ceiling. -/
def withSearchLimit (t : TxIndexer) (limit : UInt16) : TxIndexer :=
  { t with searchLimit := min limit Plan.ceiling }

/-- The module over a store with the greatest number of hits that the settings give. -/
def ofConfig (store : Store) (encoding : Encoding) (c : Config)
    (feeComplaint : String → String := id) : TxIndexer :=
  (ofStore store encoding feeComplaint).withSearchLimit c.searchLimit

variable (t : TxIndexer)

/-- The request for the transaction at a position of a block. -/
def request (req : FinalizeRequest) (index : Nat) (raw : List UInt8) :
    Except Failure TxRequest := do
  let tx ← t.encoding.decodeTx raw
  if index < UInt32.size then
    let messages ← t.encoding.encodeMessages tx.body.messages
    return {
      height := req.height
      index := UInt32.ofNat index
      createdAt := req.time
      txHash := txHash raw
      messages := messages
      fee := Encoding.encodeFee tx.authInfo.fee
      memo := tx.body.memo }
  else .error (.encode "tx index" s!"{index} out of range")

/-- Records the request for one transaction of a block. -/
def insertTx (req : FinalizeRequest) (res : FinalizeResponse) (tx : List UInt8 × Nat) :
    Action Storage Unit := fun st =>
  match t.request req tx.2 tx.1 with
  | .error failure => (.error failure, st)
  | .ok request =>
    match t.store.insertRequest (BlockEvents.ofFinalized req res) request st with
    | (.ok _, st) => (.ok (), st)
    | (.error failure, st) => (.error failure, st)

/-- Records the requests for the transactions of a block in their order, up to the first that
fails. -/
def insert (req : FinalizeRequest) (res : FinalizeResponse) : Action Storage Unit :=
  Action.each (t.insertTx req res) req.txs.zipIdx

/-- Reads a stored transaction: its messages, its fee, and its result, in this order. -/
def hit (row : StoredTx) : Except Failure TxHit := do
  let messages ← t.encoding.decodeMessages row.messages
  let fee ← Encoding.decodeFee row.fee t.feeComplaint
  let stored ← Encoding.decodeResult row.result
  let result := stored.result
  return {
    tx := ⟨⟨messages, row.memo⟩, ⟨fee⟩, []⟩
    response := {
      height := row.height
      txHash := row.txHash
      codespace := result.codespace
      code := result.code
      info := result.info
      rawLog := result.log
      gasWanted := result.gasWanted
      gasUsed := result.gasUsed
      events := result.events
      timestamp := row.createdAt } }

/-- Finds the transactions of a query, the newest first. -/
def search (q : Query) (limit : UInt16) (st : Storage) : Except Failure SearchResult := do
  let plan ← Plan.compileWithin q limit t.searchLimit
  let rows ← t.store.search plan st
  let hits ← rows.mapM t.hit
  return ⟨hits, UInt64.ofNat rows.length⟩

/-- The module as one of a registry. -/
def toModule : Module Storage where
  name := name
  backend := Store.backend
  chainId := t.store.chainId
  encoding := t.encoding
  insert := t.insert
  emit := Module.idle
  search := t.search

end TxIndexer
end TxIndex
