import TxIndex.Decimal.Binary64
import TxIndex.Plan
import TxIndex.Store.Database
import TxIndex.Text.Containment

/-! # Searching

A search goes in two steps. First it finds the candidates, the results that have a request and lie
in the window, drops those that miss a condition, and keeps as many of the newest as the plan
allows; of two at one height the one recorded later is newer. Then it joins these again with their
results and requests. The window up to the tip holds nothing as long as the chain has no block.

A search of the database always has an answer. Left out is what the engine may refuse for reasons of
its own: failures of the disk or of a connection, and limits on the size of a statement, such as the
depth of an expression, which is 1000 by default and is reached by a plan of about 990 filters. -/
namespace TxIndex

/-- A transaction as it is stored. -/
structure StoredTx where
  height : Int64
  createdAt : Instant
  txHash : String
  messages : List UInt8
  memo : String
  fee : String
  result : List UInt8
deriving DecidableEq

namespace Test

/-- The value of an attribute satisfies the test. Texts compare by their code points, and numbers
as binary64; a value that is no number is unlike all of them. -/
def holds : Test → String → Bool
  | .present, _ => true
  | .contains needle, value => Text.contains value needle
  | .text c s, value => c.admits (compare value s)
  | .number c n, value =>
    Decimal.isNumeric value.toList &&
      c.admits (compare (Binary64.ofText value).rank (Binary64.ofText n.text).rank)

end Test

/-- A result that may be a hit, by its number. -/
structure Candidate where
  txId : Nat
  height : Int64
deriving DecidableEq

namespace Candidate

/-- The first is at least as new as the second. -/
def isNewer (a b : Candidate) : Bool :=
  b.height < a.height || (a.height = b.height && b.txId ≤ a.txId)

end Candidate

namespace Database

variable (db : Database)

/-- The height meets all comparisons. -/
def admitsHeight (bounds : List (Comparison × Int64)) (height : Int64) : Bool :=
  bounds.all fun (c, value) => c.admits (compare height value)

/-- An event of the transaction has an attribute as the condition asks. -/
def meets (txId : Nat) (c : Condition) : Bool :=
  db.events.numbered.any fun (event, eventId) =>
    event.txId = some txId &&
      db.attributes.rows.any fun a =>
        a.eventId = eventId && a.compositeKey = c.tag && c.test.holds a.value

/-- The results with a request whose height is within bounds. -/
def candidates (bounds : List (Comparison × Int64)) : List Candidate :=
  db.results.numbered.flatMap fun (r, txId) =>
    if admitsHeight bounds r.height then (db.requestsOf r).map fun _ => ⟨txId, r.height⟩ else []

/-- The newest candidates that meet all conditions, as many as allowed. -/
def newestMatches (bounds : List (Comparison × Int64)) (filters : List Condition)
    (limit : Nat) : List Candidate :=
  (((db.candidates bounds).filter fun c => filters.all (db.meets c.txId)).mergeSort
    Candidate.isNewer).take limit

/-- A result and a request in one. -/
def storedTx (r : ResultRow) (request : TxRequest) : StoredTx :=
  ⟨r.height, request.createdAt, r.txHash, request.messages, request.memo, request.fee, r.blob⟩

/-- The result of a number joined with its request. -/
def joined (txId : Nat) : List StoredTx :=
  match db.results.get? txId with
  | some r => (db.requestsOf r).map (storedTx r)
  | none => []

/-- The transactions that a plan finds, the newest first, for a chain of the given name. It is the
meaning of the statement; that the engine accepts the statement and carries it out is assumed, also
for plans with more filters than the engine's limits on a statement allow. -/
def search (chainId : String) (p : Plan) : List StoredTx :=
  match p.window.bounds? (db.tip? chainId) with
  | none => []
  | some bounds =>
    (db.newestMatches bounds p.filters p.limit.toNat).flatMap fun c => db.joined c.txId

end Database
end TxIndex
