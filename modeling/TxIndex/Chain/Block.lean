import TxIndex.Chain.Event
import TxIndex.Chain.Tx
import TxIndex.Time.Instant

/-! # Finalized blocks

A finalized block comes as a request, the raw transactions in their order, and a response, the
events of the block and one execution result for each transaction. -/
namespace TxIndex

/-- The outcome of executing one transaction. -/
structure ExecResult where
  code : UInt32
  data : List UInt8
  log : String
  info : String
  gasWanted : Int64
  gasUsed : Int64
  events : List Event
  codespace : String
deriving DecidableEq

namespace ExecResult

/-- The execution succeeded. -/
def isOk (r : ExecResult) : Bool := r.code = 0

end ExecResult

/-- A raw transaction with its place in the chain and its outcome. -/
structure TxResult where
  height : Int64
  index : UInt32
  tx : List UInt8
  result : ExecResult
deriving DecidableEq

/-- The transactions of a finalized block, raw and in their order. -/
structure FinalizeRequest where
  height : Int64
  txs : List (List UInt8)
  time : Instant
deriving DecidableEq

/-- The outcome of a finalized block. -/
structure FinalizeResponse where
  events : List Event
  txResults : List ExecResult
deriving DecidableEq

/-- What is recorded of a block itself. -/
structure BlockEvents where
  height : Int64
  time : Instant
  events : List Event
  numTxs : Int64
deriving DecidableEq

namespace BlockEvents

/-- The record of a finalized block. -/
def ofFinalized (req : FinalizeRequest) (res : FinalizeResponse) : BlockEvents :=
  ⟨req.height, req.time, res.events, Int64.ofNat req.txs.length⟩

end BlockEvents

namespace FinalizeRequest

/-- The transactions paired with their outcomes, each with its position; the shorter list ends. -/
def results (req : FinalizeRequest) (res : FinalizeResponse) : List TxResult :=
  (req.txs.zip res.txResults).zipIdx.map fun ((tx, result), i) =>
    ⟨req.height, UInt32.ofNat i, tx, result⟩

end FinalizeRequest
end TxIndex
