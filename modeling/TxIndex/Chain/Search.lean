import TxIndex.Chain.Block

/-! # Answers of a search

A hit is a transaction with a summary of its execution. Signatures are not kept, so the transaction
of a hit has none. -/
namespace TxIndex

/-- How a transaction was executed. -/
structure TxResponse where
  height : Int64
  txHash : String
  codespace : String
  code : UInt32
  info : String
  rawLog : String
  gasWanted : Int64
  gasUsed : Int64
  events : List Event
  timestamp : Instant
deriving DecidableEq

/-- A transaction that was found. -/
structure TxHit where
  tx : Tx
  response : TxResponse
deriving DecidableEq

/-- The hits of a search in order, and their number. -/
structure SearchResult where
  txs : List TxHit
  total : UInt64
deriving DecidableEq

end TxIndex
