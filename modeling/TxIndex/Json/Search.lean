import TxIndex.Chain.Search
import TxIndex.Json.Chain

/-! # JSON forms of answers -/
namespace TxIndex
namespace Json

instance : JsonForm TxResponse where
  toJson x := .object
    [("height", of x.height), ("tx_hash", of x.txHash), ("codespace", of x.codespace),
      ("code", of x.code), ("info", of x.info), ("raw_log", of x.rawLog),
      ("gas_wanted", of x.gasWanted), ("gas_used", of x.gasUsed), ("events", of x.events),
      ("timestamp", of x.timestamp)]
  ofJson? j := do
    let r ← j.record?
      ["height", "tx_hash", "codespace", "code", "info", "raw_log", "gas_wanted", "gas_used",
        "events", "timestamp"]
    return ⟨← r.get? "height", ← r.get? "tx_hash", ← r.get? "codespace", ← r.get? "code",
      ← r.get? "info", ← r.get? "raw_log", ← r.get? "gas_wanted", ← r.get? "gas_used",
      ← r.get? "events", ← r.get? "timestamp"⟩

instance : JsonForm TxHit where
  toJson x := .object [("tx", of x.tx), ("tx_response", of x.response)]
  ofJson? j := do
    let r ← j.record? ["tx", "tx_response"]
    return ⟨← r.get? "tx", ← r.get? "tx_response"⟩

instance : JsonForm SearchResult where
  toJson x := .object [("txs", of x.txs), ("total", of x.total)]
  ofJson? j := do
    let r ← j.record? ["txs", "total"]
    return ⟨← r.get? "txs", ← r.get? "total"⟩

end Json
end TxIndex
