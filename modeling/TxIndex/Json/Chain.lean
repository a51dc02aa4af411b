import TxIndex.Chain.Block
import TxIndex.Json.Form
import TxIndex.Time.Rfc3339

/-! # JSON forms of chain data

Bytes are arrays of numbers and times are written times. The payer and the granter of a fee are
left out where they are empty. -/
namespace TxIndex
namespace Json

instance : JsonForm Instant where
  toJson t := .text t.write
  ofJson? j := (as? j).bind Instant.read?

instance : JsonForm Message where
  toJson m := .object [("type_url", of m.typeUrl), ("value", of m.value)]
  ofJson? j := do
    let r ← j.record? ["type_url", "value"]
    return ⟨← r.get? "type_url", ← r.get? "value"⟩

instance : JsonForm Coin where
  toJson c := .object [("denom", of c.denom), ("amount", of c.amount)]
  ofJson? j := do
    let r ← j.record? ["denom", "amount"]
    return ⟨← r.get? "denom", ← r.get? "amount"⟩

/-- A member that is left out where its text is empty. -/
def unlessEmpty (name s : String) : List (String × Json) :=
  if s = "" then [] else [(name, .text s)]

instance : JsonForm Fee where
  toJson f := .object <|
    [("amount", of f.amount), ("gas_limit", of f.gasLimit)] ++
      unlessEmpty "payer" f.payer ++ unlessEmpty "granter" f.granter
  ofJson? j := do
    let r ← j.record? ["amount", "gas_limit", "payer", "granter"]
    return ⟨← r.get? "amount", ← r.get? "gas_limit", ← r.getD? "payer" "", ← r.getD? "granter" ""⟩

instance : JsonForm TxBody where
  toJson b := .object [("messages", of b.messages), ("memo", of b.memo)]
  ofJson? j := do
    let r ← j.record? ["messages", "memo"]
    return ⟨← r.get? "messages", ← r.get? "memo"⟩

instance : JsonForm AuthInfo where
  toJson a := .object [("fee", of a.fee)]
  ofJson? j := do
    let r ← j.record? ["fee"]
    return ⟨← r.get? "fee"⟩

instance : JsonForm Tx where
  toJson t :=
    .object [("body", of t.body), ("auth_info", of t.authInfo), ("signatures", of t.signatures)]
  ofJson? j := do
    let r ← j.record? ["body", "auth_info", "signatures"]
    return ⟨← r.get? "body", ← r.get? "auth_info", ← r.get? "signatures"⟩

instance : JsonForm EventAttribute where
  toJson a := .object [("key", of a.key), ("value", of a.value), ("index", of a.indexed)]
  ofJson? j := do
    let r ← j.record? ["key", "value", "index"]
    return ⟨← r.get? "key", ← r.get? "value", ← r.get? "index"⟩

instance : JsonForm Event where
  toJson e := .object [("type", of e.kind), ("attributes", of e.attributes)]
  ofJson? j := do
    let r ← j.record? ["type", "attributes"]
    return ⟨← r.get? "type", ← r.get? "attributes"⟩

instance : JsonForm ExecResult where
  toJson x := .object
    [("code", of x.code), ("data", of x.data), ("log", of x.log), ("info", of x.info),
      ("gas_wanted", of x.gasWanted), ("gas_used", of x.gasUsed), ("events", of x.events),
      ("codespace", of x.codespace)]
  ofJson? j := do
    let r ← j.record?
      ["code", "data", "log", "info", "gas_wanted", "gas_used", "events", "codespace"]
    return ⟨← r.get? "code", ← r.get? "data", ← r.get? "log", ← r.get? "info",
      ← r.get? "gas_wanted", ← r.get? "gas_used", ← r.get? "events", ← r.get? "codespace"⟩

instance : JsonForm TxResult where
  toJson x := .object
    [("height", of x.height), ("index", of x.index), ("tx", of x.tx), ("result", of x.result)]
  ofJson? j := do
    let r ← j.record? ["height", "index", "tx", "result"]
    return ⟨← r.get? "height", ← r.get? "index", ← r.get? "tx", ← r.get? "result"⟩

instance : JsonForm FinalizeRequest where
  toJson x := .object [("height", of x.height), ("txs", of x.txs), ("time", of x.time)]
  ofJson? j := do
    let r ← j.record? ["height", "txs", "time"]
    return ⟨← r.get? "height", ← r.get? "txs", ← r.get? "time"⟩

instance : JsonForm FinalizeResponse where
  toJson x := .object [("events", of x.events), ("tx_results", of x.txResults)]
  ofJson? j := do
    let r ← j.record? ["events", "tx_results"]
    return ⟨← r.get? "events", ← r.get? "tx_results"⟩

instance : JsonForm BlockEvents where
  toJson x := .object
    [("height", of x.height), ("time", of x.time), ("events", of x.events),
      ("num_txs", of x.numTxs)]
  ofJson? j := do
    let r ← j.record? ["height", "time", "events", "num_txs"]
    return ⟨← r.get? "height", ← r.get? "time", ← r.get? "events", ← r.get? "num_txs"⟩

end Json
end TxIndex
