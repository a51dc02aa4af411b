import TxIndex.Chain.Block
import TxIndex.Wire.Codec

/-! # Binary forms of chain data

A record is written as its fields, one behind the other. -/
namespace TxIndex
namespace Wire

open Codec

/-- A message. -/
def message : Codec Message :=
  (text.pair bytes).map (fun (typeUrl, value) => ⟨typeUrl, value⟩) (fun m => (m.typeUrl, m.value))

/-- An amount. -/
def coin : Codec Coin :=
  (text.pair text).map (fun (denom, amount) => ⟨denom, amount⟩) (fun c => (c.denom, c.amount))

/-- A fee. -/
def fee : Codec Fee :=
  (coin.list.pair <| uint64.pair <| text.pair text).map
    (fun (amount, gasLimit, payer, granter) => ⟨amount, gasLimit, payer, granter⟩)
    (fun f => (f.amount, f.gasLimit, f.payer, f.granter))

/-- Messages. -/
def messages : Codec (List Message) := message.list

/-- What a transaction does. -/
def txBody : Codec TxBody :=
  (messages.pair text).map (fun (messages, memo) => ⟨messages, memo⟩)
    (fun b => (b.messages, b.memo))

/-- What a transaction pays. -/
def authInfo : Codec AuthInfo := fee.map (fun fee => ⟨fee⟩) (fun a => a.fee)

/-- A transaction. -/
def tx : Codec Tx :=
  (txBody.pair <| authInfo.pair bytes.list).map
    (fun (body, authInfo, signatures) => ⟨body, authInfo, signatures⟩)
    (fun t => (t.body, t.authInfo, t.signatures))

/-- An attribute. -/
def eventAttribute : Codec EventAttribute :=
  (text.pair <| text.pair bool).map (fun (key, value, indexed) => ⟨key, value, indexed⟩)
    (fun a => (a.key, a.value, a.indexed))

/-- An event. -/
def event : Codec Event :=
  (text.pair eventAttribute.list).map (fun (kind, attributes) => ⟨kind, attributes⟩)
    (fun e => (e.kind, e.attributes))

/-- The outcome of an execution. -/
def execResult : Codec ExecResult :=
  (uint32.pair <| bytes.pair <| text.pair <| text.pair <| int64.pair <| int64.pair <|
      event.list.pair text).map
    (fun (code, data, log, info, gasWanted, gasUsed, events, codespace) =>
      ⟨code, data, log, info, gasWanted, gasUsed, events, codespace⟩)
    (fun r => (r.code, r.data, r.log, r.info, r.gasWanted, r.gasUsed, r.events, r.codespace))

/-- A raw transaction with its place and outcome. -/
def txResult : Codec TxResult :=
  (int64.pair <| uint32.pair <| bytes.pair execResult).map
    (fun (height, index, tx, result) => ⟨height, index, tx, result⟩)
    (fun r => (r.height, r.index, r.tx, r.result))

end Wire
end TxIndex
