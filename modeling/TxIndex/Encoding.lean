import TxIndex.Failure
import TxIndex.Hash.Sha256
import TxIndex.Json.Chain
import TxIndex.Json.Reader
import TxIndex.Json.Writer
import TxIndex.MessageTypes
import TxIndex.Text.Hex
import TxIndex.Wire.Chain

/-! # Encoding

How the index reads transactions and stores their parts: messages and execution results as bytes,
fees as JSON. Messages are read and stored only if all their types are accepted; whether they are is
looked at after the bytes have been read in full. -/
namespace TxIndex

/-- The hash under which a raw transaction is known. -/
def txHash (raw : List UInt8) : String := Hex.encodeUpper (Sha256.digest raw)

namespace Wire

/-- Bytes read in full, or a failure about the subject. -/
def decodeAs {α : Type} (c : Codec α) (subject : String) (bs : List UInt8) : Except Failure α :=
  (c.decodeAll bs).mapError fun fault => .decode subject fault.message

/-- The bytes of a value, or a failure about the subject if a list in it is too long. -/
def encodeAs {α : Type} (c : Codec α) (subject : String) (a : α) : Except Failure (List UInt8) :=
  if c.fits a then .ok (c.encode a) else .error (.encode subject "invalid input parameter")

end Wire

/-- The message types that are accepted. -/
structure Encoding where
  accepted : MessageTypes

namespace Encoding

variable (e : Encoding)

/-- Accepts the standard types. -/
def standard : Encoding := ⟨MessageTypes.standard⟩

/-- The first message whose type is not accepted. -/
def firstRefused? (messages : List Message) : Option Message :=
  messages.find? fun m => !e.accepted.contains m.typeUrl

/-- The complaint about a message whose type is not accepted. -/
def refusal (m : Message) : String := s!"unregistered message type {m.typeUrl}"

/-- Reads a raw transaction. -/
def decodeTx (raw : List UInt8) : Except Failure Tx := do
  let tx ← Wire.decodeAs Wire.tx "tx" raw
  match e.firstRefused? tx.body.messages with
  | some m => .error (.decode "tx" (refusal m))
  | none => return tx

/-- Writes a transaction, whatever its message types. -/
def encodeTx (tx : Tx) : Except Failure (List UInt8) := Wire.encodeAs Wire.tx "tx" tx

/-- Writes messages. -/
def encodeMessages (messages : List Message) : Except Failure (List UInt8) :=
  match e.firstRefused? messages with
  | some m => .error (.encode "messages" (refusal m))
  | none => Wire.encodeAs Wire.messages "messages" messages

/-- Reads messages. -/
def decodeMessages (bs : List UInt8) : Except Failure (List Message) := do
  let messages ← Wire.decodeAs Wire.messages "messages" bs
  match e.firstRefused? messages with
  | some m => .error (.decode "messages" (refusal m))
  | none => return messages

/-- Writes a fee. -/
def encodeFee (fee : Fee) : String := (Json.of fee).write

/-- Reads a fee. What is said of a text that is not one is up to the JSON library, so it is a
parameter: a function of the text, of which nothing is assumed. -/
def decodeFee (s : String) (complaint : String → String := id) : Except Failure Fee :=
  match (Json.read? s).bind Json.as? with
  | some fee => .ok fee
  | none => .error (.decode "fee" (complaint s))

/-- Writes an execution result with its place. -/
def encodeResult (r : TxResult) : Except Failure (List UInt8) :=
  Wire.encodeAs Wire.txResult "tx result" r

/-- Reads an execution result with its place. -/
def decodeResult (bs : List UInt8) : Except Failure TxResult :=
  Wire.decodeAs Wire.txResult "tx result" bs

end Encoding
end TxIndex
