/-! # Transactions

A transaction carries messages, each tagged with the address of its type and otherwise opaque, a
note, the fee its sender pays, and signatures. -/
namespace TxIndex

/-- A message of some type, in its encoded form. -/
structure Message where
  typeUrl : String
  value : List UInt8
deriving DecidableEq

/-- An amount of some denomination. -/
structure Coin where
  denom : String
  amount : String
deriving DecidableEq

namespace Coin

/-- An amount given as a number. -/
def ofNat (denom : String) (amount : Nat) : Coin := ⟨denom, toString amount⟩

end Coin

/-- What a sender pays for the execution of a transaction. -/
structure Fee where
  amount : List Coin
  gasLimit : UInt64
  payer : String
  granter : String
deriving DecidableEq

/-- What a transaction does. -/
structure TxBody where
  messages : List Message
  memo : String
deriving DecidableEq

/-- What a transaction pays. -/
structure AuthInfo where
  fee : Fee
deriving DecidableEq

/-- A transaction. -/
structure Tx where
  body : TxBody
  authInfo : AuthInfo
  signatures : List (List UInt8)
deriving DecidableEq

end TxIndex
