import TxIndex.Module.Registry
import TxIndex.Store.Basic

/-! # The contract module

It takes part in the indexing of blocks beside the transaction module, but so far it records and
publishes nothing and offers no search. -/
namespace TxIndex
namespace Contracts

/-- The name of the module. -/
def name : String := "wasm"

/-- The module over a store. -/
def toModule (store : Store) (encoding : Encoding) : Module Storage where
  name := name
  backend := Store.backend
  chainId := store.chainId
  encoding := encoding
  insert := Module.idle
  emit := Module.idle
  search := Module.noSearch name Store.backend

end Contracts
end TxIndex
