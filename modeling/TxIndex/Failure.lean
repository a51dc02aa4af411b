/-! # Failures

Every operation of the index fails for one of nine causes. The causes are told apart by their
constructor; `Failure.message` is the one place where they are put into words. -/
namespace TxIndex

/-- Why an operation gave no result. -/
inductive Failure where
  /-- Stored or received data could not be read. -/
  | decode (subject reason : String)
  /-- A value could not be written in its stored form. -/
  | encode (subject reason : String)
  /-- A result names a block that the chain has not recorded. -/
  | blockNotFound (height : Int64) (chainId : String)
  /-- A height is compared with something that is no integer of 64 bits. -/
  | heightNotIntegral (bound : String)
  /-- The backend does not offer the operation. -/
  | unsupported (operation backend : String)
  /-- A query is malformed. -/
  | query (reason : String)
  /-- The database refused a step. -/
  | storage (step reason : String)
  /-- A module of the same name is already registered. -/
  | duplicateModule (name : String)
  /-- No module has the name. -/
  | unknownModule (name : String)
deriving DecidableEq

namespace Failure

/-- The failure in words. -/
def message : Failure → String
  | .decode subject reason => s!"decode {subject}: {reason}"
  | .encode subject reason => s!"encode {subject}: {reason}"
  | .blockNotFound height chainId => s!"block at height {height} for chain '{chainId}' not found"
  | .heightNotIntegral bound => s!"height bound '{bound}' is not convertible to an integer"
  | .unsupported operation backend =>
      s!"{operation} is not supported via the {backend} event sink"
  | .query reason => s!"invalid query: {reason}"
  | .storage step reason => s!"storage error in {step}: {reason}"
  | .duplicateModule name => s!"module '{name}' is already registered"
  | .unknownModule name => s!"no module indexer named '{name}'"

/-- The failure says that a block is missing. -/
def isNotFound : Failure → Bool
  | .blockNotFound _ _ => true
  | _ => false

/-- The failure says that the backend does not offer the operation. -/
def isUnsupported : Failure → Bool
  | .unsupported _ _ => true
  | _ => false

end Failure
end TxIndex
