import TxIndex.Json.Form
import TxIndex.Plan

/-! # Settings

The settings of a node: its chain, its database and connections, and the greatest number of hits of
a search. The setter keeps that number within the general ceiling; a number that is read is kept as
it is. -/
namespace TxIndex

/-- The settings of a node. -/
structure Config where
  chainId : String
  databaseUrl : String
  maxConnections : UInt32
  minConnections : UInt32
  connectTimeoutSecs : UInt64
  searchLimit : UInt16
deriving DecidableEq

namespace Config

/-- The settings where none are given. -/
def standard : Config := ⟨"testing", "sqlite::memory:", 10, 1, 30, Plan.ceiling⟩

/-- Sets the chain. -/
def withChainId (c : Config) (chainId : String) : Config := { c with chainId }

/-- Sets where the database is. -/
def withDatabaseUrl (c : Config) (databaseUrl : String) : Config := { c with databaseUrl }

/-- Sets the greatest number of connections. -/
def withMaxConnections (c : Config) (maxConnections : UInt32) : Config := { c with maxConnections }

/-- Sets the number of connections that are kept open. -/
def withMinConnections (c : Config) (minConnections : UInt32) : Config := { c with minConnections }

/-- Sets how long to wait for a connection. -/
def withConnectTimeoutSecs (c : Config) (connectTimeoutSecs : UInt64) : Config :=
  { c with connectTimeoutSecs }

/-- Sets the greatest number of hits, within the general ceiling. -/
def withSearchLimit (c : Config) (limit : UInt16) : Config :=
  { c with searchLimit := min limit Plan.ceiling }

end Config

namespace Json

instance : JsonForm Config where
  toJson c := .object
    [("chain_id", of c.chainId), ("database_url", of c.databaseUrl),
      ("max_connections", of c.maxConnections), ("min_connections", of c.minConnections),
      ("connect_timeout_secs", of c.connectTimeoutSecs), ("search_limit", of c.searchLimit)]
  ofJson? j := do
    let r ← j.record?
      ["chain_id", "database_url", "max_connections", "min_connections", "connect_timeout_secs",
        "search_limit"]
    let s := Config.standard
    return ⟨← r.getD? "chain_id" s.chainId, ← r.getD? "database_url" s.databaseUrl,
      ← r.getD? "max_connections" s.maxConnections, ← r.getD? "min_connections" s.minConnections,
      ← r.getD? "connect_timeout_secs" s.connectTimeoutSecs,
      ← r.getD? "search_limit" s.searchLimit⟩

end Json
end TxIndex
