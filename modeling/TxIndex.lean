import TxIndex.Json.Query
import TxIndex.Json.Search
import TxIndex.Module.Contracts
import TxIndex.Module.Transactions
import TxIndex.Proofs.Run.Isolation
import TxIndex.Proofs.Run.Retrieval
import TxIndex.Query.Parser
import TxIndex.Sql.Statement
import TxIndex.Proofs.Run.History
import TxIndex.Proofs.Run.Replay
import TxIndex.Proofs.Sql.Shape
import TxIndex.Proofs.Sql.Placeholders
import TxIndex.Proofs.Journal.Events
import TxIndex.Proofs.Run.Log
import TxIndex.Proofs.Run.Indexed
import TxIndex.Proofs.Query.RoundTrip
import TxIndex.Proofs.Wire.Canonical
import TxIndex.Proofs.Run.Separation
import TxIndex.Proofs.Query.Heights
import TxIndex.Proofs.Search.Compilation
import TxIndex.Proofs.Run.Tip
import TxIndex.Proofs.Run.Hits
import TxIndex.Proofs.Run.Failures
import TxIndex.Proofs.Sql.Alignment
import TxIndex.Proofs.Run.Hashes
import TxIndex.Proofs.Sql.Guards
import TxIndex.Proofs.Search.Numbers
import TxIndex.Proofs.Decimal.Integers
import TxIndex.Proofs.Search.Conjunction
import TxIndex.Proofs.Search.Arguments
import TxIndex.Proofs.Wire.Damage
import TxIndex.Proofs.Module.Registrations
import TxIndex.Proofs.Query.Positions
