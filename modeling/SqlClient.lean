import SqlClient.Migration.Directory
import SqlClient.Pool.Scripted
import SqlClient.Postgres.Options
import SqlClient.Postgres.Server
import SqlClient.Sqlite.Items
import SqlClient.Sqlite.Options
import SqlClient.Proofs.Client.Exchange
import SqlClient.Proofs.Transaction.Savepoints
import SqlClient.Proofs.Transaction.Commit
import SqlClient.Proofs.Compiler.Alignment
import SqlClient.Proofs.Identifier.RoundTrip
import SqlClient.Proofs.Compiler.Noninterference
import SqlClient.Proofs.Compiler.Portability
import SqlClient.Proofs.Compiler.Records
import SqlClient.Proofs.Condition.Clauses
import SqlClient.Proofs.Resolver.Keys
import SqlClient.Proofs.Coroutine.Beside
import SqlClient.Proofs.Coroutine.Progress
import SqlClient.Proofs.Coroutine.Turns
import SqlClient.Proofs.Resolver.Batching
import SqlClient.Proofs.Resolver.Forms
import SqlClient.Proofs.Resolver.Isolation
import SqlClient.Proofs.Resolver.Loads
import SqlClient.Proofs.Resolver.Renewal
import SqlClient.Proofs.Resolver.Sharing
import SqlClient.Proofs.Transaction.Gate
import SqlClient.Proofs.Resolver.Querying
import SqlClient.Proofs.RequestCache.Runs
import SqlClient.Proofs.RequestCache.Eviction
import SqlClient.Proofs.RequestCache.History
import SqlClient.Proofs.RequestCache.Requests
import SqlClient.Proofs.Transaction.Grammar
import SqlClient.Proofs.Coroutine.Tracking
import SqlClient.Proofs.Transaction.Accounts
import SqlClient.Proofs.Transaction.Tenure
import SqlClient.Proofs.Transaction.Custody
import SqlClient.Proofs.Transaction.Release
import SqlClient.Proofs.Pool.Requests
import SqlClient.Proofs.Transaction.Rescue
import SqlClient.Proofs.Transaction.Standing
import SqlClient.Proofs.Transaction.Siblings
import SqlClient.Proofs.Migration.Series
import SqlClient.Proofs.Migration.Exclusion
import SqlClient.Proofs.Timestamp.Reading
import SqlClient.Proofs.Postgres.Parameters
import SqlClient.Proofs.Timestamp.Sorting
import SqlClient.Proofs.Names.RoundTrip
import SqlClient.Proofs.Names.Qualified
import SqlClient.Proofs.ResultSet.Renaming
import SqlClient.Proofs.Compiler.Blanks
import SqlClient.Proofs.Number.Nearest
import SqlClient.Proofs.Record.History
import SqlClient.Proofs.Record.Objects
import SqlClient.Proofs.ResultSet.Columns
import SqlClient.Proofs.ResultSet.Holding
import SqlClient.Proofs.Migration.FirstRun
import SqlClient.Proofs.Postgres.Options
import SqlClient.Proofs.ResultSet.Decoding
