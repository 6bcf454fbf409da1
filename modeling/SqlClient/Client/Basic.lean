import SqlClient.Compiler
import SqlClient.Transaction.Sql
/-!
# Clients

A client is a handle: its settings, the transaction scope it belongs to, and the request cache it
uses. Handles are plain data, so copies of one client are one client.
-/

namespace SqlClient

/-- The two places that a client gets connections from. -/
inductive Acquirer
  /-- For statements outside transactions. -/
  | general
  /-- For root transactions. -/
  | transactions
deriving DecidableEq, Repr

/-- What the clients of one program share. -/
structure ClientSettings where
  compiler : Compiler
  transactionSql : TransactionSql
  /-- Where root transactions get their connection from. -/
  transactionAcquirer : Acquirer
  /-- The change of result names. -/
  renameResult : Option NameTransform

/-- A transaction scope: a root transaction, or a savepoint inside one. -/
structure Scope where
  /-- The root transaction, shared by all its savepoints. -/
  transaction : Nat
  /-- The connection of the root transaction. -/
  connection : Nat
  /-- Zero for the root, `n` inside the `n`-th savepoint. -/
  depth : Nat
  /-- The marks of the enclosing scopes, the root first and the scope itself last. -/
  marks : List Nat
deriving DecidableEq

/-- A handle to run statements with. -/
structure Client where
  settings : ClientSettings
  scope : Option Scope
  /-- The request cache, by its number. -/
  cache : Nat

namespace Client

/-- The root transaction of a client. -/
def transaction? (c : Client) : Option Nat := c.scope.map (·.transaction)

/-- The connection that a client shares with its transaction. -/
def connection? (c : Client) : Option Nat := c.scope.map (·.connection)

/-- The client inside a scope. -/
def inScope (c : Client) (s : Scope) : Client := { c with scope := some s }

/-- The client with another request cache. -/
def withCache (c : Client) (cache : Nat) : Client := { c with cache }

end Client

/-! ## Building -/

/-- What a client is built from; all but the dialect may be left open. -/
structure ClientOptions where
  dialect : Dialect
  /-- There is a place to get connections from. -/
  hasAcquirer : Bool
  /-- There is another such place for root transactions. -/
  hasTransactionAcquirer : Bool
  transactionSql : Option TransactionSql
  transforms : NameTransforms
  placeholder : Option PlaceholderStyle

/-- The settings that options come to. Without an acquirer there is no client. -/
def ClientOptions.settings (o : ClientOptions) : Outcome ClientSettings :=
  if o.hasAcquirer then
    .ok
      { compiler :=
          { Compiler.ofDialect o.dialect with
            placeholder := o.placeholder.getD o.dialect.placeholder
            transform := o.transforms.query }
        transactionSql := o.transactionSql.getD (.ofDialect o.dialect)
        transactionAcquirer := if o.hasTransactionAcquirer then .transactions else .general
        renameResult := o.transforms.result }
  else .error (.config "a connection acquirer is required")

end SqlClient
