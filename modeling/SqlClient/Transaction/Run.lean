import SqlClient.Client.Run
/-!
# Transactions — nested scopes

`Client.transact` runs an operation inside a scope of its own. Outside transactions it gets a
connection and puts the operation between BEGIN and COMMIT; inside one it sets a savepoint instead.
When the operation fails, or is given up before it finished, the scope is rolled back: a root
transaction as a whole, a nested scope to its savepoint. Savepoints are named after their depth and
are never released.

A scope ends for its clients when its operation does, so nothing of theirs can come between the
operation and the statement that closes the scope.
-/

namespace SqlClient

variable {β : Type} [Backend β]

namespace Transaction

/-- Rolls back after a failure. If that fails too, the connection is in an unknown state and must
not be used again. -/
def rollBack (n : Nat) (sql : String) : Coroutine (Store β) Unit := do
  match ← Connection.shareScript n sql with
  | .ok () => return ()
  | .error _ => Connection.markBroken n

/-- Rolls back a scope whose operation was given up. The connection of a root transaction may still
be in the middle of a statement, so it is not used again. -/
def rescue (n : Nat) (sql : String) (isRoot : Bool) : Coroutine (Store β) Unit :=
  Connection.holding n do
    let _ ← Connection.shareScript n sql
    if isRoot then Connection.markBroken n

/-- Runs the operation of a scope and closes the scope with its outcome. If that is given up, the
scope ends and is rolled back in the background, where a handle of its own keeps the connection. -/
def closing {α : Type} (scope : Scope) (rollback : String) (operation : Coroutine (Store β) (Outcome α))
    (close : Outcome α → Coroutine (Store β) (Outcome α)) : Coroutine (Store β) (Outcome α) :=
  .guarded (fun s => (s.endScope scope).hold scope.connection)
    (some (rescue scope.connection rollback (scope.depth == 0)))
    (do
      let outcome ← operation
      Coroutine.change (Store.endScope scope)
      close outcome)
    .done

/-- Closes a root transaction: COMMIT after success, ROLLBACK after a failure or a failed COMMIT. -/
def closeRoot {α : Type} (sql : TransactionSql) (n : Nat) :
    Outcome α → Coroutine (Store β) (Outcome α)
  | .ok a => do
    match ← Connection.shareScript n sql.commit with
    | .ok () => return .ok a
    | .error e => do
      rollBack n sql.rollback
      return .error e
  | .error e => do
    rollBack n sql.rollback
    return .error e

/-- Closes a nested scope: back to its savepoint after a failure, nothing after success. -/
def closeNested {α : Type} (n : Nat) (undo : String) :
    Outcome α → Coroutine (Store β) (Outcome α)
  | .ok a => return .ok a
  | .error e => do
    rollBack n undo
    return .error e

end Transaction

namespace Client

variable {α : Type}

/-- Runs an operation in a root transaction. -/
def transactRoot (c : Client) (operation : Client → Work β α) : Work β α := .mk do
  let sql := c.settings.transactionSql
  match ← Coroutine.perform (Store.acquire c.settings.transactionAcquirer) with
  | .error e => return .error e
  | .ok n =>
    Connection.holding n do
      match ← Connection.shareScript n sql.begin with
      | .error e => return .error e
      | .ok () => do
        let scope ← Coroutine.perform (Store.openRoot n)
        Transaction.closing scope sql.rollback (operation (c.inScope scope)).run
          (Transaction.closeRoot sql n)

/-- Runs an operation in a savepoint of a scope. -/
def transactNested (c : Client) (parent : Scope) (operation : Client → Work β α) : Work β α :=
  .mk do
    let sql := c.settings.transactionSql
    let depth := parent.depth + 1
    let n := parent.connection
    if ← Coroutine.inspect (Store.isOpen parent) then
      match ← Connection.shareScript n (sql.openSavepoint depth) with
      | .error e => return .error e
      | .ok () => do
        let scope ← Coroutine.perform (Store.openNested parent)
        let undo := sql.undoSavepoint depth
        Transaction.closing scope undo (operation (c.inScope scope)).run
          (Transaction.closeNested n undo)
    else return .error .scopeEnded

/-- Runs an operation inside a transaction scope of its own. The operation gets a client of that
scope; only what it runs through that client takes part. -/
def transact (c : Client) (operation : Client → Work β α) : Work β α :=
  match c.scope with
  | none => c.transactRoot operation
  | some scope => c.transactNested scope operation

end Client

end SqlClient
