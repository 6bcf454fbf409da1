import SqlClient.Dialect
/-!
# Transactions — the statements

The statements that open, close and nest transactions in a dialect.
-/

namespace SqlClient

/-- The texts of transaction statements. Those of savepoints are completed by a name. -/
structure TransactionSql where
  begin : String
  commit : String
  rollback : String
  savepoint : String
  rollbackTo : String
deriving DecidableEq, Repr

namespace TransactionSql

/-- The texts of a dialect. -/
def ofDialect : Dialect → TransactionSql
  | .mssql =>
    ⟨"BEGIN TRANSACTION", "COMMIT TRANSACTION", "ROLLBACK TRANSACTION", "SAVE TRANSACTION",
      "ROLLBACK TRANSACTION"⟩
  | .postgres | .sqlite | .mysql =>
    ⟨"BEGIN", "COMMIT", "ROLLBACK", "SAVEPOINT", "ROLLBACK TO SAVEPOINT"⟩

/-- The name of the savepoint at a depth. -/
def savepointName (depth : Nat) : String := "sqlfx" ++ toString depth

/-- Sets the savepoint of a depth. -/
def openSavepoint (s : TransactionSql) (depth : Nat) : String :=
  s.savepoint ++ " " ++ savepointName depth

/-- Goes back to the savepoint of a depth. -/
def undoSavepoint (s : TransactionSql) (depth : Nat) : String :=
  s.rollbackTo ++ " " ++ savepointName depth

end TransactionSql

end SqlClient
