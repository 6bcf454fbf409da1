import SqlClient.Text.Integer
import SqlClient.Transaction.Run
/-!
# Migrations

A migration is a numbered change of a database: a script or code. A tracking table records those
that were applied; a run applies what is newer than the latest of them, in the order of the ids, in
one transaction.
-/

namespace SqlClient

/-- What a migration does. -/
inductive MigrationSource (β : Type) : Type 1
  | script (sql : String)
  | code (run : Client → Work β Unit)

/-- A numbered change of a database. -/
structure Migration (β : Type) where
  id : Int64
  name : String
  source : MigrationSource β

/-- Migrations and the table that records them. -/
structure Migrator (β : Type) where
  migrations : List (Migration β)
  /-- The name of the tracking table. -/
  table : String

namespace Migrator

variable {β : Type}

/-- The tracking table of migrators that name none. -/
def defaultTable : String := "sqlfx_migrations"

/-! ## The statements -/

/-- A text between two single quotes: those inside it are doubled. -/
def doubleQuotes (text : String) : String :=
  String.ofList (text.toList.flatMap fun c => if c = '\'' then [c, c] else [c])

/-- Creates the tracking table unless it is there. The table is given as a quoted name. -/
def createTable (d : Dialect) (table : String) : String :=
  match d with
  | .mssql =>
    "IF OBJECT_ID(N'" ++ doubleQuotes table ++ "', N'U') IS NULL CREATE TABLE " ++ table ++
      " (migration_id BIGINT NOT NULL PRIMARY KEY, name NVARCHAR(255) NOT NULL, " ++
      "created_at DATETIME2 NOT NULL DEFAULT SYSUTCDATETIME())"
  | .postgres | .sqlite | .mysql =>
    "CREATE TABLE IF NOT EXISTS " ++ table ++
      " (migration_id BIGINT NOT NULL PRIMARY KEY, name TEXT NOT NULL, " ++
      "created_at TIMESTAMP NOT NULL DEFAULT CURRENT_TIMESTAMP)"

/-- Keeps other runs out until the transaction ends. SQLite locks the database as a whole. -/
def lockTable? (d : Dialect) (table : String) : Option String :=
  match d with
  | .postgres => some ("LOCK TABLE " ++ table ++ " IN ACCESS EXCLUSIVE MODE")
  | .mssql => some ("SELECT TOP 0 1 FROM " ++ table ++ " WITH (TABLOCKX, HOLDLOCK)")
  | .mysql => some ("SELECT migration_id FROM " ++ table ++ " FOR UPDATE")
  | .sqlite => none

/-- Asks for the latest recorded id. -/
def selectLatest (table : String) : String :=
  "SELECT MAX(migration_id) AS latest FROM " ++ table

/-- Records a migration. -/
def insertApplied (d : Dialect) (table : String) : String :=
  let marks := (d.placeholder.write 1) ++ ", " ++ (d.placeholder.write 2)
  "INSERT INTO " ++ table ++ " (migration_id, name) VALUES (" ++ marks ++ ")"

/-! ## Planning -/

/-- Sorted ids that equal their predecessor. -/
def repeated : List Int64 → List Int64
  | a :: b :: rest => if a = b then a :: repeated (b :: rest) else repeated (b :: rest)
  | _ => []

/-- Migrations in the order of their ids; equal ones keep their order. -/
def sortById (migrations : List (Migration β)) : List (Migration β) :=
  migrations.mergeSort fun a b => decide (a.id ≤ b.id)

/-- Refuses migrations with equal ids. -/
def checkIds (m : Migrator β) : Outcome Unit :=
  match repeated ((m.migrations.map (·.id)).mergeSort fun a b => decide (a ≤ b)) with
  | [] => .ok ()
  | ids =>
    .error (.migration .duplicates
      ("duplicate migration ids: " ++ ", ".intercalate (ids.map fun id => toString id.toInt)))

/-- The migrations newer than the latest recorded one, in the order of their ids. -/
def pending (m : Migrator β) (latest : Int64) : List (Migration β) :=
  sortById (m.migrations.filter fun one => latest < one.id)

/-- The refusal of a recorded id. -/
def malformedId (found : String) : Error :=
  .migration .badState ("tracking table holds a malformed migration id: " ++ found)

/-- The latest recorded id from the rows that ask for it; zero if nothing is recorded. Ids recorded
as text are read. -/
def latestOf (result : ResultSet) : Outcome Int64 :=
  match (result.rows.head?.bind (·.head?)).getD .null with
  | .null => .ok 0
  | .int id => .ok id
  | .text text =>
    match readInt64 text with
    | .ok id => .ok id
    | .error _ => .error (malformedId text)
  | other => .error (malformedId other.shown)

/-! ## Running -/

variable [Backend β]

/-- Applies one migration and records it. -/
def apply (table : String) (tx : Client) (one : Migration β) : Work β (Int64 × String) := do
  let change : Work β Unit :=
    match one.source with
    | .script sql => tx.runScript sql
    | .code run => run tx
  let label := toString one.id.toInt ++ " (" ++ one.name ++ ")"
  tryCatchThe Error change fun e =>
    throw (.migration .failed ("migration " ++ label ++ " failed: " ++ e.message))
  let _ ← tx.runRaw (insertApplied tx.settings.compiler.dialect table) [.int one.id, .text one.name]
  return (one.id, one.name)

/-- Applies all that is pending inside a transaction. -/
def applyPending (m : Migrator β) (table : String) (tx : Client) :
    Work β (List (Int64 × String)) := do
  match lockTable? tx.settings.compiler.dialect table with
  | some sql => tx.runScript sql
  | none => pure ()
  let latest ← Work.ofOutcome (latestOf (← tx.runRaw (selectLatest table) []))
  (m.pending latest).mapM (apply table tx)

/-- Applies every migration newer than the latest recorded one: the id and name of each, in order.
The name of the tracking table is used as given, without the client's change of names. -/
def run (m : Migrator β) (c : Client) : Work β (List (Int64 × String)) := do
  Work.ofOutcome m.checkIds
  let dialect := c.settings.compiler.dialect
  let table := (Compiler.ofDialect dialect).quoteIdentifier m.table
  c.runScript (createTable dialect table)
  c.transact (m.applyPending table)

end Migrator

end SqlClient
