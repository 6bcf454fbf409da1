import SqlClient.Client.Store
import SqlClient.Sqlite.Storage
import SqlClient.Sqlite.TableName
/-!
# SQLite — a database of items

A database file with a table of items, as far as a handful of statements need it: those on the
items, those of transactions, and those that migrations are made of. A text is read as one of these
commands, and a command is a function on the contents.

A transaction keeps a copy of the contents for its beginning and one for each savepoint. Going back
to a savepoint keeps it; of two with one name the later one counts.
-/

namespace SqlClient

namespace Sqlite

/-! ## Contents -/

/-- What a table other than that of the items holds. -/
inductive TableKind
  /-- Nothing that any statement asks for. -/
  | plain
  /-- Ids and names of migrations; the ids may be kept as texts. -/
  | tracking (textIds : Bool) (rows : List (Stored × Stored))

/-- A table under its name. -/
structure Table where
  name : String
  kind : TableKind

/-- What a database holds: items in the order of their ids, and the other tables. -/
structure Contents where
  items : List (Int64 × String)
  tables : List Table

namespace Contents

/-- An empty table of items. -/
def empty : Contents := ⟨[], []⟩

/-- The name of the table of items. -/
def itemsName : String := "items"

/-- The table with a name, other than that of the items. -/
def table? (c : Contents) (name : String) : Option Table :=
  c.tables.find? fun t => TableName.sameName t.name name

/-- Whether a name is taken. -/
def hasTable (c : Contents) (name : String) : Bool :=
  TableName.sameName itemsName name || (c.table? name).isSome

/-- Adds a table. -/
def addTable (c : Contents) (t : Table) : Contents := { c with tables := c.tables ++ [t] }

/-- Puts an item at its place. -/
def insertItem (id : Int64) (name : String) : List (Int64 × String) → List (Int64 × String)
  | [] => [(id, name)]
  | (i, n) :: rest =>
    if id < i then (id, name) :: (i, n) :: rest else (i, n) :: insertItem id name rest

/-- The names of all tables, sorted. -/
def tableNames (c : Contents) : List String :=
  (itemsName :: c.tables.map (·.name)).mergeSort fun a b => decide (a ≤ b)

end Contents

/-! ## Commands -/

/-- A statement that the database knows. -/
inductive Command
  | begin
  | commit
  | rollback
  | savepoint (name : String)
  | rollbackTo (name : String)
  /-- The bound values under names. -/
  | selectBound (names : List String)
  | insertItem
  /-- Gives one name to all items from an id on. -/
  | renameItems
  | deleteItem
  | listItems
  | countItems
  | listTables
  /-- Asks for a table that there never is. -/
  | selectMissing
  /-- Asks for two bound values. -/
  | selectTwo
  | createTable (table : TableName)
  /-- Changes a table that there never is. -/
  | alterMissing
  /-- A tracking table unless there is a table of that name. -/
  | createTracking (table : TableName)
  /-- A tracking table that keeps ids as texts. -/
  | createTextTracking (table : TableName)
  | selectLatest (table : TableName)
  | insertApplied (table : TableName)
deriving DecidableEq

/-- A text that is no command. -/
def Fault.unknownStatement (sql : String) : Error :=
  .sql ("unknown statement: " ++ sql) (some "1")

namespace Command

/-- The text of a command whose names need no quotes. -/
def plainSql : Command → Option String
  | .begin => "BEGIN"
  | .commit => "COMMIT"
  | .rollback => "ROLLBACK"
  | .insertItem => "INSERT INTO items (id, name) VALUES (?, ?)"
  | .renameItems => "UPDATE items SET name = ? WHERE id >= ?"
  | .deleteItem => "DELETE FROM items WHERE id = ?"
  | .listItems => "SELECT id, name FROM items ORDER BY id"
  | .countItems => "SELECT COUNT(*) AS n FROM items"
  | .listTables => "SELECT name FROM sqlite_master WHERE type = 'table' ORDER BY name"
  | .selectMissing => "SELECT * FROM missing"
  | .selectTwo => "SELECT ?, ?"
  | .alterMissing => "ALTER TABLE nowhere ADD COLUMN x INTEGER"
  | _ => none

/-- The commands that take no name. -/
def nameless : List Command :=
  [.begin, .commit, .rollback, .insertItem, .renameItems, .deleteItem, .listItems, .countItems,
    .listTables, .selectMissing, .selectTwo, .alterMissing]

/-- The columns of a table that migrations create. -/
def plainColumns : String := " (id INTEGER)"

/-- The columns of a tracking table that keeps ids as texts. -/
def textTrackingColumns : String := " (migration_id TEXT, name TEXT)"

/-- The text of a command that creates a table. -/
def createTableSql (name : String) : String := "CREATE TABLE " ++ name ++ plainColumns

/-! ### Reading -/

/-- The rest of a text behind its front. -/
def behind? (front : String) (sql : List Char) : Option (List Char) :=
  if front.toList.isPrefixOf sql then some (sql.drop front.length) else none

/-- Reads the names of a selection of bound values, up to `fuel` of them. -/
def readBound (sql : String) : Nat → List Char → Outcome (List String)
  | 0, _ => .error (Fault.unknownStatement sql)
  | fuel + 1, left =>
    match behind? "? AS " left with
    | none => .error ((Token.read sql left).1.misplaced sql)
    | some left => do
      let (column, rest) ← Mention.read sql left
      match behind? ", " rest with
      | some rest => return column.name :: (← readBound sql fuel rest)
      | none =>
        let (next, _) := Token.read sql rest
        if next.kind = .finish then return [column.name] else .error (next.misplaced sql)

/-- Reads a name after which the columns of a new table stand. -/
def readCreated (sql : String) (left : List Char) : Outcome Command := do
  let (table, rest) ← TableName.read sql left
  let columns := String.ofList rest
  if columns == plainColumns then return .createTable table
  else if columns == textTrackingColumns then return .createTextTracking table
  else .error ((Token.read sql rest).1.misplaced sql)

/-- Reads a name after which the columns of a tracking table stand. -/
def readTracking (sql : String) (left : List Char) : Outcome Command := do
  let (table, rest) ← TableName.read sql left
  let (next, _) := Token.read sql rest
  if next.written == "(" then return .createTracking table else .error (next.misplaced sql)

/-- Reads a text as a command. -/
def read (sql : String) : Outcome Command :=
  let cs := sql.toList
  match nameless.find? (fun c => c.plainSql == some sql) with
  | some c => .ok c
  | none =>
    let named :=
      (behind? "SAVEPOINT " cs).map (fun name => .ok (.savepoint (String.ofList name)))
      <|> (behind? "ROLLBACK TO SAVEPOINT " cs).map
        (fun name => .ok (.rollbackTo (String.ofList name)))
      <|> (behind? "SELECT MAX(migration_id) AS latest FROM " cs).map
        (fun left => (TableName.read sql left).map fun t => .selectLatest t.1)
      <|> (behind? "SELECT " cs).map
        (fun left => (readBound sql (left.length + 1) left).map .selectBound)
      <|> (behind? "INSERT INTO " cs).map
        (fun left => (TableName.read sql left).map fun t => .insertApplied t.1)
      <|> (behind? "CREATE TABLE IF NOT EXISTS " cs).map (readTracking sql)
      <|> (behind? "CREATE TABLE " cs).map (readCreated sql)
    named.getD (.error (Fault.unknownStatement sql))

/-- The number of values that a command binds. -/
def arity : Command → Nat
  | .insertItem | .renameItems | .selectTwo | .insertApplied _ => 2
  | .deleteItem => 1
  | .selectBound names => names.length
  | _ => 0

end Command

/-! ## Errors -/

namespace Fault

/-- A table that is not there. -/
def noSuchTable (name : String) : Error := .sql ("no such table: " ++ name) (some "1")

/-- A constraint that a row breaks. -/
def constraint (what column code : String) : Error :=
  .sql (what ++ " constraint failed: " ++ column) (some code)

/-- The refusal of an item without a name. -/
def nameMissing : Error := constraint "NOT NULL" "items.name" "1299"

/-- The refusal of an item whose id is there already. -/
def idTaken : Error := constraint "UNIQUE" "items.id" "1555"

/-- A table that is there already. -/
def tableExists (table : Mention) (sql : String) : Error :=
  inText ("table " ++ table.written ++ " already exists") sql table.offset

/-- A name that no table can be given. -/
def reservedName (name : String) : Error :=
  .sql ("object name reserved for internal use: " ++ name) (some "1")

/-- A number of parameters other than that of the placeholders. -/
def wrongArity (got needed : Nat) : Error :=
  .ofMessage ("Wrong number of parameters passed to query. Got " ++ toString got ++ ", needed " ++
    toString needed)

end Fault

/-! ## The database -/

/-- Contents, and the copies that an open transaction keeps: its beginning, and its savepoints with
the latest first. -/
structure Database where
  contents : Contents
  beginning : Option Contents
  savepoints : List (String × Contents)

namespace Database

/-- A database without items. -/
def empty : Database := ⟨.empty, none, []⟩

/-- Goes back to the latest savepoint of a name, which stays. -/
def goBack (name : String) (d : Database) : Outcome Database :=
  match d.savepoints.dropWhile fun s => s.1 != name with
  | [] => .error (.sql ("no such savepoint: " ++ name) (some "1"))
  | (n, contents) :: rest => .ok ⟨contents, d.beginning, (n, contents) :: rest⟩

/-- Changes the contents. -/
def withContents (d : Database) (c : Contents) : Database := { d with contents := c }

/-- The rows of a tracking table; the statement asks for its ids. -/
def trackingOf (d : Database) (table sql : String) : Outcome (Bool × List (Stored × Stored)) :=
  match d.contents.table? table with
  | some ⟨_, .tracking textIds rows⟩ => .ok (textIds, rows)
  | some ⟨_, .plain⟩ => .error noIds
  | none =>
    if d.contents.hasTable table then .error noIds else .error (Fault.noSuchTable table)
where
  /-- A table without a column for ids. -/
  noIds : Error := Fault.inText "no such column: migration_id" sql "SELECT MAX(".length

/-- Adds a row to a tracking table. -/
def track (table : String) (row : Stored × Stored) (c : Contents) : Contents :=
  { c with
    tables := c.tables.map fun t =>
      match t.kind with
      | .tracking textIds rows =>
        if TableName.sameName t.name table then
          let row := if textIds then (row.1.asText, row.2) else row
          { t with kind := .tracking textIds (rows ++ [row]) }
        else t
      | .plain => t }

/-- Creates a table. A name that is taken is refused, or left alone if `ifAbsent` is set. -/
def create (d : Database) (t : TableName) (kind : TableKind) (ifAbsent : Bool) (sql : String) :
    Outcome (ResultSet × Database) := do
  t.checkDatabase sql
  if TableName.isReserved t.table.name then .error (Fault.reservedName t.table.name)
  else if d.contents.hasTable t.table.name then
    if ifAbsent then return (.ofAffected 0, d) else .error (Fault.tableExists t.table sql)
  else return (.ofAffected 0, d.withContents (d.contents.addTable ⟨t.table.name, kind⟩))

/-- Runs a command with its bound values. -/
def execute (sql : String) (params : List Stored) (d : Database) :
    Command → Outcome (ResultSet × Database)
  | .begin => .ok (.ofAffected 0, { d with beginning := some d.contents, savepoints := [] })
  | .commit => .ok (.ofAffected 0, { d with beginning := none, savepoints := [] })
  | .rollback => .ok (.ofAffected 0, ⟨d.beginning.getD d.contents, none, []⟩)
  | .savepoint name =>
    .ok (.ofAffected 0, { d with savepoints := (name, d.contents) :: d.savepoints })
  | .rollbackTo name => (d.goBack name).map fun d => (.ofAffected 0, d)
  | .selectBound names => .ok (.ofRows names [params.map (·.toValue)], d)
  | .insertItem =>
    match params with
    | [.integer id, .text name] =>
      if (d.contents.items.lookup id).isSome then .error Fault.idTaken
      else
        .ok (.ofAffected 1,
          d.withContents { d.contents with items := Contents.insertItem id name d.contents.items })
    | _ => .error Fault.nameMissing
  | .renameItems =>
    match params with
    | [name, .integer id] =>
      let hit := fun (item : Int64 × String) => decide (id ≤ item.1)
      match name, (d.contents.items.filter hit).length with
      | .text name, n =>
        .ok (.ofAffected n, d.withContents { d.contents with
          items := d.contents.items.map fun item => if hit item then (item.1, name) else item })
      | _, 0 => .ok (.ofAffected 0, d)
      | _, _ => .error Fault.nameMissing
    | _ => .ok (.ofAffected 0, d)
  | .deleteItem =>
    let kept := d.contents.items.filter fun item => !params.contains (.integer item.1)
    .ok (.ofAffected (d.contents.items.length - kept.length),
      d.withContents { d.contents with items := kept })
  | .listItems =>
    .ok (.ofRows ["id", "name"] (d.contents.items.map fun item => [.int item.1, .text item.2]), d)
  | .countItems =>
    .ok (.ofRows ["n"] [[.int (Int64.ofNat d.contents.items.length)]], d)
  | .listTables => .ok (.ofRows ["name"] (d.contents.tableNames.map fun name => [.text name]), d)
  | .selectMissing => .error (Fault.noSuchTable "missing")
  | .selectTwo => .ok (.ofRows ["?", "?"] [params.map (·.toValue)], d)
  | .alterMissing => .error (Fault.noSuchTable "nowhere")
  | .createTable table => d.create table .plain false sql
  | .createTracking table => d.create table (.tracking false []) true sql
  | .createTextTracking table => d.create table (.tracking true []) false sql
  | .selectLatest table =>
    (d.trackingOf table.table.name sql).map fun (_, rows) =>
      (.ofRows ["latest"] [[(Stored.greatest (rows.map Prod.fst)).toValue]], d)
  | .insertApplied table =>
    match params with
    | [id, name] => .ok (.ofAffected 1, d.withContents (track table.table.name (id, name) d.contents))
    | _ => .ok (.ofAffected 0, d)

/-- Runs a text with bound values. A failure changes nothing. -/
def run (sql : String) (params : List Value) (d : Database) : Outcome ResultSet × Database :=
  match Command.read sql with
  | .error e => (.error e, d)
  | .ok command =>
    match d.execute sql (params.map Stored.bound) command with
    | .ok (result, after) =>
      if params.length = command.arity then (.ok result, after)
      else (.error (Fault.wrongArity params.length command.arity), d)
    | .error e => (.error e, d)

instance : Backend Database where
  connect _ d := (none, d)
  respond _ r d :=
    let (outcome, d) := d.run r.sql r.params
    (.answer outcome, d)

end Database

end Sqlite

end SqlClient
