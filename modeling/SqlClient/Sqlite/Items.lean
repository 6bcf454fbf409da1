import SqlClient.Session.Run
import SqlClient.Sqlite.Database
/-!
# SQLite — sessions on a database of items

The steps that a session on the table of items is made of, and sessions of them.
-/

namespace SqlClient

namespace Sqlite

namespace Items

/-- A command with bound values as a step. -/
def step (c : Command) (params : List Value) (mode : FetchMode) : Step :=
  .fragment (.spliced (c.plainSql.getD "") params) mode

/-- Adds an item; without a name it is refused. -/
def insert (id : Int64) (name : Option String) : Step :=
  step .insertItem [.int id, (name.map .text).getD .null] .execute

/-- Adds items side by side. -/
def insertAll (items : List (Int64 × Option String)) : Step :=
  .join (items.map fun item => [insert item.1 item.2])

/-- Gives one name to all items from an id on. -/
def rename (id : Int64) (name : Option String) : Step :=
  step .renameItems [(name.map .text).getD .null, .int id] .execute

/-- Deletes an item. -/
def delete (id : Int64) : Step := step .deleteItem [.int id] .execute

/-- The items in the order of their ids. -/
def list : Step := step .listItems [] .fetch

/-- The number of items. -/
def count : Step := step .countItems [] .values

/-- The names of all tables. -/
def tables : Step := step .listTables [] .values

/-- Asks for a table that is not there. -/
def missing : Step := step .selectMissing [] .fetch

/-- Binds one value of two. -/
def tooFew : Step := step .selectTwo [.int 1] .fetch

/-- A migration that creates a table, or one that fails because it needs a table that is not
there. -/
def migration (id : Int64) (name : String) (table : Option String) : MigrationStep :=
  .script id name
    (match table with
    | some table => Command.createTableSql table
    | none => (Command.plainSql .alterMissing).getD "")

/-- Prepares a tracking table that keeps ids as texts, with one row. -/
def badTracking (id : Value) : Step :=
  .group [.script ("CREATE TABLE " ++ Migrator.defaultTable ++ Command.textTrackingColumns),
    .fragment
      (.spliced (Migrator.insertApplied .sqlite
        (String.ofList (QuoteStyle.quoteName .doubleQuote Migrator.defaultTable.toList)))
        [id, .text "legacy"])
      .execute]

/-- The fragment that selects bound values as columns `colName_0`, `colName_1`, and so on. -/
def selectBound (values : List Value) : Fragment :=
  let columns := values.zipIdx.map fun (v, i) =>
    Fragment.concat [.param v, .raw " AS ", .ident ("colName_" ++ toString i)]
  .concat [.raw "SELECT ", .list ", " columns false]

/-- Runs a session on an empty database of items. -/
def play (transforms : NameTransforms) (steps : List Step) :
    Outcome (Option (List StepAnswer)) :=
  let options : ClientOptions := ⟨.sqlite, true, false, none, transforms, none⟩
  (Session.play options .default Database.empty steps).map fun result => result.map Prod.fst

end Items

end Sqlite

end SqlClient
