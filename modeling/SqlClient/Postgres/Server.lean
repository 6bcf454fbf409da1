import SqlClient.Client.Run
import SqlClient.Postgres.Column
import SqlClient.Text.Integer
/-!
# PostgreSQL — a scripted server

A server that announces the same parameters and columns for every statement and sends the same
rows, and how a client of it runs statements: it has the statement parsed, writes the parameters as
their announced types, and reads the rows by the types of their columns. What the server is sent is
kept.
-/

namespace SqlClient

namespace Postgres

/-- What a server is sent. -/
inductive Message
  /-- Text to be run as it is. -/
  | query (sql : String)
  | parse (sql : String)
  | bind (params : List (Option (List UInt8)))

/-- The stage at which a server fails. -/
inductive Stage
  | prepare
  | execute
  | script
deriving DecidableEq, Repr

/-- A scripted server. -/
structure Server where
  paramTypes : List PgType
  columns : List (String × PgType)
  rows : List (List (Option (List UInt8)))
  /-- What a finished statement is reported with. -/
  tag : String
  /-- A stage that fails, with a code. -/
  failure : Option (Stage × String)
  received : List Message

namespace Server

/-- Notes what is sent. -/
def receive (s : Server) (m : Message) : Server := { s with received := s.received ++ [m] }

/-- The error of a stage, if it is to fail. -/
def fault? (s : Server) (stage : Stage) : Option Error :=
  match s.failure with
  | some (failing, code) => if failing = stage then some (.sql "db error" (some code)) else none
  | none => none

/-- Writes the parameters; the error names the first that cannot be written. -/
def bindAll (types : List PgType) (params : List Value) :
    Outcome (List (Option (List UInt8))) :=
  if types.length = params.length then
    (types.zip params).zipIdx.mapM fun ((type, v), i) =>
      match bindChecked v type with
      | some bytes => .ok bytes
      | none => .error (.ofMessage ("error serializing parameter " ++ toString i))
  else
    .error (.ofMessage ("expected " ++ toString types.length ++ " parameters but got " ++
      toString params.length))

/-- Reads the columns of a row; the error names the first that cannot be read. -/
def readRow (columns : List (String × PgType)) (row : List (Option (List UInt8))) :
    Outcome (List Value) :=
  (columns.zip row).zipIdx.mapM fun ((column, content), i) =>
    match readColumn column.2 content with
    | some v => .ok v
    | none => .error (.ofMessage ("error deserializing column " ++ toString i))

/-- The number of affected rows in a tag: its last word, if that is a number. -/
def affectedOf (tag : String) : Nat :=
  let word := (tag.toList.reverse.takeWhile (· != ' ')).reverse
  ((readNat (pow2 64 - 1) word).toOption).getD 0

/-- What a finished statement returns. -/
def resultOf (s : Server) : Outcome ResultSet :=
  if s.columns.isEmpty then .ok (.ofAffected (affectedOf s.tag))
  else (s.rows.mapM (readRow s.columns)).map (.ofRows (s.columns.map Prod.fst))

/-- Runs a statement. -/
def runStatement (sql : String) (params : List Value) (s : Server) : Outcome ResultSet × Server :=
  let s := s.receive (.parse sql)
  match s.fault? .prepare with
  | some e => (.error e, s)
  | none =>
    match bindAll s.paramTypes params with
    | .error e => (.error e, s)
    | .ok bound =>
      let s := s.receive (.bind bound)
      match s.fault? .execute with
      | some e => (.error e, s)
      | none => (s.resultOf, s)

/-- Runs a script. -/
def runScript (sql : String) (s : Server) : Outcome ResultSet × Server :=
  let s := s.receive (.query sql)
  match s.fault? .script with
  | some e => (.error e, s)
  | none => (.ok (.ofAffected 0), s)

/-- A connection is checked before it is handed out. -/
instance : Backend Server where
  connect _ s := (none, s.receive (.query "SELECT 1"))
  respond _ r s :=
    let (outcome, s) := match r with
      | .statement sql params => s.runStatement sql params
      | .script sql => s.runScript sql
    (.answer outcome, s)

/-- Runs work of a client of the server: the outcome, and what the server was sent. -/
def play {α : Type} (transforms : NameTransforms) (s : Server) (work : Client → Work Server α) :
    Outcome (Option (Outcome α × List Message)) :=
  let options : ClientOptions := ⟨.postgres, true, false, none, transforms, none⟩
  options.settings.map fun settings =>
    (Coroutine.run (work ⟨settings, none, 0⟩).run (Store.start s .default)).map
      fun (outcome, after) => (outcome, after.backend.received)

end Server

end Postgres

end SqlClient
