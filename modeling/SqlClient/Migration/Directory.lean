import SqlClient.Migration.Basic
import SqlClient.Text.Utf8
import SqlClient.Unicode.Classes
/-!
# Migrations — directories of scripts

A directory spells migrations by its scripts: files named by digits, an underscore, a name without
dots, and `.sql`. The digits are the id. Everything else in the directory is passed over, but a
script whose id or text cannot be read is refused, and the directory with it.
-/

namespace SqlClient

/-- What a directory has under a name. -/
inductive EntryContent
  | file (bytes : List UInt8)
  | directory
  /-- The system does not let it be read, and says why. -/
  | unreadable (why : String)
deriving DecidableEq

/-- An entry of a directory. Names are bytes, and may be no text at all. -/
structure DirectoryEntry where
  name : List UInt8
  content : EntryContent
deriving DecidableEq

/-- A migration that is a script. -/
structure MigrationScript where
  id : Int64
  name : String
  sql : String
deriving DecidableEq

namespace MigrationScript

/-! ## File names -/

/-- What every script's file name ends in. -/
def fileEnding : List Char := ['.', 's', 'q', 'l']

/-- The digits and the name in the file name of a script; `none` for other file names. Digits of
every writing system count. -/
def splitFileName? (fileName : List Char) : Option (List Char × List Char) :=
  let digits := fileName.takeWhile Unicode.isDecimalDigit
  match fileName.dropWhile Unicode.isDecimalDigit with
  | '_' :: rest =>
    let name := rest.takeWhile (· != '.')
    if digits ≠ [] ∧ name ≠ [] ∧ rest.dropWhile (· != '.') = fileEnding then some (digits, name)
    else none
  | _ => none

/-! ## Reading -/

/-- Why a script cannot be read. -/
inductive Fault
  /-- The digits are no id. -/
  | id (fault : IntegerFault)
  /-- There is a directory where the script should be. -/
  | isDirectory
  /-- The system does not let the script be read, and says why. -/
  | unreadable (why : String)
  /-- The content is not UTF-8. -/
  | notText
deriving DecidableEq, Repr

/-- The text of a fault. -/
def Fault.message : Fault → String
  | .id fault => fault.message
  | .isDirectory => "Is a directory (os error 21)"
  | .unreadable why => why
  | .notText => "stream did not contain valid UTF-8"

/-- The text of a script. -/
def readContent : EntryContent → Except Fault String
  | .directory => .error .isDirectory
  | .unreadable why => .error (.unreadable why)
  | .file bytes =>
    match decodeText? bytes with
    | some sql => .ok sql
    | none => .error .notText

/-- The id that digits spell. -/
def readId (digits : List Char) : Except Fault Int64 :=
  match readInt64 (String.ofList digits) with
  | .ok id => .ok id
  | .error fault => .error (.id fault)

/-- The script of an entry, if its name is one of a script. -/
def ofEntry (entry : DirectoryEntry) : Outcome (Option MigrationScript) :=
  match decodeText? entry.name with
  | none => .ok none
  | some fileName =>
    match splitFileName? fileName.toList with
    | none => .ok none
    | some (digits, name) =>
      let script : Except Fault MigrationScript := do
        let id ← readId digits
        return ⟨id, String.ofList name, ← readContent entry.content⟩
      match script with
      | .ok script => .ok (some script)
      | .error fault =>
        .error (.migration .importError (fileName ++ ": " ++ fault.message))

/-- The scripts of a directory in the order of their ids; those of one id stay in the order in which
the directory lists them. A directory that cannot be listed has none. -/
def ofDirectory (listing : Option (List DirectoryEntry)) : Outcome (List MigrationScript) :=
  match (listing.getD []).mapM ofEntry with
  | .error e => .error e
  | .ok scripts =>
    .ok ((scripts.filterMap (fun s => s)).mergeSort fun a b => decide (a.id ≤ b.id))

/-- A script as a migration. -/
def toMigration {β : Type} (s : MigrationScript) : Migration β := ⟨s.id, s.name, .script s.sql⟩

end MigrationScript

/-- The migrator of the scripts of a directory. -/
def Migrator.ofScripts {β : Type} (scripts : List MigrationScript) : Migrator β :=
  ⟨scripts.map MigrationScript.toMigration, Migrator.defaultTable⟩

end SqlClient
