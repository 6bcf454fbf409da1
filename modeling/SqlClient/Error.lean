/-!
# Errors

Every operation that can fail fails with an `Error`: the layer that failed, and what it has to say.
An error is plain data, since one failed batch is reported to every request in it.
-/

namespace SqlClient

/-- The side of a checked call whose data did not fit its shape. -/
inductive Direction
  | request
  | result
deriving DecidableEq, Repr

namespace Direction

def name : Direction → String
  | .request => "request"
  | .result => "result"

end Direction

/-- Why a migration run stopped. -/
inductive MigrationFault
  /-- The tracking table holds what cannot be read as an id. -/
  | badState
  /-- A script could not be loaded. -/
  | importError
  /-- A migration failed while it ran. -/
  | failed
  /-- Two migrations have one id. -/
  | duplicates
deriving DecidableEq, Repr

namespace MigrationFault

def name : MigrationFault → String
  | .badState => "bad-state"
  | .importError => "import-error"
  | .failed => "failed"
  | .duplicates => "duplicates"

end MigrationFault

/-- What can go wrong. -/
inductive Error
  /-- The database or the way to it failed; `code` is the vendor's code. -/
  | sql (message : String) (code : Option String)
  /-- A batch got a number of answers other than that of its requests. -/
  | lengthMismatch (expected actual : Nat)
  /-- Data did not fit a shape. -/
  | schema (direction : Direction) (causes : List String)
  | migration (fault : MigrationFault) (message : String)
  /-- A fragment cannot be written. -/
  | compile (message : String)
  /-- Settings are inconsistent or missing. -/
  | config (message : String)
  /-- The dialect lacks a feature. -/
  | unimplemented (message : String)
  /-- A handle was used after what it belongs to had ended. -/
  | invalidState (message : String)
deriving DecidableEq, Repr

namespace Error

/-- A database error without a code. -/
def ofMessage (message : String) : Error := .sql message none

/-- No connection of a pool came free in time. -/
def poolTimeout : Error := ofMessage "timed out waiting for a pooled connection"

/-- A query that had to return a row returned none. -/
def noRows : Error := ofMessage "Query returned no rows"

/-- Why a client of an ended transaction scope refuses to work. -/
def scopeEnded : Error :=
  .invalidState
    "transaction scope has already completed; its client can no longer run statements"

/-- The text of an error. -/
def message : Error → String
  | .sql m _ => "SQL error: " ++ m
  | .lengthMismatch expected actual =>
    "result length mismatch: expected " ++ toString expected ++ ", got " ++ toString actual
  | .schema d causes => "schema error (" ++ d.name ++ "): " ++ "; ".intercalate causes
  | .migration fault m => "migration error (" ++ fault.name ++ "): " ++ m
  | .compile m => "compile error: " ++ m
  | .config m => "Configuration error: " ++ m
  | .unimplemented m => "Unimplemented feature: " ++ m
  | .invalidState m => "invalid state: " ++ m

/-- Whether the same call may succeed when it is repeated. -/
def isRetryable : Error → Bool
  | .sql _ _ => true
  | _ => false

end Error

/-- A computation that may fail. -/
abbrev Outcome (α : Type) := Except Error α

end SqlClient
