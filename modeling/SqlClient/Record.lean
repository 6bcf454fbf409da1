import SqlClient.Error
import SqlClient.Value
/-!
# Records

A record maps columns to values in the order in which the columns were first set.
-/

namespace SqlClient

/-- An ordered map from columns to values. -/
structure Record where
  entries : List (String × Value)
deriving DecidableEq

namespace Record

/-- The record without columns. -/
def empty : Record := ⟨[]⟩

instance : Inhabited Record := ⟨empty⟩

/-- Sets a column among entries: in its place if it is there, at the end if not. -/
def setEntry (column : String) (value : Value) : List (String × Value) → List (String × Value)
  | [] => [(column, value)]
  | (c, v) :: rest =>
    if c = column then (c, value) :: rest else (c, v) :: setEntry column value rest

/-- Sets a column. -/
def set (r : Record) (column : String) (value : Value) : Record :=
  ⟨setEntry column value r.entries⟩

/-- The value of a column. -/
def get? (r : Record) (column : String) : Option Value := r.entries.lookup column

/-- The columns in order. -/
def columns (r : Record) : List String := r.entries.map Prod.fst

/-- The number of columns. -/
def size (r : Record) : Nat := r.entries.length

/-- Whether there are no columns. -/
def isEmpty (r : Record) : Bool := r.entries.isEmpty

/-- The record that setting these columns one after another builds. -/
def ofList (entries : List (String × Value)) : Record :=
  entries.foldl (fun r e => r.set e.1 e.2) empty

/-- The record of an object: its members in the order of their keys, scalars as scalars. Anything
else is refused. -/
def ofJson : Json → Outcome Record
  | .object members => .ok (ofList (members.map fun m => (m.1, Value.ofJson m.2)))
  | other => .error (.schema .request ["expected an object, got " ++ other.write])

end Record

end SqlClient
