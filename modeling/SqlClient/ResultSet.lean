import SqlClient.Value
/-!
# Result sets

What a statement returns: rows of values under one list of column names, and the number of rows it
affected. A name that occurs twice means its first column.
-/

namespace SqlClient

/-- One row under the column names of its result set. -/
structure Row where
  columns : List String
  values : List Value
deriving DecidableEq

namespace Row

/-- The position of the first column with a name. -/
def indexOf? (r : Row) (column : String) : Option Nat := r.columns.findIdx? (· == column)

/-- The value of a column; `none` without such a column or without a value in it. -/
def get? (r : Row) (column : String) : Option Value :=
  (r.indexOf? column).bind fun i => r.values[i]?

/-- The members of a row: each name with its value, as far as both go. -/
def members (r : Row) : List (String × Json) :=
  (r.columns.zip r.values).map fun m => (m.1, m.2.toJson)

/-- The object of a row; of two columns with one name the later stays. -/
def toJson (r : Row) : Json := .ofMembers r.members

/-- The text of a row with its columns in order, repeated ones included. -/
def write (r : Row) : String := (Json.object r.members).write

end Row

/-- The rows of a statement and the number of rows it affected. -/
structure ResultSet where
  columns : List String
  rows : List (List Value)
  affected : Nat
deriving DecidableEq, Inhabited

namespace ResultSet

/-- No rows yet under the given columns. -/
def withColumns (columns : List String) : ResultSet := ⟨columns, [], 0⟩

/-- The result of a statement without rows. -/
def ofAffected (n : Nat) : ResultSet := ⟨[], [], n⟩

/-- Adds a row, which counts as affected. -/
def push (rs : ResultSet) (values : List Value) : ResultSet :=
  { rs with rows := rs.rows ++ [values], affected := rs.affected + 1 }

/-- The result set with these rows, all of them affected. -/
def ofRows (columns : List String) (rows : List (List Value)) : ResultSet :=
  ⟨columns, rows, rows.length⟩

/-- Replaces the number of affected rows. -/
def setAffected (rs : ResultSet) (n : Nat) : ResultSet := { rs with affected := n }

/-- The number of rows. -/
def size (rs : ResultSet) : Nat := rs.rows.length

/-- Whether there are no rows. -/
def isEmpty (rs : ResultSet) : Bool := rs.rows.isEmpty

/-- The rows with their column names. -/
def toRows (rs : ResultSet) : List Row := rs.rows.map fun values => ⟨rs.columns, values⟩

/-- A row by position. -/
def row? (rs : ResultSet) (i : Nat) : Option Row :=
  rs.rows[i]?.map fun values => ⟨rs.columns, values⟩

/-- Renames every column. -/
def renameColumns (rename : String → String) (rs : ResultSet) : ResultSet :=
  { rs with columns := rs.columns.map rename }

/-- Renames every column and every key of the documents in the rows. -/
def transform (rename : String → String) (rs : ResultSet) : ResultSet :=
  { rs.renameColumns rename with
    rows := rs.rows.map fun values => values.map fun
      | .json doc => .json (doc.renameKeys rename)
      | value => value }

/-- The rows as JSON text, columns in order. -/
def write (rs : ResultSet) : String :=
  "[" ++ ",".intercalate (rs.toRows.map Row.write) ++ "]"

/-- The rows as a document. -/
def toJson (rs : ResultSet) : Json := .array (rs.toRows.map Row.toJson)

end ResultSet

end SqlClient
