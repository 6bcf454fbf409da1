import SqlClient.Fragment
import SqlClient.Identifier
import SqlClient.Names
/-!
# Compiling fragments

A fragment is compiled in two passes. The first walks the tree from left to right and flattens it
into pieces: text, bound values, and finished text with values of its own. The second joins the
pieces and gives every bound value the placeholder of its position among all values.
-/

namespace SqlClient

/-- The text of a statement and its values in order. -/
structure Compiled where
  sql : String
  params : List Value
deriving DecidableEq

/-- What is settled about writing statements. -/
structure Compiler where
  dialect : Dialect
  placeholder : PlaceholderStyle
  quote : QuoteStyle
  transform : Option NameTransform

namespace Compiler

/-- The compiler of a dialect with the dialect's own marks. -/
def ofDialect (d : Dialect) : Compiler := ⟨d, d.placeholder, d.quote, none⟩

/-- A name as it is written: transformed, then quoted. -/
def quoteIdentifier (c : Compiler) (name : String) : String :=
  let name := match c.transform with
    | some transform => transform name
    | none => name
  String.ofList (c.quote.quoteName name.toList)

end Compiler

/-! ## Pieces -/

/-- A piece of a flattened fragment. -/
inductive Piece
  | text (sql : String)
  | bound (value : Value)
  | spliced (sql : String) (params : List Value)
deriving DecidableEq

namespace Piece

/-- Pieces with a text between them. -/
def separated (separator : String) : List (List Piece) → List Piece
  | [] => []
  | [one] => one
  | one :: rest => one ++ .text separator :: separated separator rest

/-- The values of pieces, in order. -/
def params : List Piece → List Value
  | [] => []
  | .text _ :: rest => params rest
  | .bound v :: rest => v :: params rest
  | .spliced _ vs :: rest => vs ++ params rest

end Piece

/-! ## Records -/

/-- Whether a record has exactly the given columns, in any order. -/
def Record.hasColumns (r : Record) (columns : List String) : Bool :=
  r.size == columns.length && columns.all fun c => (r.get? c).isSome

/-- What is wrong with the records of a helper. -/
inductive RecordFault
  | noRecords
  | noColumns
  | mismatch (row : Nat) (found expected : List String)

/-- The text of a fault for the helper that met it. -/
def RecordFault.message (what : String) : RecordFault → String
  | .noRecords => what ++ " requires at least one record"
  | .noColumns => what ++ " requires at least one column"
  | .mismatch row found expected =>
    what ++ " record " ++ toString row ++ " has columns [" ++ ", ".intercalate found ++
      "], expected [" ++ ", ".intercalate expected ++ "]"

/-- The first record, from position `row` on, whose columns are not the given ones. -/
def firstMismatch (columns : List String) : Nat → List Record → Option RecordFault
  | _, [] => none
  | row, r :: rest =>
    if r.hasColumns columns then firstMismatch columns (row + 1) rest
    else some (.mismatch row r.columns columns)

/-- The columns of the first record, once every other record has the same. -/
def sharedColumns : List Record → Except RecordFault (List String)
  | [] => .error .noRecords
  | first :: rest =>
    if first.isEmpty then .error .noColumns
    else
      match firstMismatch first.columns 1 rest with
      | some fault => .error fault
      | none => .ok first.columns

namespace Compiler

/-- A list of names. -/
def columnPieces (c : Compiler) (columns : List String) : List Piece :=
  Piece.separated ", " (columns.map fun name => [.text (c.quoteIdentifier name)])

/-- The values of a record in parentheses, in the order of `columns`. -/
def rowPieces (columns : List String) (r : Record) : List Piece :=
  .text "(" ::
    (Piece.separated ", " (columns.map fun name => [.bound ((r.get? name).getD .null)]) ++ [.text ")"])

/-- Rows with commas between them. -/
def rowsPieces (columns : List String) (rows : List Record) : List Piece :=
  Piece.separated ", " (rows.map (rowPieces columns))

/-- `(columns) VALUES (…), (…)`. -/
def insertPieces (c : Compiler) (records : List Record) : Outcome (List Piece) :=
  match sharedColumns records with
  | .error fault => .error (.compile (fault.message "insert"))
  | .ok columns =>
    .ok (.text "(" :: (c.columnPieces columns ++ .text ") VALUES " :: rowsPieces columns records))

/-- `column = value, …` without the omitted columns. -/
def updatePieces (c : Compiler) (r : Record) (omitted : List String) : Outcome (List Piece) :=
  match r.entries.filter fun e => !omitted.contains e.1 with
  | [] => .error (.compile "update requires at least one column")
  | kept =>
    .ok (Piece.separated ", " (kept.map fun e =>
      [.text (c.quoteIdentifier e.1), .text " = ", .bound e.2]))

/-- `(values (…), (…)) AS table(columns)`. -/
def valuesPieces (c : Compiler) (rows : List Record) (table : String) : Outcome (List Piece) :=
  match sharedColumns rows with
  | .error fault => .error (.compile (fault.message "values table"))
  | .ok columns =>
    .ok (.text "(values " :: (rowsPieces columns rows ++
      .text ") AS " :: .text (c.quoteIdentifier table) :: .text "(" ::
        (c.columnPieces columns ++ [.text ")"])))

/-- A refusal of what a dialect lacks. -/
def unsupported (d : Dialect) (what : String) : Error :=
  .unimplemented (what ++ " are not supported by " ++ d.name)

/-- The value that a document is bound as: some dialects take it as text. -/
def documentValue (d : Dialect) (doc : Json) : Value :=
  match d with
  | .postgres | .mysql => .json doc
  | .sqlite | .mssql => .text doc.write

/-- An array literal, which only one dialect has. -/
def arrayPieces (d : Dialect) (items : List Value) : Outcome (List Piece) :=
  match d with
  | .postgres =>
    .ok (.text "ARRAY [" :: (Piece.separated ", " (items.map fun v => [.bound v]) ++ [.text "]"]))
  | .sqlite | .mysql | .mssql => .error (unsupported d "array literals")

/-- A values table, which two dialects have. -/
def tablePieces (c : Compiler) (rows : List Record) (table : String) : Outcome (List Piece) :=
  match c.dialect with
  | .postgres | .mssql => c.valuesPieces rows table
  | .sqlite | .mysql => .error (unsupported c.dialect "values tables")

/-! ## The walk -/

mutual

/-- Flattens a fragment. The first fault from the left ends the walk. -/
def pieces (c : Compiler) : Fragment → Outcome (List Piece)
  | .raw sql => .ok [.text sql]
  | .ident name => .ok [.text (c.quoteIdentifier name)]
  | .param value => .ok [.bound value]
  | .list separator items parenthesized =>
    match itemPieces c items with
    | .error e => .error e
    | .ok parts =>
      let body := Piece.separated separator parts
      .ok (if parenthesized then .text "(" :: (body ++ [.text ")"]) else body)
  | .insert records => c.insertPieces records
  | .update record omitted => c.updatePieces record omitted
  | .array items => arrayPieces c.dialect items
  | .json doc => .ok [.bound (documentValue c.dialect doc)]
  | .values rows table => c.tablePieces rows table
  | .spliced sql params => .ok [.spliced sql params]

/-- Flattens the items of a list. -/
def itemPieces (c : Compiler) : List Fragment → Outcome (List (List Piece))
  | [] => .ok []
  | f :: rest =>
    match pieces c f with
    | .error e => .error e
    | .ok part =>
      match itemPieces c rest with
      | .error e => .error e
      | .ok parts => .ok (part :: parts)

end

/-! ## Joining -/

/-- Appends a piece to what is written. -/
def addPiece (style : PlaceholderStyle) (out : String × Array Value) : Piece → String × Array Value
  | .text sql => (out.1 ++ sql, out.2)
  | .bound v => (out.1 ++ style.write (out.2.size + 1), out.2.push v)
  | .spliced sql vs => (out.1 ++ sql, out.2 ++ vs.toArray)

/-- Joins pieces into a statement. -/
def assemble (style : PlaceholderStyle) (parts : List Piece) : Compiled :=
  let out := parts.foldl (addPiece style) ("", #[])
  ⟨out.1, out.2.toList⟩

/-- The statement of a fragment. -/
def compile (c : Compiler) (f : Fragment) : Outcome Compiled :=
  match c.pieces f with
  | .error e => .error e
  | .ok parts => .ok (assemble c.placeholder parts)

end Compiler

end SqlClient
