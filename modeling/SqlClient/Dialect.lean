/-!
# Dialects

The SQL dialects that statements can be written for, and how each writes placeholders and quotes
names.
-/

namespace SqlClient

/-- A dialect of SQL. -/
inductive Dialect
  | postgres
  | sqlite
  | mysql
  | mssql
deriving DecidableEq, Repr

namespace Dialect

/-- The name of a dialect. -/
def name : Dialect → String
  | .postgres => "postgres"
  | .sqlite => "sqlite"
  | .mysql => "mysql"
  | .mssql => "mssql"

/-- Every dialect, in the order in which messages list them. -/
def all : List Dialect := [.postgres, .sqlite, .mysql, .mssql]

/-- The dialect with a name. -/
def ofName? (text : String) : Option Dialect := all.find? (·.name == text)

/-- Text with its ASCII letters made small. -/
def smallAscii (text : String) : String := String.ofList (text.toList.map Char.toLower)

/-- The dialect that a command line names; letters of either case do if `anyCase` is set. -/
def ofArgument (anyCase : Bool) (text : String) : Except String Dialect :=
  match ofName? (if anyCase then smallAscii text else text) with
  | some d => .ok d
  | none => .error ("invalid variant: " ++ text)

/-- The dialect that a document names. -/
def ofDocument (text : String) : Except String Dialect :=
  match ofName? text with
  | some d => .ok d
  | none =>
    let quoted := all.map fun d => "`" ++ d.name ++ "`"
    .error ("unknown variant `" ++ text ++ "`, expected one of " ++ ", ".intercalate quoted)

end Dialect

/-! ## Placeholders -/

/-- How a bound value is written into the text. -/
inductive PlaceholderStyle
  /-- `$1, $2, …` -/
  | dollar
  /-- `?, ?, …` -/
  | question
  /-- `?1, ?2, …` -/
  | questionNumbered
  /-- `@p1, @p2, …` -/
  | atP
deriving DecidableEq, Repr

namespace PlaceholderStyle

/-- The placeholder of the value at a position, counted from one. -/
def write (s : PlaceholderStyle) (ordinal : Nat) : String :=
  match s with
  | .dollar => "$" ++ toString ordinal
  | .question => "?"
  | .questionNumbered => "?" ++ toString ordinal
  | .atP => "@p" ++ toString ordinal

end PlaceholderStyle

/-! ## Quotes -/

/-- How names are quoted. -/
inductive QuoteStyle
  /-- Between double quotes. -/
  | doubleQuote
  /-- Between grave accents. -/
  | backtick
  /-- Between square brackets. -/
  | bracket
deriving DecidableEq, Repr

namespace Dialect

/-- The placeholders of a dialect. -/
def placeholder : Dialect → PlaceholderStyle
  | .postgres => .dollar
  | .sqlite => .question
  | .mysql => .question
  | .mssql => .atP

/-- The quotes of a dialect. -/
def quote : Dialect → QuoteStyle
  | .postgres => .doubleQuote
  | .sqlite => .doubleQuote
  | .mysql => .backtick
  | .mssql => .bracket

end Dialect

end SqlClient
