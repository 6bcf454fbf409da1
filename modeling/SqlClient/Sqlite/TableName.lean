import SqlClient.Error
import SqlClient.Identifier
/-!
# SQLite — names in statements

A statement names a table by a word or by a quoted text, after the name of a database and a dot if
need be. Where neither stands, the fault tells the place as a number of bytes from the beginning of
the statement, and shows what stands there instead.
-/

namespace SqlClient

namespace Sqlite

/-! ## Faults -/

namespace Fault

/-- A statement that is wrong at a place in its text. -/
def inText (message sql : String) (offset : Nat) : Error :=
  .ofMessage (message ++ " in " ++ sql ++ " at offset " ++ toString offset)

/-- Something that cannot stand where it stands. -/
def near (written sql : String) (offset : Nat) : Error :=
  inText ("near \"" ++ written ++ "\": syntax error") sql offset

/-- Characters that mean nothing. -/
def unrecognized (written sql : String) (offset : Nat) : Error :=
  inText ("unrecognized token: \"" ++ written ++ "\"") sql offset

/-- A statement that ends too soon. -/
def incomplete : Error := .sql "incomplete input" (some "1")

end Fault

/-! ## Tokens -/

/-- What a token is. -/
inductive TokenKind
  /-- The end of the statement. -/
  | finish
  /-- A name, written as a word or in quotes. -/
  | name (text : String)
  | other
  | meaningless
deriving DecidableEq

/-- A token, the text it is written with, and its place in the statement. -/
structure Token where
  kind : TokenKind
  written : String
  offset : Nat

namespace Token

/-- The words that cannot be names. -/
def reservedWords : List String := [
  "add", "all", "alter", "and", "as", "autoincrement", "between", "case", "check", "collate",
  "commit", "constraint", "create", "default", "deferrable", "delete", "distinct", "drop", "else",
  "escape", "except", "exists", "foreign", "from", "group", "having", "in", "index", "insert",
  "intersect", "into", "is", "isnull", "join", "limit", "not", "nothing", "notnull", "null", "on",
  "or", "order", "primary", "references", "returning", "select", "set", "table", "then", "to",
  "transaction", "union", "unique", "update", "using", "values", "when", "where"]

/-- Whether a character can stand inside a word. -/
def isWordChar (c : Char) : Bool := c.isAlphanum || c == '_' || c == '$' || 0x80 ≤ c.toNat

/-- Whether a character separates tokens. -/
def isBlank (c : Char) : Bool := c == ' ' || c == '\t' || c == '\n' || c == '\r' || c.toNat == 12

/-- The number of bytes of some characters. -/
def byteCount (cs : List Char) : Nat := cs.foldl (fun n c => n + c.utf8Size) 0

/-- A quoted text with this closing mark, whose opening mark has been read. -/
def ofQuoted (q : QuoteStyle) (cs : List Char) : TokenKind × List Char :=
  match q.readBody cs with
  | some (name, rest) => (.name (String.ofList name), rest)
  | none => (.meaningless, [])

/-- What the first token of a text is, and the text behind it. -/
def classify : List Char → TokenKind × List Char
  | [] => (.finish, [])
  | '"' :: rest => ofQuoted .doubleQuote rest
  | '\x60' :: rest => ofQuoted .backtick rest
  | c :: rest =>
    if isWordChar c then
      let word := (c :: rest).takeWhile isWordChar
      let text := String.ofList word
      let kind :=
        if c.isDigit then if word.all Char.isDigit then .other else .meaningless
        else if c == '$' then if word.length = 1 then .meaningless else .other
        else if reservedWords.contains (Dialect.smallAscii text) then .other
        else .name text
      (kind, (c :: rest).dropWhile isWordChar)
    else (.other, rest)

/-- Reads the next token of a statement from what is left of it. -/
def read (sql : String) (left : List Char) : Token × List Char :=
  let cs := left.dropWhile isBlank
  let (kind, rest) := classify cs
  (⟨kind, String.ofList (cs.take (cs.length - rest.length)), sql.utf8ByteSize - byteCount cs⟩, rest)

/-- The fault of a statement that has this token where it does not belong. -/
def misplaced (t : Token) (sql : String) : Error :=
  match t.kind with
  | .finish => Fault.incomplete
  | .meaningless => Fault.unrecognized t.written sql t.offset
  | .name _ | .other => Fault.near t.written sql t.offset

end Token

/-! ## Names -/

/-- A name in a statement: its text, the text it is written with, and its place. -/
structure Mention where
  name : String
  written : String
  offset : Nat
deriving DecidableEq

/-- Reads a name. -/
def Mention.read (sql : String) (left : List Char) : Outcome (Mention × List Char) :=
  match Token.read sql left with
  | (⟨.name text, written, offset⟩, rest) => .ok (⟨text, written, offset⟩, rest)
  | (t, _) => .error (t.misplaced sql)

/-- The name of a table, and of the database it is in if that is given. -/
structure TableName where
  database : Option Mention
  table : Mention
deriving DecidableEq

namespace TableName

/-- Reads the name of a table. -/
def read (sql : String) (left : List Char) : Outcome (TableName × List Char) := do
  let (first, rest) ← Mention.read sql left
  match Token.read sql rest with
  | (⟨.other, ".", _⟩, rest) => do
    let (second, rest) ← Mention.read sql rest
    return (⟨some first, second⟩, rest)
  | _ => return (⟨none, first⟩, rest)

/-- Names are the same if they differ in the case of ASCII letters only. -/
def sameName (a b : String) : Bool := Dialect.smallAscii a == Dialect.smallAscii b

/-- How the names begin that no table can be given. -/
def reservedFront : String := "sqlite_"

/-- Whether no table can be given the name. -/
def isReserved (name : String) : Bool :=
  reservedFront.toList.isPrefixOf (Dialect.smallAscii name).toList

/-- The database that every table is in. -/
def mainDatabase : String := "main"

/-- Refuses the name of a database that is not there. -/
def checkDatabase (t : TableName) (sql : String) : Outcome Unit :=
  match t.database with
  | some d =>
    if sameName mainDatabase d.name then .ok ()
    else .error (Fault.inText ("unknown database " ++ d.written) sql d.offset)
  | none => .ok ()

end TableName

end Sqlite

end SqlClient
