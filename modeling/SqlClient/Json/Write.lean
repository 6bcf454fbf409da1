import SqlClient.Json.Basic
import SqlClient.Number.Shortest
import SqlClient.Text.Shown
/-!
# JSON — the compact text

The text of a document without white space. Text grows at its end, so each writer takes what is
already written.
-/

namespace SqlClient

namespace Json

/-! ## Scalars -/

/-- Doubles are plain from 1e-5 on and below 1e16, else scientific with the sign of the exponent. -/
def doubleLayout : DoubleLayout :=
  { plainFrom := -4, plainTo := 16, plusSign := true, tie := .toEven }

/-- The text of a number. A double that is not finite is written as null. -/
def writeNumber : JsonNumber → String
  | .int i => toString i
  | .double x => if x.isFinite then doubleLayout.write x else "null"

/-- One character inside a string. Only the quote, the backslash and controls are escaped. -/
def escapeChar (c : Char) : List Char :=
  if c = '"' then ['\\', '"']
  else if c = '\\' then ['\\', '\\']
  else if c = '\n' then ['\\', 'n']
  else if c = '\r' then ['\\', 'r']
  else if c = '\t' then ['\\', 't']
  else if c.toNat = 8 then ['\\', 'b']
  else if c.toNat = 12 then ['\\', 'f']
  else if c.toNat < 0x20 then ['\\', 'u'] ++ hexDigits 4 c.toNat
  else [c]

/-- A string with its quotes. -/
def writeString (s : String) : String :=
  "\"" ++ String.ofList (s.toList.flatMap escapeChar) ++ "\""

/-! ## Documents -/

mutual

/-- Appends the text of a document. -/
def writeOnto (out : String) : Json → String
  | .null => out ++ "null"
  | .bool b => out ++ (if b then "true" else "false")
  | .number n => out ++ writeNumber n
  | .string s => out ++ writeString s
  | .array [] => out ++ "[]"
  | .array (x :: xs) => writeItems (writeOnto (out ++ "[") x) xs ++ "]"
  | .object [] => out ++ "\x7b\x7d"
  | .object ((k, x) :: xs) =>
    writeMembers (writeOnto (out ++ "\x7b" ++ writeString k ++ ":") x) xs ++ "\x7d"

/-- Appends the items after the first, each behind a comma. -/
def writeItems (out : String) : List Json → String
  | [] => out
  | x :: xs => writeItems (writeOnto (out ++ ",") x) xs

/-- Appends the members after the first, each behind a comma. -/
def writeMembers (out : String) : List (String × Json) → String
  | [] => out
  | (k, x) :: xs => writeMembers (writeOnto (out ++ "," ++ writeString k ++ ":") x) xs

end

/-- The compact text of a document. -/
def write (j : Json) : String := writeOnto "" j

/-! ## The shown form

What messages print for a document: its constructors by name, strings with the escapes of shown
text. -/

mutual

/-- A document as messages show it. -/
def shown : Json → String
  | .null => "Null"
  | .bool b => if b then "Bool(true)" else "Bool(false)"
  | .number n => "Number(" ++ writeNumber n ++ ")"
  | .string s => "String(" ++ shownText s ++ ")"
  | .array items => "Array [" ++ ", ".intercalate (shownItems items) ++ "]"
  | .object members => "Object \x7b" ++ ", ".intercalate (shownMembers members) ++ "\x7d"

/-- The items of an array as messages show them. -/
def shownItems : List Json → List String
  | [] => []
  | x :: xs => shown x :: shownItems xs

/-- The members of an object as messages show them. -/
def shownMembers : List (String × Json) → List String
  | [] => []
  | (k, x) :: xs => (shownText k ++ ": " ++ shown x) :: shownMembers xs

end

end Json

end SqlClient
