import SqlClient.Json.Write
import SqlClient.Timestamp.Read
import SqlClient.Timestamp.Write
/-!
# Values

A value is what a statement binds as a parameter and what a column of a row holds. Its views answer
only where the value is of that kind, with three exceptions: an integer is also a double, the
integers 0 and 1 are also truth values, and a text that reads as a timestamp is one.
-/

namespace SqlClient

/-- A scalar or document that travels between a program and a database. -/
inductive Value
  | null
  | bool (b : Bool)
  | int (i : Int64)
  | double (x : Double)
  | text (s : String)
  | bytes (bs : List UInt8)
  | timestamp (t : Timestamp)
  | json (doc : Json)
deriving DecidableEq, Inhabited

namespace Value

/-! ## Views -/

/-- Whether a value is null. -/
def isNull : Value → Bool
  | .null => true
  | _ => false

/-- The value as an integer. -/
def asInt? : Value → Option Int64
  | .int i => some i
  | _ => none

/-- A double, or an integer rounded to one. -/
def asDouble? : Value → Option Double
  | .double x => some x
  | .int i => some (.ofInt i.toInt)
  | _ => none

/-- The value as a text. -/
def asText? : Value → Option String
  | .text s => some s
  | _ => none

/-- A truth value; databases without one store 0 and 1. -/
def asBool? : Value → Option Bool
  | .bool b => some b
  | .int i => if i = 1 then some true else if i = 0 then some false else none
  | _ => none

/-- The value as bytes. -/
def asBytes? : Value → Option (List UInt8)
  | .bytes bs => some bs
  | _ => none

/-- A timestamp, or a text that spells one. -/
def asTimestamp? : Value → Option Timestamp
  | .timestamp t => some t
  | .text s => Timestamp.read? s
  | _ => none

/-- The value as a document. -/
def asJson? : Value → Option Json
  | .json doc => some doc
  | _ => none

/-! ## JSON -/

/-- The value closest to a document: scalars become scalars, arrays and objects stay documents. An
integer beyond 64 signed bits becomes a double. -/
def ofJson : Json → Value
  | .null => .null
  | .bool b => .bool b
  | .number (.int i) =>
    if -(pow2 63 : Int) ≤ i ∧ i < (pow2 63 : Int) then .int (Int64.ofInt i) else .double (.ofInt i)
  | .number (.double x) => .double x
  | .string s => .text s
  | doc => .json doc

/-- The document that stands for a value when rows are decoded. -/
def toJson : Value → Json
  | .null => .null
  | .bool b => .bool b
  | .int i => .ofInt i.toInt
  | .double x => .ofDouble x
  | .text s => .string s
  | .bytes bs => .array (bs.map fun b => .ofInt b.toNat)
  | .timestamp t => .string t.write
  | .json doc => doc

/-! ## Equality and shown form -/

/-- Equality of values, doubles compared as numbers. -/
def same : Value → Value → Bool
  | .double x, .double y => x.same y
  | .json a, .json b => a.same b
  | a, b => a = b

/-- Doubles in messages are plain from 1e-4 on and below 1e16, and a tie goes away from zero. -/
def shownDoubleLayout : DoubleLayout :=
  { plainFrom := -3, plainTo := 16, plusSign := false, tie := .away }

/-- A double as messages show it. -/
def shownDouble (x : Double) : String :=
  if x.isNaN then "NaN"
  else if x.isFinite then shownDoubleLayout.write x
  else if x.isNegative then "-inf" else "inf"

/-- A value as messages show it. -/
def shown : Value → String
  | .null => "Null"
  | .bool b => if b then "Bool(true)" else "Bool(false)"
  | .int i => "Int(" ++ toString i.toInt ++ ")"
  | .double x => "Float(" ++ shownDouble x ++ ")"
  | .text s => "Text(" ++ shownText s ++ ")"
  | .bytes bs => "Bytes([" ++ ", ".intercalate (bs.map fun b => toString b.toNat) ++ "])"
  | .timestamp t => "Timestamp(" ++ t.write ++ ")"
  | .json doc => "Json(" ++ doc.shown ++ ")"

end Value

end SqlClient
