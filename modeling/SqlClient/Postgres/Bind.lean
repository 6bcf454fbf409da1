import SqlClient.Json.Read
import SqlClient.Number.BigEndian
import SqlClient.Postgres.Types
import SqlClient.Text.Utf8
import SqlClient.Value
/-!
# PostgreSQL — parameters

How values are written for the server, in its binary formats. Integers have the width of the
parameter. Timestamps count microseconds from the beginning of the year 2000, dates days.
-/

namespace SqlClient

namespace Postgres

/-! ## Time -/

/-- The first of January 2000, in days from the epoch of the calendar. -/
def epochDay : Int := Calendar.dayNumber 2000 1 1

/-- The nanoseconds of a day. -/
def dayNanos : Int := 86400 * 1000000000

/-- Nanoseconds from the beginning of the year 2000 to a timestamp. A leap second counts as part of
the second before it. -/
def nanosSinceEpoch (t : Timestamp) : Int :=
  (t.dayNumber - epochDay) * dayNanos +
    ((t.hour * 3600 + t.minute * 60 + t.second : Nat) : Int) * 1000000000 + t.nano

/-- Whole microseconds from the beginning of the year 2000, the rest cut off. -/
def microsSinceEpoch (t : Timestamp) : Int := (nanosSinceEpoch t).tdiv 1000

/-- Days from the beginning of the year 2000. -/
def daysSinceEpoch (t : Timestamp) : Int := t.dayNumber - epochDay

/-! ## Faults -/

/-- Why a value cannot be written for a type. -/
inductive BindFault
  /-- The value is of another kind. -/
  | mismatch (value : Value) (type : PgType)
  /-- The integer has more bits than the parameter. -/
  | outOfRange (i : Int64) (type : PgType)
  /-- The text is not one document. -/
  | notJson
  /-- The count of microseconds or days has more bits than its format. -/
  | tooLarge
deriving DecidableEq

namespace BindFault

/-- The text of a fault. -/
def message : BindFault → String
  | .mismatch value type =>
    "cannot bind " ++ value.shown ++ " to a parameter of type " ++ type.toName
  | .outOfRange i type => toString i.toInt ++ " is out of range for " ++ type.toName
  | .notJson => "not a JSON document"
  | .tooLarge => "value too large to transmit"

end BindFault

/-! ## Writing -/

/-- Writes an integer of a width in bytes, if it fits. -/
def fitting (width : Nat) (i : Int) : Option (List UInt8) :=
  if -(pow256 width : Int) ≤ 2 * i ∧ 2 * i < (pow256 width : Int) then some (BigEndian.ofInt width i)
  else none

/-- Writes a document; the binary form has a version in front. -/
def writeDocument (type : PgType) (doc : Json) : List UInt8 :=
  let text := encodeText doc.write
  if type = .jsonb then 1 :: text else text

/-- Writes a truth value. -/
def writeBool (b : Bool) : List UInt8 := [if b then 1 else 0]

/-- Writes an integer at the width of the type. -/
def bindInt (i : Int64) (type : PgType) : Except BindFault (List UInt8) :=
  let narrow (width : Nat) : Except BindFault (List UInt8) :=
    match fitting width i.toInt with
    | some bytes => .ok bytes
    | none => .error (.outOfRange i type)
  match type with
  | .int2 => narrow 2
  | .int4 => narrow 4
  | .int8 => narrow 8
  | .float4 => .ok (BigEndian.ofNat 4 (Double.singleBitsOfInt i.toInt).toNat)
  | .float8 => .ok (BigEndian.ofNat 8 (Double.ofInt i.toInt).bits.toNat)
  | .bool => .ok (writeBool (i != 0))
  | _ => .error (.mismatch (.int i) type)

/-- Writes a text, or the document that it spells. -/
def bindText (s : String) (type : PgType) : Except BindFault (List UInt8) :=
  if type.isDocument then
    match Json.read? s with
    | some doc => .ok (writeDocument type doc)
    | none => .error .notJson
  else if type.isText then .ok (encodeText s)
  else .error (.mismatch (.text s) type)

/-- Writes a timestamp: as a date for dates, as a point in time for any other type. -/
def bindTimestamp (t : Timestamp) (type : PgType) : Except BindFault (List UInt8) :=
  let count := if type = .date then fitting 4 (daysSinceEpoch t) else fitting 8 (microsSinceEpoch t)
  match count with
  | some bytes => .ok bytes
  | none => .error .tooLarge

/-- Writes a document, as text where the type is one. -/
def bindJson (doc : Json) (type : PgType) : Except BindFault (List UInt8) :=
  if type.isDocument then .ok (writeDocument type doc)
  else if type = .text ∨ type = .varchar then .ok (encodeText doc.write)
  else .error (.mismatch (.json doc) type)

/-- Writes a value for a type, or null as `none`. Whether the type is accepted is not asked. -/
def bind (v : Value) (type : PgType) : Except BindFault (Option (List UInt8)) :=
  match v with
  | .null => .ok none
  | .bool b => if type = .bool then .ok (some (writeBool b)) else .error (.mismatch v type)
  | .int i => (bindInt i type).map some
  | .double x =>
    match type with
    | .float4 => .ok (some (BigEndian.ofNat 4 x.toSingleBits.toNat))
    | .float8 => .ok (some (BigEndian.ofNat 8 x.bits.toNat))
    | _ => .error (.mismatch v type)
  | .text s => (bindText s type).map some
  | .bytes bs => if type = .bytea then .ok (some bs) else .error (.mismatch v type)
  | .timestamp t => (bindTimestamp t type).map some
  | .json doc => (bindJson doc type).map some

/-- Writes a value for a type that parameters may have; `none` if that fails. -/
def bindChecked (v : Value) (type : PgType) : Option (Option (List UInt8)) :=
  if type.isAccepted then (bind v type).toOption else none

end Postgres

end SqlClient
