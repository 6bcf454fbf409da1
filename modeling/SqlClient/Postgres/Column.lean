import SqlClient.Postgres.Bind
/-!
# PostgreSQL — columns

How the bytes of a column are read, by its type. Numbers and times must have exactly their size.
Types without a meaning here are read as text, which only the text types allow.
-/

namespace SqlClient

namespace Postgres

/-- The timestamp that is so many microseconds after the beginning of the year 2000. -/
def timestampOfMicros (micros : Int) : Option Timestamp :=
  let seconds := micros / 1000000
  Timestamp.ofDayAndSecond? (epochDay + seconds / 86400) (seconds % 86400).toNat
    ((micros % 1000000).toNat * 1000)

/-- Midnight of the day that is so many days after the beginning of the year 2000. -/
def timestampOfDays (days : Int) : Option Timestamp :=
  Timestamp.ofDayAndSecond? (epochDay + days) 0 0

/-- Bytes of a given number. -/
def sized (width : Nat) (bytes : List UInt8) : Option (List UInt8) :=
  if bytes.length = width then some bytes else none

/-- Reads an integer of a width in bytes. -/
def readInt (width : Nat) (bytes : List UInt8) : Option Value :=
  (sized width bytes).map fun bytes => .int (Int64.ofInt (BigEndian.toInt bytes))

/-- Reads a document; the binary form has its version in front. -/
def readDocument (type : PgType) (bytes : List UInt8) : Option Value :=
  let text? := match type, bytes with
    | .jsonb, 1 :: rest => some rest
    | .jsonb, _ => none
    | _, bytes => some bytes
  (text?.bind decodeText?).bind fun text => (Json.read? text).map .json

/-- Reads the bytes of a column that is not null. -/
def readBytes (type : PgType) (bytes : List UInt8) : Option Value :=
  match type with
  | .int2 => readInt 2 bytes
  | .int4 => readInt 4 bytes
  | .int8 => readInt 8 bytes
  | .float4 =>
    (sized 4 bytes).map fun bytes =>
      .double (.ofSingleBits (UInt32.ofNat (BigEndian.toNat bytes)))
  | .float8 => (sized 8 bytes).map fun bytes => .double ⟨UInt64.ofNat (BigEndian.toNat bytes)⟩
  | .bool => (sized 1 bytes).map fun bytes => .bool (BigEndian.toNat bytes != 0)
  | .timestamp | .timestamptz =>
    (sized 8 bytes).bind fun bytes =>
      (timestampOfMicros (BigEndian.toInt bytes)).map .timestamp
  | .date =>
    (sized 4 bytes).bind fun bytes => (timestampOfDays (BigEndian.toInt bytes)).map .timestamp
  | .json | .jsonb => readDocument type bytes
  | .bytea => some (.bytes bytes)
  | .text | .varchar | .bpchar | .name | .unknown => (decodeText? bytes).map .text
  | .other _ => none

/-- Reads a column, null included; a type that cannot be read fails even then. -/
def readColumn (type : PgType) (content : Option (List UInt8)) : Option Value :=
  match content with
  | some bytes => readBytes type bytes
  | none => if type.isAccepted then some .null else none

end Postgres

end SqlClient
