/-!
# PostgreSQL — types

The types of parameters and columns that values are sent as and read from. Every other type is
known by its name only.
-/

namespace SqlClient

namespace Postgres

/-- A type of the server. -/
inductive PgType
  | int2
  | int4
  | int8
  | float4
  | float8
  | text
  | varchar
  | bpchar
  | name
  | unknown
  | bool
  | timestamp
  | timestamptz
  | date
  | json
  | jsonb
  | bytea
  | other (given : String)
deriving DecidableEq, Repr

namespace PgType

/-- The types with a meaning here, by their names. -/
def named : List (String × PgType) :=
  [("int2", .int2), ("int4", .int4), ("int8", .int8), ("float4", .float4), ("float8", .float8),
    ("text", .text), ("varchar", .varchar), ("bpchar", .bpchar), ("name", .name),
    ("unknown", .unknown), ("bool", .bool), ("timestamp", .timestamp),
    ("timestamptz", .timestamptz), ("date", .date), ("json", .json), ("jsonb", .jsonb),
    ("bytea", .bytea)]

/-- The type with a name. -/
def ofName (text : String) : PgType := (named.lookup text).getD (.other text)

/-- The name of a type. -/
def toName : PgType → String
  | .other given => given
  | t => ((named.find? (·.2 == t)).map (·.1)).getD ""

/-- Whether values can be sent as parameters of a type at all. -/
def isAccepted : PgType → Bool
  | .other _ => false
  | _ => true

/-- Whether a type is read and written as text. -/
def isText : PgType → Bool
  | .text | .varchar | .bpchar | .name | .unknown => true
  | _ => false

/-- Whether a type holds documents. -/
def isDocument : PgType → Bool
  | .json | .jsonb => true
  | _ => false

end PgType

end Postgres

end SqlClient
