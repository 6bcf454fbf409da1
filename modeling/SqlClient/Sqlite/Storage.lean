import SqlClient.Sqlite.RealText
import SqlClient.Value
/-!
# SQLite — storage classes

SQLite stores five classes of values. It has none for truth values, timestamps and documents, so
these are stored as integers and texts. Timestamps are written with a space, in which form their
texts sort like the timestamps.
-/

namespace SqlClient

namespace Sqlite

/-- A value as SQLite stores it. -/
inductive Stored
  | null
  | integer (i : Int64)
  | real (x : Double)
  | text (s : String)
  | blob (bs : List UInt8)
deriving DecidableEq

namespace Stored

/-- How a value is stored. -/
def ofValue : Value → Stored
  | .null => .null
  | .bool b => .integer (if b then 1 else 0)
  | .int i => .integer i
  | .double x => .real x
  | .text s => .text s
  | .bytes bs => .blob bs
  | .timestamp t => .text t.writeSpaced
  | .json doc => .text doc.write

/-- The value that is read back. -/
def toValue : Stored → Value
  | .null => .null
  | .integer i => .int i
  | .real x => .double x
  | .text s => .text s
  | .blob bs => .bytes bs

/-- What the database keeps of a bound value: it has no NaN and takes it as null. -/
def bound (v : Value) : Stored :=
  match ofValue v with
  | .real x => if x.isNaN then .null else .real x
  | other => other

/-! ## Text affinity -/

/-- What a column of texts keeps of a value: numbers become texts. -/
def asText : Stored → Stored
  | .integer i => .text (toString i.toInt)
  | .real x => .text (realText x)
  | other => other

/-! ## Order -/

/-- Whether a byte sequence sorts before another. -/
def bytesBefore : List UInt8 → List UInt8 → Bool
  | _, [] => false
  | [], _ :: _ => true
  | a :: as, b :: bs => a < b || (a == b && bytesBefore as bs)

/-- Whether a key sorts before another. Keys are integers, or texts before blobs; null takes no
part in comparisons. -/
def before : Stored → Stored → Bool
  | .integer a, .integer b => a < b
  | .text a, .text b => a < b
  | .text _, .blob _ => true
  | .blob a, .blob b => bytesBefore a b
  | _, _ => false

/-- The greatest of some keys, null if there is none but nulls. -/
def greatest (values : List Stored) : Stored :=
  values.foldl
    (fun best v =>
      match best, v with
      | .null, v => v
      | best, .null => best
      | best, v => if before best v then v else best)
    .null

end Stored

end Sqlite

end SqlClient
