import SqlClient.ResultSet
import SqlClient.Error
/-!
# Shapes — what documents must look like

A shape describes the documents that a call takes or returns. Decoding checks a document against a
shape and gives it back in the shape's own form: integers read as doubles become doubles, unknown
fields are dropped, defaults are filled in. The first thing that does not fit is the cause.

Objects are read in the order of their keys; missing fields are noticed after that, in the order in
which the shape declares them. A structure may also be given as the array of its fields.
-/

namespace SqlClient

/-- The shape of a document. -/
inductive Shape
  /-- A signed 64-bit integer. -/
  | i64
  /-- An unsigned 8-bit integer. -/
  | u8
  | bool
  /-- A double; integers are taken as well. -/
  | double
  | unit
  | text
  /-- Any document. -/
  | any
  /-- A signed 64-bit integer above zero. -/
  | positive
  /-- Null, or a document of the inner shape. -/
  | optional (inner : Shape)
  | list (item : Shape)
  /-- A structure: its name, its fields with what stands for a missing one, and whether fields it
  does not know are refused. -/
  | structured (name : String) (fields : List (String × Shape × Option Json)) (closed : Bool)
  /-- One of several words. -/
  | choice (words : List String)
deriving Inhabited

namespace Shape

/-! ## Equality -/

mutual

/-- Whether two shapes are the same. -/
def same : Shape → Shape → Bool
  | .i64, .i64 | .u8, .u8 | .bool, .bool | .double, .double | .unit, .unit | .text, .text
  | .any, .any | .positive, .positive => true
  | .optional a, .optional b | .list a, .list b => same a b
  | .structured n fs c, .structured n' fs' c' => n == n' && c == c' && sameFields fs fs'
  | .choice ws, .choice ws' => ws == ws'
  | _, _ => false

/-- `same`, field by field. -/
def sameFields : List (String × Shape × Option Json) → List (String × Shape × Option Json) → Bool
  | [], [] => true
  | (n, a, d) :: fs, (n', b, d') :: fs' => n == n' && same a b && d == d' && sameFields fs fs'
  | _, _ => false

end

mutual

theorem same_self : ∀ a : Shape, same a a = true
  | .i64 | .u8 | .bool | .double | .unit | .text | .any | .positive => by simp [same]
  | .optional a | .list a => by simpa [same] using same_self a
  | .structured _ fs _ => by simpa [same] using sameFields_self fs
  | .choice _ => by simp [same]

theorem sameFields_self : ∀ fs, sameFields fs fs = true
  | [] => by simp [sameFields]
  | (_, a, _) :: fs => by simpa [sameFields] using ⟨same_self a, sameFields_self fs⟩

end

mutual

theorem eq_of_same : ∀ {a b : Shape}, same a b = true → a = b
  | .i64, b, h | .u8, b, h | .bool, b, h | .double, b, h | .unit, b, h | .text, b, h | .any, b, h
  | .positive, b, h | .choice _, b, h => by
    cases b <;> simp_all [same]
  | .optional a, b, h => by
    cases b with
    | optional b => exact congrArg _ (eq_of_same (by simpa [same] using h))
    | _ => simp [same] at h
  | .list a, b, h => by
    cases b with
    | list b => exact congrArg _ (eq_of_same (by simpa [same] using h))
    | _ => simp [same] at h
  | .structured n fs c, b, h => by
    cases b with
    | structured n' fs' c' =>
      simp only [same, Bool.and_eq_true, beq_iff_eq] at h
      rw [h.1.1, h.1.2, eq_of_sameFields h.2]
    | _ => simp [same] at h

theorem eq_of_sameFields : ∀ {fs fs' : List (String × Shape × Option Json)},
    sameFields fs fs' = true → fs = fs'
  | [], [], _ => rfl
  | (n, a, d) :: fs, (n', b, d') :: fs', h => by
    simp only [sameFields, Bool.and_eq_true, beq_iff_eq] at h
    rw [h.1.1.1, eq_of_same h.1.1.2, h.1.2, eq_of_sameFields h.2]
  | [], _ :: _, h | _ :: _, [], h => by simp [sameFields] at h

end

instance : DecidableEq Shape := fun a b =>
  decidable_of_iff (same a b = true) ⟨eq_of_same, fun h => h ▸ same_self a⟩

end Shape

/-- Why a document does not fit a shape. -/
inductive Mismatch
  /-- A document of the wrong kind. -/
  | kind (found : Json) (expected : String)
  /-- A number out of range. -/
  | range (found : Int) (expected : String)
  | notPositive (found : Int)
  | missingField (name : String)
  | unknownField (name : String) (known : List String)
  | unknownWord (word : String) (known : List String)
  /-- An object that does not name one word. -/
  | notSingleKey
  | tooShort (length : Nat) (name : String) (fields : Nat)
  | tooLong (length : Nat)

namespace Mismatch

/-- A document as a mismatch names it. -/
def describe : Json → String
  | .null => "null"
  | .bool b => "boolean `" ++ (if b then "true" else "false") ++ "`"
  | .number (.int i) => "integer `" ++ toString i ++ "`"
  | .number (.double x) => "floating point `" ++ Json.writeNumber (.double x) ++ "`"
  | .string s => "string " ++ shownText s
  | .array _ => "sequence"
  | .object _ => "map"

/-- Names as a list of alternatives. -/
def alternatives : List String → String
  | [] => "there are no fields"
  | [a] => "`" ++ a ++ "`"
  | [a, b] => "`" ++ a ++ "` or `" ++ b ++ "`"
  | several => "one of " ++ ", ".intercalate (several.map fun a => "`" ++ a ++ "`")

/-- The text of a mismatch. -/
def message : Mismatch → String
  | .kind found expected => "invalid type: " ++ describe found ++ ", expected " ++ expected
  | .range found expected =>
    "invalid value: integer `" ++ toString found ++ "`, expected " ++ expected
  | .notPositive found => toString found ++ " is not positive"
  | .missingField name => "missing field `" ++ name ++ "`"
  | .unknownField name known =>
    "unknown field `" ++ name ++ "`, expected " ++ alternatives known
  | .unknownWord word known =>
    "unknown variant `" ++ word ++ "`, expected " ++ alternatives known
  | .notSingleKey => "invalid value: map, expected map with a single key"
  | .tooShort length name fields =>
    "invalid length " ++ toString length ++ ", expected struct " ++ name ++ " with " ++
      toString fields ++ (if fields = 1 then " element" else " elements")
  | .tooLong length =>
    "invalid length " ++ toString length ++ ", expected fewer elements in array"

end Mismatch

namespace Shape

/-! ## Scalars -/

/-- An integer between two bounds. -/
def readInt (expected : String) (least greatest : Int) : Json → Except Mismatch Int
  | .number (.int i) =>
    if least ≤ i ∧ i ≤ greatest then .ok i else .error (.range i expected)
  | other => .error (.kind other expected)

/-- Reads an integer of 64 signed bits. -/
def readI64 : Json → Except Mismatch Int := readInt "i64" (-(pow2 63 : Int)) (pow2 63 - 1)

/-- A word, or an object whose only key is the word and whose value is null. -/
def readWord (words : List String) : Json → Except Mismatch Json
  | .string s => if words.contains s then .ok (.string s) else .error (.unknownWord s words)
  | .object [(s, content)] =>
    if words.contains s then
      match content with
      | .null => .ok (.string s)
      | other => .error (.kind other "unit")
    else .error (.unknownWord s words)
  | .object _ => .error .notSingleKey
  | other => .error (.kind other "string or map")

/-! ## Structures -/

/-- How one field of a structure is read. -/
structure FieldReader where
  name : String
  read : Json → Except Mismatch Json
  /-- What stands for the field when an array of fields ends before it. -/
  default : Option Json
  /-- What stands for the field when an object lacks it. -/
  absent : Option Json

/-- Checks the members of an object in their order. -/
def readMembers (fields : List FieldReader) (closed : Bool) :
    List (String × Json) → Except Mismatch (List (String × Json))
  | [] => .ok []
  | (key, value) :: rest =>
    match fields.find? (·.name == key) with
    | some field =>
      match field.read value with
      | .error e => .error e
      | .ok v => (readMembers fields closed rest).map ((key, v) :: ·)
    | none =>
      if closed then .error (.unknownField key (fields.map (·.name)))
      else readMembers fields closed rest

/-- Completes the members that were read with what stands for the missing ones. -/
def fillFields (read : List (String × Json)) :
    List FieldReader → Except Mismatch (List (String × Json))
  | [] => .ok []
  | field :: rest =>
    match read.lookup field.name <|> field.absent with
    | some v => (fillFields read rest).map ((field.name, v) :: ·)
    | none => .error (.missingField field.name)

/-- Checks an array of fields in the order of their declaration. -/
def readElements (name : String) (count : Nat) :
    List FieldReader → List Json → Nat → Except Mismatch (List (String × Json))
  | [], _, _ => .ok []
  | field :: rest, x :: xs, i =>
    match field.read x with
    | .error e => .error e
    | .ok v => (readElements name count rest xs (i + 1)).map ((field.name, v) :: ·)
  | field :: rest, [], i =>
    match field.default with
    | some v => (readElements name count rest [] (i + 1)).map ((field.name, v) :: ·)
    | none => .error (.tooShort i name count)

/-- Checks a structure. -/
def readStructure (name : String) (fields : List FieldReader) (closed : Bool) :
    Json → Except Mismatch Json
  | .object members =>
    match readMembers fields closed members with
    | .error e => .error e
    | .ok read => (fillFields read fields).map .ofMembers
  | .array items =>
    match readElements name fields.length fields items 0 with
    | .error e => .error e
    | .ok read =>
      if fields.length < items.length then .error (.tooLong items.length)
      else .ok (.ofMembers read)
  | other => .error (.kind other ("struct " ++ name))

/-- What stands for a field that an object lacks: its default, or null for an optional one. -/
def absent : Shape → Option Json → Option Json
  | _, some default => some default
  | .optional _, none => some .null
  | _, none => none

/-! ## Documents -/

mutual

/-- Checks a document against a shape. -/
def decode : Shape → Json → Except Mismatch Json
  | .i64 => fun j => (readI64 j).map .ofInt
  | .u8 => fun j => (readInt "u8" 0 255 j).map .ofInt
  | .bool => fun
    | .bool b => .ok (.bool b)
    | other => .error (.kind other "a boolean")
  | .double => fun
    | .number (.double x) => .ok (.ofDouble x)
    | .number (.int i) => .ok (.ofDouble (.ofInt i))
    | other => .error (.kind other "f64")
  | .unit => fun
    | .null => .ok .null
    | other => .error (.kind other "unit")
  | .text => fun
    | .string s => .ok (.string s)
    | other => .error (.kind other "a string")
  | .any => .ok
  | .positive => fun j =>
    match readI64 j with
    | .error e => .error e
    | .ok i => if 0 < i then .ok (.ofInt i) else .error (.notPositive i)
  | .optional inner => fun
    | .null => .ok .null
    | j => decode inner j
  | .list item => fun
    | .array items => (items.mapM (decode item)).map .array
    | other => .error (.kind other "a sequence")
  | .structured name fields closed => readStructure name (fieldReaders fields) closed
  | .choice words => readWord words

/-- The readers of the fields of a structure. -/
def fieldReaders : List (String × Shape × Option Json) → List FieldReader
  | [] => []
  | (name, shape, default) :: rest =>
    ⟨name, decode shape, default, absent shape default⟩ :: fieldReaders rest

end

/-! ## Named shapes -/

/-- Someone with a number and a name. -/
def person : Shape := .structured "Person" [("id", .i64, none), ("name", .text, none)] false

/-- A person without further fields. -/
def strict : Shape := .structured "Strict" [("id", .i64, none), ("name", .text, none)] true

/-- Someone with details that may be left out. -/
def profile : Shape :=
  .structured "Profile"
    [("id", .i64, none), ("nick", .optional .text, none), ("score", .optional .double, none),
      ("active", .bool, some (.bool false)), ("tags", .list .text, some (.array []))] false

/-- A small number and a level. -/
def status : Shape :=
  .structured "Status"
    [("id", .u8, none), ("level", .choice ["active", "banned", "guest"], none)] false

/-- The values that a decoded request binds: an integer, a text or a document alone, the fields of
a structure, the items of a list. -/
def bindings : Json → List Value
  | .object [(_, x), (_, y)] => [Value.ofJson x, Value.ofJson y]
  | .array items => items.map Value.ofJson
  | scalar => [Value.ofJson scalar]

/-- The values that a decoded request of a shape binds. A free document is one value. -/
def bind (shape : Shape) (j : Json) : List Value :=
  match shape with
  | .any => [Value.ofJson j]
  | _ => bindings j

end Shape

/-! ## Checked calls -/

/-- A caller's input: the document it is written as, or why it cannot be written. -/
abbrev Input := Except String Json

namespace Schema

/-- Writes an input as a document. -/
def write : Input → Outcome Json
  | .ok j => .ok j
  | .error why => .error (.schema .request [why])

/-- The canonical text of an input. Members are in the order of their keys, so equal inputs have
one text. -/
def key (input : Input) : Outcome String := (write input).map Json.write

/-- Decodes a document against a shape, blaming one side of the call. -/
def decodeFor (direction : Direction) (shape : Shape) (j : Json) : Outcome Json :=
  match shape.decode j with
  | .ok v => .ok v
  | .error m => .error (.schema direction [m.message])

/-- Turns an input into a request of a shape. -/
def encode (shape : Shape) (input : Input) : Outcome Json :=
  match write input with
  | .error e => .error e
  | .ok j => decodeFor .request shape j

/-- Decodes one row. -/
def decodeRow (shape : Shape) (row : Row) : Outcome Json := decodeFor .result shape row.toJson

/-- Decodes every row. All failures are reported together, each with the position of its row. -/
def decodeAll {α : Type} (decode : Row → Outcome α) (rows : List Row) : Outcome (List α) :=
  let rec go (i : Nat) : List Row → List α → List String → Outcome (List α)
    | [], decoded, causes =>
      if causes.isEmpty then .ok decoded else .error (.schema .result causes)
    | row :: rest, decoded, causes =>
      match decode row with
      | .ok v => go (i + 1) rest (decoded ++ [v]) causes
      | .error (.schema _ found) =>
        go (i + 1) rest decoded
          (causes ++ found.map fun c => "row " ++ toString i ++ ": " ++ c)
      | .error other => .error other
  go 0 rows [] []

end Schema

end SqlClient
