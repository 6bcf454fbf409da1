import SqlClient.Unicode.Case
/-!
# Names — transforms between programs and databases

Databases name their columns in snake case. A transform turns such names into camel, Pascal or
kebab case, or back. A client applies one to the identifiers it writes and another to the columns
it reads.
-/

namespace SqlClient

/-- A change of name. -/
abbrev NameTransform := String → String

namespace Names

/-! ## Camel case -/

/-- Drops underscores and capitalises the character after a run of them; `raised` holds between an
underscore and that character. -/
def raise : Bool → List Char → List Char
  | _, [] => []
  | raised, c :: rest =>
    if c = '_' then raise true rest
    else if raised then Unicode.toCapital c ++ raise false rest
    else c :: raise false rest

/-- Camel case of a name: its first character stays what it is, be it an underscore. -/
def camelChars : List Char → List Char
  | [] => []
  | c :: rest => c :: raise false rest

/-- Puts an underscore and the small form for each capital. -/
def lowerChars (cs : List Char) : List Char :=
  cs.flatMap fun c => if Unicode.isCapital c then '_' :: Unicode.toSmall c else [c]

/-- `user_id` to `userId`. -/
def toCamel (name : String) : String := String.ofList (camelChars name.toList)

/-- `userId` to `user_id`. -/
def fromCamel (name : String) : String := String.ofList (lowerChars name.toList)

/-! ## Pascal case -/

/-- Pascal case of a name: camel case with a capital in front. -/
def pascalChars (cs : List Char) : List Char :=
  match camelChars cs with
  | [] => []
  | c :: rest => Unicode.toCapital c ++ rest

/-- `user_id` to `UserId`. -/
def toPascal (name : String) : String := String.ofList (pascalChars name.toList)

/-- Snake case of a Pascal name: no underscore for the first character. -/
def unpascalChars : List Char → List Char
  | [] => []
  | c :: rest => Unicode.toSmall c ++ lowerChars rest

/-- `UserId` to `user_id`. -/
def fromPascal (name : String) : String := String.ofList (unpascalChars name.toList)

/-! ## Kebab case -/

/-- Puts one character for another. -/
def replaceChar (old new : Char) (name : String) : String :=
  String.ofList (name.toList.map fun c => if c = old then new else c)

/-- `user_id` to `user-id`. -/
def toKebab : NameTransform := replaceChar '_' '-'

/-- `user-id` to `user_id`. -/
def fromKebab : NameTransform := replaceChar '-' '_'

end Names

/-- The transforms of a client: `query` for identifiers on their way out, `result` for column names
on their way in. -/
structure NameTransforms where
  query : Option NameTransform
  result : Option NameTransform

namespace NameTransforms

/-- No transform either way. -/
def none : NameTransforms := ⟨.none, .none⟩

/-- Names in camel case here, in snake case in the database. -/
def camelCase : NameTransforms := ⟨some Names.fromCamel, some Names.toCamel⟩

/-- Names in Pascal case here, in snake case in the database. -/
def pascalCase : NameTransforms := ⟨some Names.fromPascal, some Names.toPascal⟩

/-- Names in kebab case here, in snake case in the database. -/
def kebabCase : NameTransforms := ⟨some Names.fromKebab, some Names.toKebab⟩

/-- Which transforms are set, as settings print it. -/
def shown (t : NameTransforms) : String :=
  let flag (b : Bool) := if b then "true" else "false"
  "NameTransforms \x7b query: " ++ flag t.query.isSome ++ ", result: " ++ flag t.result.isSome ++
    " \x7d"

end NameTransforms

end SqlClient
