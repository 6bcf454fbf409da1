import SqlClient.Number.Double
/-!
# JSON — documents

A document is a tree of scalars, arrays and objects. Numbers come in two kinds that never compare
equal: integers, which hold what fits 64 bits with or without a sign, and finite doubles. The
members of an object are kept in ascending order of their keys, one member a key; `Json.Ordered`
says so, and every function that builds an object goes through `Json.ofMembers`.
-/

namespace SqlClient

/-- A JSON number. -/
inductive JsonNumber
  | int (i : Int)
  | double (x : Double)
deriving DecidableEq, Inhabited, Repr

/-- A JSON document. -/
inductive Json
  | null
  | bool (b : Bool)
  | number (n : JsonNumber)
  | string (s : String)
  | array (items : List Json)
  | object (members : List (String × Json))
deriving Inhabited, Repr

namespace Json

/-! ## Equality -/

mutual

/-- Decides whether two documents are the same tree. -/
def decEq : (a b : Json) → Decidable (a = b)
  | .null, .null => isTrue rfl
  | .bool x, .bool y => decidable_of_iff (x = y) (by simp)
  | .number x, .number y => decidable_of_iff (x = y) (by simp)
  | .string x, .string y => decidable_of_iff (x = y) (by simp)
  | .array xs, .array ys =>
    match decEqItems xs ys with
    | isTrue h => isTrue (by rw [h])
    | isFalse h => isFalse (by intro e; exact h (by injection e))
  | .object xs, .object ys =>
    match decEqMembers xs ys with
    | isTrue h => isTrue (by rw [h])
    | isFalse h => isFalse (by intro e; exact h (by injection e))
  | .null, .bool _ | .null, .number _ | .null, .string _ | .null, .array _ | .null, .object _
  | .bool _, .null | .bool _, .number _ | .bool _, .string _ | .bool _, .array _
  | .bool _, .object _ | .number _, .null | .number _, .bool _ | .number _, .string _
  | .number _, .array _ | .number _, .object _ | .string _, .null | .string _, .bool _
  | .string _, .number _ | .string _, .array _ | .string _, .object _ | .array _, .null
  | .array _, .bool _ | .array _, .number _ | .array _, .string _ | .array _, .object _
  | .object _, .null | .object _, .bool _ | .object _, .number _ | .object _, .string _
  | .object _, .array _ => isFalse (by intro e; cases e)

/-- Decides whether two lists of documents are equal. -/
def decEqItems : (a b : List Json) → Decidable (a = b)
  | [], [] => isTrue rfl
  | [], _ :: _ | _ :: _, [] => isFalse (by intro e; cases e)
  | x :: xs, y :: ys =>
    match decEq x y with
    | isFalse h => isFalse (by intro e; exact h (by injection e))
    | isTrue h =>
      match decEqItems xs ys with
      | isFalse k => isFalse (by intro e; exact k (by injection e))
      | isTrue k => isTrue (by rw [h, k])

/-- Decides whether two lists of members are equal. -/
def decEqMembers : (a b : List (String × Json)) → Decidable (a = b)
  | [], [] => isTrue rfl
  | [], _ :: _ | _ :: _, [] => isFalse (by intro e; cases e)
  | (j, x) :: xs, (k, y) :: ys =>
    if hk : j = k then
      match decEq x y with
      | isFalse h => isFalse (by intro e; injection e with e; exact h (by injection e))
      | isTrue h =>
        match decEqMembers xs ys with
        | isFalse t => isFalse (by intro e; exact t (by injection e))
        | isTrue t => isTrue (by rw [hk, h, t])
    else isFalse (by intro e; injection e with e; exact hk (by injection e))

end

instance : DecidableEq Json := decEq

mutual

/-- Equality of the values two documents stand for: doubles compare as numbers, so the two zeros
agree and no kind of number equals the other. -/
def same : Json → Json → Bool
  | .null, .null => true
  | .bool x, .bool y => x == y
  | .number (.int x), .number (.int y) => x == y
  | .number (.double x), .number (.double y) => x.same y
  | .string x, .string y => x == y
  | .array xs, .array ys => sameItems xs ys
  | .object xs, .object ys => sameMembers xs ys
  | _, _ => false

/-- `same`, item by item. -/
def sameItems : List Json → List Json → Bool
  | [], [] => true
  | x :: xs, y :: ys => same x y && sameItems xs ys
  | _, _ => false

/-- `same`, member by member. -/
def sameMembers : List (String × Json) → List (String × Json) → Bool
  | [], [] => true
  | (j, x) :: xs, (k, y) :: ys => j == k && same x y && sameMembers xs ys
  | _, _ => false

end

/-! ## Building -/

/-- Sets one member of an ordered list, in its place. -/
def insertMember (key : String) (value : Json) : List (String × Json) → List (String × Json)
  | [] => [(key, value)]
  | (k, v) :: rest =>
    if key < k then (key, value) :: (k, v) :: rest
    else if key = k then (key, value) :: rest
    else (k, v) :: insertMember key value rest

/-- The object with these members; of two with one key the later stays. -/
def ofMembers (members : List (String × Json)) : Json :=
  .object (members.foldl (fun acc m => insertMember m.1 m.2 acc) [])

/-- An integer as a document. -/
def ofInt (i : Int) : Json := .number (.int i)

/-- A double as a document; what is not finite has no JSON form and becomes null. -/
def ofDouble (x : Double) : Json := if x.isFinite then .number (.double x) else .null

/-- The member of an object with the given key. -/
def member? : Json → String → Option Json
  | .object members, key => members.lookup key
  | _, _ => none

/-! ## Shape -/

/-- Keys in ascending order, none twice. -/
def Ascending : List (String × Json) → Prop
  | [] => True
  | [_] => True
  | (j, _) :: (k, v) :: rest => j < k ∧ Ascending ((k, v) :: rest)

mutual

/-- Every object of the document has its members in ascending order. -/
def Ordered : Json → Prop
  | .array items => OrderedItems items
  | .object members => Ascending members ∧ OrderedMembers members
  | _ => True

/-- Every item is ordered. -/
def OrderedItems : List Json → Prop
  | [] => True
  | x :: xs => Ordered x ∧ OrderedItems xs

/-- Every member is ordered. -/
def OrderedMembers : List (String × Json) → Prop
  | [] => True
  | (_, x) :: xs => Ordered x ∧ OrderedMembers xs

end

mutual

/-- Renames the keys of every object at every depth. Members are read in the order of their old
keys, so of those that meet under one new key the one with the greatest old key stays. -/
def renameKeys (rename : String → String) : Json → Json
  | .object members => ofMembers (renameMembers rename members)
  | .array items => .array (renameItems rename items)
  | other => other

/-- `renameKeys` for the items of an array. -/
def renameItems (rename : String → String) : List Json → List Json
  | [] => []
  | x :: xs => renameKeys rename x :: renameItems rename xs

/-- `renameKeys` for the members of an object. -/
def renameMembers (rename : String → String) : List (String × Json) → List (String × Json)
  | [] => []
  | (k, x) :: xs => (rename k, renameKeys rename x) :: renameMembers rename xs

end

end Json

end SqlClient
