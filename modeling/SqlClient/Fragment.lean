import SqlClient.Record
import SqlClient.Unicode.Classes
/-!
# Fragments

A fragment is a piece of a statement as a tree: text, names, bound values, lists of fragments, and
helpers that write records. It knows no dialect and no connection, so one tree can be compiled for
every dialect.
-/

namespace SqlClient

/-- A piece of a statement. -/
inductive Fragment
  /-- Text that is copied as it is. -/
  | raw (sql : String)
  /-- A name, quoted as the dialect quotes. -/
  | ident (name : String)
  /-- A bound value. -/
  | param (value : Value)
  /-- Fragments with a separator between them, in parentheses if asked for. -/
  | list (separator : String) (items : List Fragment) (parenthesized : Bool)
  /-- `(columns) VALUES (…), (…)`; every record must have the columns of the first. -/
  | insert (records : List Record)
  /-- `column = value, …` without the omitted columns. -/
  | update (record : Record) (omitted : List String)
  /-- A typed array. -/
  | array (items : List Value)
  /-- A document bound as one value. -/
  | json (doc : Json)
  /-- Rows usable as a table: `(values (…), (…)) AS table(columns)`. -/
  | values (rows : List Record) (table : String)
  /-- Finished text with its values. Placeholders inside it are not renumbered. -/
  | spliced (sql : String) (params : List Value)
deriving Inhabited

namespace Fragment

/-! ## Building -/

/-- Fragments one after another. -/
def concat (items : List Fragment) : Fragment := .list "" items false

/-- Bound values in parentheses, for use after `IN`. Without values it is a list that holds
nothing but NULL, so the predicate matches nothing. -/
def inList (items : List Value) : Fragment :=
  if items.isEmpty then .raw "(NULL)" else .list ", " (items.map .param) true

/-! ## Emptiness -/

mutual

/-- Whether a fragment writes no SQL: blank text, or a list of such without parentheses. -/
def isEmpty : Fragment → Bool
  | .raw sql => isBlankText sql
  | .list _ items parenthesized => allEmpty items && !parenthesized
  | _ => false

/-- Whether every fragment of a list is empty. -/
def allEmpty : List Fragment → Bool
  | [] => true
  | f :: rest => isEmpty f && allEmpty rest

end

/-! ## Clauses -/

/-- Joins clauses with a literal. Empty ones are left out; without any the result is `fallback`, a
single one stays as it is, and more are put in parentheses if asked for. -/
def join (literal : String) (parens : Bool) (fallback : String) (clauses : List Fragment) :
    Fragment :=
  match clauses.filter (!·.isEmpty) with
  | [] => .raw fallback
  | [clause] => clause
  | several => .list literal several parens

/-- All of the clauses; without any, what always holds. -/
def conjunction (clauses : List Fragment) : Fragment := join " AND " true "1=1" clauses

/-- One of the clauses; without any, what never holds. -/
def disjunction (clauses : List Fragment) : Fragment := join " OR " true "1=0" clauses

/-- The items with commas between them. -/
def commaList (items : List Fragment) : Fragment := join ", " false "" items

/-- The items with commas between them behind a keyword, or nothing without items. -/
def keywordList (keyword : String) (items : List Fragment) : Fragment :=
  let body := commaList items
  if body.isEmpty then .raw "" else concat [.raw (keyword ++ " "), body]

/-- The fragment of parts gathered one by one: a single part stays as it is. -/
def ofParts : List Fragment → Fragment
  | [part] => part
  | parts => concat parts

/-- A fragment inside `n` lists of one item in parentheses. -/
def nested : Nat → Fragment → Fragment
  | 0, f => f
  | n + 1, f => .list "," [nested n f] true

end Fragment

end SqlClient
