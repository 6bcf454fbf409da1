import SqlClient.Session.Scripted
/-!
# Sessions — steps and answers

A session is a script of steps that use clients in every way they can be used. Each step has an
answer.
-/

namespace SqlClient

/-- How a fragment is run. -/
inductive FetchMode
  | fetch
  /-- Column names stay as the database gives them. -/
  | rawNames
  /-- Rows only. -/
  | values
  /-- The number of affected rows only. -/
  | execute
  /-- Nothing runs. -/
  | compile
deriving DecidableEq, Repr

/-- The kinds of resolvers. -/
inductive ResolverKind
  | positional
  | single
  | singleOption
  | void
  | byKey
  | byKeyAll
deriving DecidableEq, Repr

/-- What a resolver of a session is made from. -/
structure ResolverSpec where
  kind : ResolverKind
  tag : String
  table : String
  request : Shape
  row : Shape
  /-- The field of a request that is its key; without it the request itself is. -/
  field : Option String
  /-- The column that holds the key of a row. -/
  column : String
  limit : Option Nat
  window : Option Nat

/-- How many rows a checked call returns. -/
inductive CheckedMode
  | all
  | single
  | option
deriving DecidableEq, Repr

mutual

/-- A step of a session. -/
inductive Step
  | fragment (f : Fragment) (mode : FetchMode)
  | raw (sql : String) (params : List Value)
  | script (sql : String)
  | info
  /-- Steps in a transaction, which fails with `failure` if they have not failed. Its client may be
  saved. -/
  | transaction (saveAs : Option String) (body : List Step) (failure : Option Error)
  /-- Saves the client, with a request cache of its own if a capacity and a time to live are
  given. -/
  | save (name : String) (cache : Option (Nat × Nat))
  /-- Steps through a saved client. -/
  | through (client : String) (body : List Step)
  | sameTransaction (a b : String)
  | fail (e : Error)
  | hang
  | sleep (ms : Nat)
  | yield (turns : Nat)
  /-- Steps that are given up when one of them meets what never ends. -/
  | cancel (body : List Step)
  /-- Steps side by side. -/
  | join (branches : List (List Step))
  /-- What the connections recorded, which is then forgotten if asked. -/
  | recorded (clear : Bool)
  | makeResolver (name : String) (spec : ResolverSpec)
  /-- Inputs for a resolver all at once, through the resolver's own client or the current one. -/
  | resolve (resolver : String) (inputs : List Input) (own : Bool)
  /-- The same through several clients; none stands for the current one. -/
  | resolveAcross (resolver : String) (calls : List (Option String × Input))
  | populate (resolver : String) (input : Input) (value : Json)
  | invalidate (resolver : String) (input : Input)
  | clearCache
  | checked (mode : CheckedMode) (input : Input) (request row : Shape) (table : String)
  | migrate (table : String) (migrations : List MigrationStep)
  /-- A step whose failure does not end the scope. -/
  | catching (step : Step)
  /-- Several steps as one. The first failure ends them, and the last answer is theirs. -/
  | group (body : List Step)

/-- A migration of a session. -/
inductive MigrationStep
  | script (id : Int64) (name : String) (sql : String)
  | code (id : Int64) (name : String) (body : List Step)

end

instance : Inhabited Step := ⟨.info⟩

instance : Inhabited MigrationStep := ⟨.script 0 "" ""⟩

/-- The id of a migration. -/
def MigrationStep.id : MigrationStep → Int64
  | .script id _ _ | .code id _ _ => id

/-- What a client says of itself. -/
structure ClientInfo where
  dialect : Dialect
  depth : Option Nat
  cached : Nat

/-- A statement that was run. -/
structure Executed where
  sql : String
  params : List Value
  /-- The connection that ran it, counted among those that were given out. -/
  connection : Nat

/-- The answer to a step. -/
inductive StepAnswer
  | nothing
  | failed (e : Error)
  | result (rs : ResultSet)
  | rows (values : List (List Value))
  | count (n : Nat)
  | compiled (statement : Compiled) (tree : Fragment)
  | info (i : ClientInfo)
  | truth (b : Bool)
  | text (s : String)
  | documents (docs : List Json)
  | document (doc : Option Json)
  | outcomes (answers : List (Outcome Json))
  | recorded (acquired : Nat) (executed : List Executed)
  | migrated (given : List Int64) (applied : List (Int64 × String))
  | transaction (steps : List StepAnswer) (result : Outcome Unit)
  | through (steps : List StepAnswer)
  | cancelled (gaveUp : Bool) (steps : List StepAnswer)
  | joined (branches : List (List StepAnswer × Outcome Unit))

end SqlClient
