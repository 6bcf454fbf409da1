import SqlClient.Client.Store
/-!
# Clients — running requests

A client inside a transaction sends over the connection of the transaction, one request at a time,
and refuses once its scope or one around it has ended. Other clients get a connection for each
request and let go of it afterwards, also when the request is given up.
-/

namespace SqlClient

/-- Work on a shared store, which may fail. -/
abbrev Work (β α : Type) := ExceptT Error (Coroutine (Store β)) α

variable {β : Type}

namespace Work

variable {α : Type}

/-- Work from a coroutine that answers with an outcome. -/
def ofCoroutine (c : Coroutine (Store β) (Outcome α)) : Work β α := .mk c

/-- Work that is done at once. -/
def ofOutcome (o : Outcome α) : Work β α := .mk (.done o)

end Work

/-! ## Connections -/

namespace Connection

/-- Waits until a number of milliseconds has passed. -/
def sleep (ms : Nat) : Coroutine (Store β) Unit := do
  let moment ← Coroutine.perform (Store.setAlarm ms)
  Coroutine.waitFor (Store.hasCome moment)

/-- Meets something that never ends. -/
def stall : Coroutine (Store β) Unit := do
  Coroutine.change fun s => { s with stalled := true }
  Coroutine.waitFor fun _ => false

/-- Sends a request and waits for its answer. Until that has come the request is in flight, also
when it is given up. -/
def exchange [Backend β] (n : Nat) (r : Request) : Coroutine (Store β) (Outcome ResultSet) := do
  let turns ← Coroutine.perform (Store.send n r)
  Coroutine.giveWay turns
  let response ← Coroutine.perform (Store.receive n r)
  let outcome ← response.wait stall
  Coroutine.change (Store.finish n)
  return outcome

/-- Runs a body while no one else sends over a connection. Those who wait are served in the order
in which they came; who is given up loses its place. -/
def inTurn {α : Type} (n : Nat) (body : Coroutine (Store β) α) : Coroutine (Store β) α := do
  let ticket ← Coroutine.perform (Store.takeTicket n)
  Coroutine.ensuring (Store.returnTicket n ticket) do
    Coroutine.waitFor (Store.isServed n ticket)
    body

/-- Runs a body and lets go of a connection after it. -/
def holding {α : Type} (n : Nat) (body : Coroutine (Store β) α) : Coroutine (Store β) α :=
  Coroutine.ensuring (Store.letGo n) body

/-- Sends a request over a connection that others share. -/
def share [Backend β] (n : Nat) (r : Request) : Coroutine (Store β) (Outcome ResultSet) :=
  inTurn n (exchange n r)

/-- Sends a script over a connection that others share. -/
def shareScript [Backend β] (n : Nat) (sql : String) : Coroutine (Store β) (Outcome Unit) := do
  return (← share n (.script sql)).map fun _ => ()

/-- Marks a connection as unusable. -/
def markBroken (n : Nat) : Coroutine (Store β) Unit :=
  inTurn n (Coroutine.change (Store.markBroken n))

end Connection

/-! ## Clients -/

namespace Client

variable [Backend β]

/-- Runs a request on the connection of the client's transaction, or on one of its own. -/
def run (c : Client) (r : Request) : Work β ResultSet := .mk do
  match c.scope with
  | some scope =>
    if ← Coroutine.inspect (Store.isOpen scope) then Connection.share scope.connection r
    else return .error .scopeEnded
  | none =>
    match ← Coroutine.perform (Store.acquire .general) with
    | .error e => return .error e
    | .ok n => Connection.holding n (Connection.exchange n r)

/-- Runs SQL text with positional parameters. -/
def runRaw (c : Client) (sql : String) (params : List Value) : Work β ResultSet :=
  c.run (.statement sql params)

/-- Runs a script. -/
def runScript (c : Client) (sql : String) : Work β Unit := do
  let _ ← c.run (.script sql)

/-! ### Fragments -/

/-- Compiles a fragment for the client's dialect. -/
def compile (c : Client) (f : Fragment) : Outcome Compiled := c.settings.compiler.compile f

/-- Runs a fragment and keeps the column names that the database gives. -/
def fetchRaw (c : Client) (f : Fragment) : Work β ResultSet := do
  let compiled ← Work.ofOutcome (c.compile f)
  c.runRaw compiled.sql compiled.params

/-- Runs a fragment; the client's change of result names applies. -/
def fetch (c : Client) (f : Fragment) : Work β ResultSet := do
  let result ← c.fetchRaw f
  match c.settings.renameResult with
  | some rename => return result.transform rename
  | none => return result

/-- Runs a fragment for its rows as lists of values. -/
def fetchValues (c : Client) (f : Fragment) : Work β (List (List Value)) := do
  return (← c.fetchRaw f).rows

/-- Runs a fragment for the number of affected rows. -/
def execute (c : Client) (f : Fragment) : Work β Nat := do
  return (← c.fetchRaw f).affected

/-! ### Checked calls -/

/-- Encodes an input, runs a query with it, and hands its rows on. -/
def checkedRows (c : Client) (request : Shape) (input : Input)
    (query : Client → Json → Work β ResultSet) : Work β (List Row) := do
  let encoded ← Work.ofOutcome (Schema.encode request input)
  return (← query c encoded).toRows

/-- Every row of a query, decoded. -/
def checkedAll (c : Client) (request row : Shape) (input : Input)
    (query : Client → Json → Work β ResultSet) : Work β (List Json) := do
  let rows ← c.checkedRows request input query
  Work.ofOutcome (Schema.decodeAll (Schema.decodeRow row) rows)

/-- The first row of a query if there is one, decoded. -/
def checkedFirst? (c : Client) (request row : Shape) (input : Input)
    (query : Client → Json → Work β ResultSet) : Work β (Option Json) := do
  match ← c.checkedRows request input query with
  | [] => return none
  | first :: _ => some <$> Work.ofOutcome (Schema.decodeRow row first)

/-- The first row of a query, decoded; there must be one. -/
def checkedFirst (c : Client) (request row : Shape) (input : Input)
    (query : Client → Json → Work β ResultSet) : Work β Json := do
  match ← c.checkedFirst? request row input query with
  | some first => return first
  | none => throw (.lengthMismatch 1 0)

end Client

end SqlClient
