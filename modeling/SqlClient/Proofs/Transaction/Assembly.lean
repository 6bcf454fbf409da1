import SqlClient.Proofs.Client.Lines
import SqlClient.Transaction.Run
/-!
# Transactions — futures that share connections

Statements and transactions of a program, as futures that are polled one at a time. An `Assembly` has
any number of them: a statement may be issued, and a nested transaction begun, through the client of any
scope that was ever opened, whether the scope is still open or not; every future may be polled at any
time, and given up at any time, which is what cancellation and a panic come to. What the operation of a
scope does through its client are futures of the assembly as well, so the operation itself only waits to
be told what to return, and writes down when it is called and when it is left.
-/

namespace SqlClient

variable {β α : Type}

/-! ## Operations -/

/-- How an operation was left. -/
inductive Departure (α : Type)
  | returned (outcome : Outcome α)
  | givenUp

/-- The call of an operation. -/
structure Visit (α : Type) where
  /-- The future that has opened the scope, by its number. -/
  owner : Nat
  /-- The client that the operation was called with. -/
  client : Client
  /-- How the operation was left, if it has been. -/
  departure : Option (Departure α)

/-- A database with a record of the operations that were called, and what they have been told to
return. -/
structure Watched (β α : Type) where
  database : β
  visits : List (Visit α)
  decisions : List (Option (Outcome α))

instance [Backend β] : Backend (Watched β α) where
  connect n b :=
    let (refusal, database) := Backend.connect n b.database
    (refusal, { b with database })
  delay r b := Backend.delay r b.database
  respond n r b :=
    let (response, database) := Backend.respond n r b.database
    (response, { b with database })

namespace Store

/-- Writes down that an operation is called; tells where. -/
def enter (owner : Nat) (c : Client) (s : Store (Watched β α)) : Nat × Store (Watched β α) :=
  (s.backend.visits.length,
    { s with
      backend := { s.backend with
        visits := s.backend.visits ++ [⟨owner, c, none⟩]
        decisions := s.backend.decisions ++ [none] } })

/-- Writes down that an operation is left. -/
def depart (place : Nat) (departure : Departure α) (s : Store (Watched β α)) :
    Store (Watched β α) :=
  { s with
    backend := { s.backend with
      visits := s.backend.visits.modify place fun v => { v with departure := some departure } } }

/-- What an operation has been told to return. -/
def decision? (place : Nat) (s : Store (Watched β α)) : Option (Outcome α) :=
  (s.backend.decisions[place]?).join

/-- Returns what an operation has been told to. -/
def conclude (place : Nat) (s : Store (Watched β α)) : Outcome α × Store (Watched β α) :=
  let outcome := (s.decision? place).getD (.error .scopeEnded)
  (outcome, s.depart place (.returned outcome))

/-- A client of a scope that has been opened, or a copy of it. -/
def AtHand (s : Store (Watched β α)) (c : Client) : Prop :=
  ∃ v ∈ s.backend.visits, c.scope = v.client.scope ∧ c.scope.isSome

end Store

namespace Client

/-- The marks of the scopes that enclose a client. -/
def marks (c : Client) : List Nat := (c.scope.map (·.marks)).getD []

end Client

/-- The scope of `tx` encloses the client `c`, or is its own. -/
def Encloses (tx c : Client) : Prop := tx.marks <+: c.marks

instance (tx c : Client) : Decidable (Encloses tx c) := inferInstanceAs (Decidable (_ <+: _))

/-- An operation that waits to be told what to return. -/
def visit (owner : Nat) (tx : Client) : Work (Watched β α) α := .mk do
  let place ← Coroutine.perform (Store.enter owner tx)
  .guarded (Store.depart place .givenUp) none
    (do
      Coroutine.waitFor fun s => (s.decision? place).isSome
      Coroutine.perform (Store.conclude place))
    .done

/-! ## Futures -/

/-- A future: what it is, and what is left of it. -/
inductive Future (β α : Type)
  | statement (client : Client) (rest : Coroutine (Store (Watched β α)) (Outcome ResultSet))
  | transaction (client : Client) (rest : Coroutine (Store (Watched β α)) (Outcome α))
  /-- Left behind by a future that was given up. -/
  | task (rest : Coroutine (Store (Watched β α)) Unit)
  | givenUp

/-- What something is sent for. -/
inductive Role
  /-- For a statement, or to open a scope, through a client. -/
  | through (client : Client)
  /-- To close a scope after its operation has returned. -/
  | closing (client : Client)
  /-- To roll back a scope whose operation was given up. -/
  | rescuing

namespace Future

/-- Takes a future through a turn. -/
def poll : Future β α → Coroutine.Turn (Store (Watched β α)) →
    Future β α × Coroutine.Turn (Store (Watched β α))
  | .statement c rest, w => (.statement c (rest.poll w).1, (rest.poll w).2)
  | .transaction c rest, w => (.transaction c (rest.poll w).1, (rest.poll w).2)
  | .task rest, w => (.task (rest.poll w).1, (rest.poll w).2)
  | .givenUp, w => (.givenUp, w)

/-- Gives up a statement or a transaction. -/
def drop : Future β α → Coroutine.Turn (Store (Watched β α)) →
    Future β α × Coroutine.Turn (Store (Watched β α))
  | .statement _ rest, w => (.givenUp, rest.drop w)
  | .transaction _ rest, w => (.givenUp, rest.drop w)
  | f, w => (f, w)

/-- What the future with a number sends its requests for: a transaction opens its scope until the
operation is called, and closes it from then on. -/
def role (i : Nat) (s : Store (Watched β α)) : Future β α → Role
  | .statement c _ => .through c
  | .transaction c _ =>
    match s.backend.visits.find? (·.owner = i) with
    | some v => .closing v.client
    | none => .through c
  | .task _ | .givenUp => .rescuing

end Future

/-! ## Assemblies -/

/-- The requests that reach a connection with a change of the store. -/
def Store.sent (s s' : Store β) : List Event := (s'.log.drop s.log.length).filter Event.isSent

/-- A request that was sent, and what for. -/
structure Sending where
  role : Role
  event : Event

/-- Futures that share a store, and what they have sent so far. -/
structure Assembly (β α : Type) where
  store : Store (Watched β α)
  futures : List (Future β α)
  history : List Sending

namespace Assembly

/-- Nobody has done anything. -/
def start (s : Store (Watched β α)) : Assembly β α := ⟨s, [], []⟩

/-- What one future has done: it is replaced, and what it has left behind joins the others. -/
def afterTurn (A : Assembly β α) (i : Nat) (f f' : Future β α)
    (w : Coroutine.Turn (Store (Watched β α))) : Assembly β α :=
  { store := w.state
    futures := A.futures.set i f' ++ w.spawned.map .task
    history := A.history ++ (A.store.sent w.state).map (⟨f.role i A.store, ·⟩) }

/-- Polls a future. -/
def poll (A : Assembly β α) (i : Nat) : Assembly β α :=
  match A.futures[i]? with
  | none => A
  | some f =>
    A.afterTurn i f (f.poll (Coroutine.Turn.start A.store false)).1
      (f.poll (Coroutine.Turn.start A.store false)).2

/-- Gives a future up. -/
def drop (A : Assembly β α) (i : Nat) : Assembly β α :=
  match A.futures[i]? with
  | none => A
  | some f =>
    A.afterTurn i f (f.drop (Coroutine.Turn.start A.store false)).1
      (f.drop (Coroutine.Turn.start A.store false)).2

variable [Backend β]

/-- Issues a statement through a client. -/
def issue (A : Assembly β α) (c : Client) (r : Request) : Assembly β α :=
  { A with futures := A.futures ++ [.statement c (c.run r).run] }

/-- Begins a transaction through a client. -/
def begin (A : Assembly β α) (c : Client) : Assembly β α :=
  { A with futures := A.futures ++ [.transaction c (c.transact (visit A.futures.length)).run] }

end Assembly

/-- A change that concerns neither the scopes nor those in line for the connections there are. Others may
use connections of their own, and tell operations what to return. -/
structure Store.Elsewhere (s s' : Store (Watched β α)) : Prop where
  ended : s'.ended = s.ended
  visits : s'.backend.visits = s.backend.visits
  decisions : s'.backend.decisions.length = s.backend.decisions.length
  log : s.log <+: s'.log
  attempts : s.attempts ≤ s'.attempts
  lines : ∀ n, s'.lineOf n = s.lineOf n ∨ s.attempts < n ∧ s'.ticketsOf n = []

namespace Assembly

variable [Backend β]

/-- What may happen next, in any order. -/
inductive Step : Assembly β α → Assembly β α → Prop
  | issue {A : Assembly β α} {c : Client} {r : Request} : A.store.AtHand c → Step A (A.issue c r)
  | begin {A : Assembly β α} {c : Client} : c.scope = none ∨ A.store.AtHand c → Step A (A.begin c)
  | poll {A : Assembly β α} (i : Nat) : Step A (A.poll i)
  | drop {A : Assembly β α} (i : Nat) : Step A (A.drop i)
  | others {A : Assembly β α} {s : Store (Watched β α)} : A.store.Elsewhere s →
      Step A { A with store := s }

end Assembly

end SqlClient
