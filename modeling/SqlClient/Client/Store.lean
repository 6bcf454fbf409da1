import SqlClient.Backend
import SqlClient.Client.Basic
import SqlClient.Coroutine.Clock
import SqlClient.Coroutine.Scheduler
import SqlClient.Pool.Fitness
import SqlClient.Resolver.Cache
import SqlClient.Resolver.Queue
import SqlClient.Shape
/-!
# Clients — the shared store

What all coroutines of a program share: the connections with those who hold and await them, the
marks of ended scopes, the request caches and batch queues, the clock, and the log of everything
that reached a connection. Each operation here is one uninterrupted change.
-/

namespace SqlClient

/-! ## Connections -/

/-- What happens to connections. Connections are numbered by the attempt that got them. -/
inductive Event
  | acquired (acquirer : Acquirer) (connection : Nat)
  /-- An attempt got no connection. -/
  | refused (attempt : Nat)
  | statement (connection : Nat) (sql : String) (params : List Value)
  | script (connection : Nat) (sql : String)
  /-- A connection must not be used again. -/
  | broken (connection : Nat)
  /-- The last holder has let go. -/
  | released (connection : Nat)
deriving DecidableEq

namespace Event

/-- The connection of an event, or the attempt that got none. -/
def connection : Event → Nat
  | .acquired _ n | .refused n | .statement n _ _ | .script n _ | .broken n | .released n => n

end Event

namespace Request

/-- The event of a request. -/
def event (r : Request) (connection : Nat) : Event :=
  match r with
  | .statement sql params => .statement connection sql params
  | .script sql => .script connection sql

end Request

/-- Those who use a connection. -/
structure Usage where
  /-- The number of handles that keep it open. -/
  holders : Nat
  /-- The tickets of those who wait to send; the first one is being served. -/
  tickets : List Nat
  nextTicket : Nat
  /-- Whether the connection can be used again when the last holder has let go. -/
  fitness : Fitness
deriving DecidableEq

namespace Usage

/-- Nobody uses the connection. -/
def none : Usage := ⟨0, [], 0, .fresh⟩

end Usage

/-! ## Requests of resolvers -/

/-- An answer of a resolver: the document and the shape it has. -/
structure Answer where
  shape : Shape
  value : Json

/-- What a request is cached under. -/
structure CacheKey where
  tag : String
  transaction : Option Nat
  input : String
deriving DecidableEq

/-- A request that waits for its batch. -/
structure PendingRequest where
  client : Client
  input : Input
  /-- Where the answer goes, by its number. -/
  slot : Nat

/-! ## The store -/

/-- The shared store over a database `β`. -/
structure Store (β : Type) where
  backend : β
  log : List Event
  /-- Attempts so far to get a connection. -/
  attempts : Nat
  usage : List (Nat × Usage)
  /-- For every scope opened so far, whether it has ended. -/
  ended : List Bool
  /-- Root transactions so far. -/
  transactions : Nat
  caches : List (RequestCache CacheKey Nat)
  queues : List (BatchQueue PendingRequest)
  slots : List (Option (Outcome Answer))
  clock : Clock
  /-- Someone has met a statement that never ends. -/
  stalled : Bool

namespace Store

variable {β : Type}

/-- The store of a program that has not begun, with one request cache. -/
def start (backend : β) (cache : RequestCache CacheKey Nat) : Store β :=
  ⟨backend, [], 0, [], [], 0, [cache], [], [], .start, false⟩

/-! ### The log -/

/-- Notes an event. -/
def note (s : Store β) (e : Event) : Store β := { s with log := s.log ++ [e] }

/-! ### Connections -/

/-- Those who use a connection. -/
def usageOf (s : Store β) (n : Nat) : Usage := (s.usage.lookup n).getD .none

/-- Changes who uses a connection. -/
def setUsage (s : Store β) (n : Nat) (u : Usage) : Store β :=
  { s with usage := (n, u) :: s.usage.filter fun e => e.1 ≠ n }

/-- Asks for a connection; whoever gets it holds it. -/
def acquire [Backend β] (acquirer : Acquirer) (s : Store β) : Outcome Nat × Store β :=
  let n := s.attempts + 1
  let (refusal, backend) := Backend.connect n s.backend
  let s := { s with backend, attempts := n }
  match refusal with
  | some e => (.error e, s.note (.refused n))
  | none => (.ok n, (s.setUsage n { Usage.none with holders := 1 }).note (.acquired acquirer n))

/-- One more handle keeps a connection open. -/
def hold (n : Nat) (s : Store β) : Store β :=
  let u := s.usageOf n
  s.setUsage n { u with holders := u.holders + 1 }

/-- A handle lets go of a connection; with the last one it is released. -/
def letGo (n : Nat) (s : Store β) : Store β :=
  let u := s.usageOf n
  let s := s.setUsage n { u with holders := u.holders - 1 }
  if u.holders ≤ 1 then s.note (.released n) else s

/-- Takes a ticket for sending over a connection. -/
def takeTicket (n : Nat) (s : Store β) : Nat × Store β :=
  let u := s.usageOf n
  (u.nextTicket,
    s.setUsage n { u with tickets := u.tickets ++ [u.nextTicket], nextTicket := u.nextTicket + 1 })

/-- Whether a ticket is being served. -/
def isServed (n ticket : Nat) (s : Store β) : Bool := (s.usageOf n).tickets.head? == some ticket

/-- Gives a ticket back, served or not. -/
def returnTicket (n ticket : Nat) (s : Store β) : Store β :=
  let u := s.usageOf n
  s.setUsage n { u with tickets := u.tickets.filter (· ≠ ticket) }

/-- Changes what is known about the state of a connection. -/
def changeFitness (n : Nat) (f : Fitness → Fitness) (s : Store β) : Store β :=
  let u := s.usageOf n
  s.setUsage n { u with fitness := f u.fitness }

/-- Sends a request over a connection; tells how many turns its answer takes. -/
def send [Backend β] (n : Nat) (r : Request) (s : Store β) : Nat × Store β :=
  let s := (s.changeFitness n .beginRequest).note (r.event n)
  (Backend.delay r s.backend, s)

/-- Asks for the answer to a request that was sent. -/
def receive [Backend β] (n : Nat) (r : Request) (s : Store β) : Response × Store β :=
  let (response, backend) := Backend.respond n r s.backend
  (response, { s with backend })

/-- The answer to a request has come. -/
def finish (n : Nat) (s : Store β) : Store β := s.changeFitness n .finishRequest

/-- A connection must not be used again. -/
def markBroken (n : Nat) (s : Store β) : Store β :=
  (s.changeFitness n .markBroken).note (.broken n)

/-- A client holds the connection of its transaction. -/
def holdFor (c : Client) (s : Store β) : Store β :=
  match c.connection? with
  | some n => s.hold n
  | none => s

/-- A client lets go of the connection of its transaction. -/
def letGoFor (c : Client) (s : Store β) : Store β :=
  match c.connection? with
  | some n => s.letGo n
  | none => s

/-! ### Scopes -/

/-- A fresh mark for a scope. -/
def openMark (s : Store β) : Nat × Store β := (s.ended.length, { s with ended := s.ended ++ [false] })

/-- The scope of a new root transaction on a connection. -/
def openRoot (n : Nat) (s : Store β) : Scope × Store β :=
  let (mark, s) := s.openMark
  let id := s.transactions + 1
  (⟨id, n, 0, [mark]⟩, { s with transactions := id })

/-- The scope of a savepoint inside another scope. -/
def openNested (parent : Scope) (s : Store β) : Scope × Store β :=
  let (mark, s) := s.openMark
  ({ parent with depth := parent.depth + 1, marks := parent.marks ++ [mark] }, s)

/-- Ends a scope. -/
def endScope (scope : Scope) (s : Store β) : Store β :=
  match scope.marks.getLast? with
  | some mark => { s with ended := s.ended.set mark true }
  | none => s

/-- Whether neither the scope nor one around it has ended. -/
def isOpen (scope : Scope) (s : Store β) : Bool :=
  scope.marks.all fun mark => !(s.ended.getD mark true)

/-! ### Time -/

/-- The time. -/
def now (s : Store β) : Nat := s.clock.now

/-- Sets an alarm: the moment that is `ms` milliseconds away. -/
def setAlarm (ms : Nat) (s : Store β) : Nat × Store β :=
  let (moment, clock) := s.clock.setAlarm ms
  (moment, { s with clock })

/-- Whether a moment has come. -/
def hasCome (moment : Nat) (s : Store β) : Bool := s.clock.hasCome moment

/-- The store at its next alarm. -/
def advance (s : Store β) : Option (Store β) := s.clock.advance.map fun clock => { s with clock }

instance : Coroutine.Clocked (Store β) := ⟨advance⟩

/-! ### Caches, queues and slots -/

/-- A new request cache. -/
def openCache (capacity ttl : Nat) (s : Store β) : Nat × Store β :=
  (s.caches.length, { s with caches := s.caches ++ [.empty capacity ttl] })

/-- The request cache with a number. -/
def cache (n : Nat) (s : Store β) : RequestCache CacheKey Nat := s.caches.getD n .default

/-- Changes a request cache. -/
def changeCache (n : Nat) (f : RequestCache CacheKey Nat → RequestCache CacheKey Nat)
    (s : Store β) : Store β :=
  { s with caches := s.caches.modify n f }

/-- A new batch queue. -/
def openQueue (s : Store β) : Nat × Store β :=
  (s.queues.length, { s with queues := s.queues ++ [.empty] })

/-- The batch queue with a number. -/
def queue (n : Nat) (s : Store β) : BatchQueue PendingRequest := s.queues.getD n .empty

/-- A new slot. -/
def openSlot (content : Option (Outcome Answer)) (s : Store β) : Nat × Store β :=
  (s.slots.length, { s with slots := s.slots ++ [content] })

/-- The answer in a slot. -/
def slot? (n : Nat) (s : Store β) : Option (Outcome Answer) := (s.slots[n]?).join

/-- Puts an answer into a slot. -/
def deliver (n : Nat) (answer : Outcome Answer) (s : Store β) : Store β :=
  { s with slots := s.slots.set n (some answer) }

end Store

end SqlClient
