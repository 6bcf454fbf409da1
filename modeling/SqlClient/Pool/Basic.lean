import SqlClient.Backend
import SqlClient.Coroutine.Clock
import SqlClient.Coroutine.Scheduler
import SqlClient.Pool.Fitness
import SqlClient.Pool.Settings
/-!
# Pools

A pool keeps connections open for those who will need one. Connections that nobody uses wait in a
queue: the one that came back first is handed out first. Openings are approved before they begin,
so that open connections and those that are still being opened never exceed the largest size
together; the idle ones and those being opened are kept at the smallest size where that allows it.

Each operation here is one uninterrupted change; what takes time is in the module on running.
-/

namespace SqlClient

/-- A database whose connections can be asked whether the other side is gone. -/
class PooledBackend (β : Type) extends Backend β where
  isClosed : Nat → β → Bool

/-- A connection of a pool, known by the number of the attempt that opened it. -/
structure PooledConnection where
  number : Nat
  openedAt : Nat
  fitness : Fitness
deriving DecidableEq

/-- What happens to the connections of a pool. -/
inductive PoolEvent
  | opened (connection : Nat)
  /-- An attempt failed. -/
  | refused (attempt : Nat)
  | statement (connection : Nat) (sql : String) (params : List Value)
  | script (connection : Nat) (sql : String)
  | closed (connection : Nat)
deriving DecidableEq

/-- The event of a request. -/
def PoolEvent.ofRequest (n : Nat) : Request → PoolEvent
  | .statement sql params => .statement n sql params
  | .script sql => .script n sql

/-- A pool over a database `β`. -/
structure Pool (β : Type) where
  backend : β
  settings : PoolSettings
  clock : Clock
  /-- Attempts so far to open a connection. -/
  attempts : Nat
  /-- The open connections, idle or in use. -/
  connections : List PooledConnection
  /-- The numbers of the idle ones, the next to be handed out first. -/
  idle : List Nat
  /-- Approved openings that have neither succeeded nor been abandoned. -/
  opening : Nat
  /-- Those who ask for a connection. -/
  takers : Nat
  /-- What kept the pool from starting. -/
  startFault : Option Error
  log : List PoolEvent

namespace Pool

variable {β : Type}

/-- A pool without connections. -/
def start (settings : PoolSettings) (backend : β) : Pool β :=
  ⟨backend, settings, .start, 0, [], [], 0, 0, none, []⟩

/-- Notes an event. -/
def note (p : Pool β) (e : PoolEvent) : Pool β := { p with log := p.log ++ [e] }

instance : Coroutine.Clocked (Pool β) :=
  ⟨fun p => p.clock.advance.map fun clock => { p with clock }⟩

/-! ## Approvals -/

/-- Approves as many of `n` openings as the largest size leaves room for. -/
def approve (n : Nat) (p : Pool β) : Nat × Pool β :=
  let granted := min n (p.settings.maxSize - (p.connections.length + p.opening))
  (granted, { p with opening := p.opening + granted })

/-- Approves what is missing from the smallest size. -/
def refill (p : Pool β) : Nat × Pool β :=
  p.approve (p.settings.minSize - (p.idle.length + p.opening))

/-! ## Opening -/

/-- Tries to open a connection for an approved opening. -/
def connect [Backend β] (p : Pool β) : Outcome Unit × Pool β :=
  let n := p.attempts + 1
  let (refusal, backend) := Backend.connect n p.backend
  let p := { p with backend, attempts := n }
  match refusal with
  | some e => (.error e, p.note (.refused n))
  | none =>
    let opened : PooledConnection := ⟨n, p.clock.now, .fresh⟩
    let p :=
      { p with
        connections := p.connections ++ [opened]
        idle := p.idle ++ [n]
        opening := p.opening - 1 }
    (.ok (), p.note (.opened n))

/-- Abandons an approved opening. -/
def abandonOpening (p : Pool β) : Pool β := { p with opening := p.opening - 1 }

/-! ## Handing out -/

/-- One more asks for a connection. -/
def enter (p : Pool β) : Pool β := { p with takers := p.takers + 1 }

/-- One who asked has been served or has left. -/
def leave (p : Pool β) : Pool β := { p with takers := p.takers - 1 }

/-- Takes the idle connection that is next, and approves openings: those that are missing from the
smallest size after that, or one for a taker who would wait for nothing. -/
def takeIdle (p : Pool β) : (Option Nat × Nat) × Pool β :=
  match p.idle with
  | n :: rest =>
    let (granted, p) := { p with idle := rest }.refill
    ((some n, granted), p)
  | [] =>
    let (granted, p) := p.approve (if p.opening < p.takers then 1 else 0)
    ((none, granted), p)

/-! ## Using -/

/-- Changes what is known about the state of a connection. -/
def changeFitness (n : Nat) (f : Fitness → Fitness) (p : Pool β) : Pool β :=
  { p with
    connections := p.connections.map fun c =>
      if c.number = n then { c with fitness := f c.fitness } else c }

/-- Sends a request over a connection; tells how many turns its answer takes. -/
def send [Backend β] (n : Nat) (r : Request) (p : Pool β) : Nat × Pool β :=
  (Backend.delay r p.backend, p.note (.ofRequest n r))

/-- Asks for the answer to a request that was sent. -/
def receive [Backend β] (n : Nat) (r : Request) (p : Pool β) : Response × Pool β :=
  let (response, backend) := Backend.respond n r p.backend
  (response, { p with backend })

/-! ## Coming back -/

/-- Whether an open connection can be handed out again. -/
def isReusable [PooledBackend β] (p : Pool β) (c : PooledConnection) : Bool :=
  !c.fitness.isUnfit (PooledBackend.isClosed c.number p.backend) &&
    p.clock.now - c.openedAt < p.settings.idleTtl

/-- Closes a connection and approves its replacement. -/
def discard (n : Nat) (p : Pool β) : Nat × Pool β :=
  let (granted, p) :=
    { p with connections := p.connections.filter fun c => c.number ≠ n }.refill
  (granted, p.note (.closed n))

/-- Takes a connection back: it becomes idle if it can be handed out again, and is closed
otherwise. -/
def giveBack [PooledBackend β] (n : Nat) (p : Pool β) : Nat × Pool β :=
  match p.connections.find? fun c => c.number = n with
  | some c => if p.isReusable c then (0, { p with idle := p.idle ++ [n] }) else p.discard n
  | none => (0, p)

/-- Closes every idle connection. -/
def closeIdle (p : Pool β) : Pool β :=
  { p with
    connections := p.connections.filter fun c => !p.idle.contains c.number
    idle := []
    log := p.log ++ p.idle.map .closed }

end Pool

end SqlClient
