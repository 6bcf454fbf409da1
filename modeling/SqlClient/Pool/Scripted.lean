import SqlClient.Pool.Run
/-!
# Pools — scripted runs

A database whose faults are scripted, and scripts of what the users of a pool over it do. After
every step all background work runs until it waits, and the report of the step says what happened
to connections meanwhile.
-/

namespace SqlClient

/-! ## A database with faults -/

/-- A database that answers every request the same way, apart from its faults. -/
structure FaultyDatabase where
  /-- Attempts to connect that fail. -/
  refused : List Nat
  /-- Connections whose other side is gone. -/
  closed : List Nat
  /-- Connections and the number of health checks that they will not pass. -/
  failingChecks : List (Nat × Nat)

namespace FaultyDatabase

/-- A text that fails whenever it is run. -/
def failingSql : String := "FAIL"

/-- A text that never finishes. -/
def endlessSql : String := "HANG"

/-- The health checks that a connection will not pass. -/
def failuresOf (d : FaultyDatabase) (n : Nat) : Nat := (d.failingChecks.lookup n).getD 0

/-- Sets the number of health checks that a connection will not pass. -/
def setFailures (n count : Nat) (d : FaultyDatabase) : FaultyDatabase :=
  { d with failingChecks := (n, count) :: d.failingChecks.filter fun e => e.1 ≠ n }

/-- The other side of a connection is gone from now on. -/
def close (n : Nat) (d : FaultyDatabase) : FaultyDatabase := { d with closed := n :: d.closed }

/-- Answers a request that is no health check. -/
def answer (r : Request) (failure : String) : Response :=
  if r.sql = failingSql then .answer (.error (.ofMessage failure))
  else if r.sql = endlessSql then .never
  else .answer (.ok (.ofAffected 1))

instance : PooledBackend FaultyDatabase where
  connect n d :=
    (if d.refused.contains n then some (.ofMessage ("connect " ++ toString n ++ " failed"))
      else none, d)
  respond n r d :=
    match r with
    | .statement _ _ => (answer r "statement failed", d)
    | .script sql =>
      match d.failuresOf n with
      | left + 1 =>
        if sql = Pool.healthCheck then
          (.answer (.error (.ofMessage "ping failed")), d.setFailures n left)
        else (answer r "batch failed", d)
      | 0 => (answer r "batch failed", d)
  isClosed n d := d.closed.contains n

end FaultyDatabase

/-! ## Scripts -/

/-- A step of a script. Users keep connections under names. -/
inductive PoolStep
  | take (user : String)
  | release (user : String)
  | run (user : String) (r : Request)
  | markBroken (user : String)
  /-- Begins a request and gives it up unless it finishes at once. -/
  | abandon (user : String) (r : Request)
  /-- The other side of a connection is gone. -/
  | close (connection : Nat)
  /-- A connection will not pass its next health checks. -/
  | failChecks (connection count : Nat)
  | sleep (ms : Nat)

/-- What a step that succeeds has to say. -/
inductive PoolAnswer
  | nothing
  | result (rs : ResultSet)
  /-- Whether the request had finished. -/
  | finished (b : Bool)

/-- What is reported of a step. -/
structure PoolReport where
  outcome : Outcome PoolAnswer
  /-- What happened since the last report. -/
  log : List PoolEvent
  /-- The open connections, and those of them that are idle. -/
  size : Nat
  idle : Nat

/-- What becomes of a script. -/
inductive PoolRun
  /-- Callers that would not wait at all are a fault of the program that builds the pool. -/
  | impatient
  /-- The pool could not be built. -/
  | refused (e : Error) (log : List PoolEvent)
  /-- The report of the start, and one of each step. -/
  | played (start : PoolReport) (steps : List PoolReport)

namespace Pool

variable {β : Type}

/-- The connections that users keep. -/
abbrev Users := List (String × Nat)

/-- Changes the database of a pool. -/
def changeBackend (f : β → β) (p : Pool β) : Pool β := { p with backend := f p.backend }

/-- Takes what was logged since the last time. -/
def takeLog (p : Pool β) : List PoolEvent × Pool β := (p.log, { p with log := [] })

/-- Lets background work run, and reports. -/
def report (outcome : Outcome PoolAnswer) : Coroutine (Pool β) PoolReport := do
  Coroutine.quiesce
  let log ← Coroutine.perform takeLog
  Coroutine.inspect fun p => ⟨outcome, log, p.connections.length, p.idle.length⟩

/-- Runs a request for a user; one without a connection has nothing to run it on. -/
def runFor [Backend β] (users : Users) (user : String) (r : Request)
    (answer : ResultSet → PoolAnswer) : Coroutine (Pool β) (Outcome PoolAnswer) := do
  match users.lookup user with
  | some n => return (← run n r).map answer
  | none => return .ok .nothing

/-- Gives a user's connection back, if there is one. -/
def releaseFor [PooledBackend β] (users : Users) (user : String) : Coroutine (Pool β) Users := do
  match users.lookup user with
  | some n => do
    release n
    return users.filter fun e => e.1 ≠ user
  | none => return users

/-- Runs a step: its outcome, and the connections that users keep after it. -/
def playStep (users : Users) :
    PoolStep → Coroutine (Pool FaultyDatabase) (Outcome PoolAnswer × Users)
  | .take user => do
    match ← take with
    | .error e => return (.error e, users)
    | .ok n => return (.ok .nothing, (user, n) :: (← releaseFor users user))
  | .release user => return (.ok .nothing, ← releaseFor users user)
  | .run user r => do
    let answer := match r with
      | .statement _ _ => PoolAnswer.result
      | .script _ => fun _ => .nothing
    return (← runFor users user r answer, users)
  | .markBroken user => do
    match users.lookup user with
    | some n => Coroutine.change (changeFitness n .markBroken)
    | none => pure ()
    return (.ok .nothing, users)
  | .abandon user r => do
    let finished ← Coroutine.giveUpWhen (fun _ => true) (runFor users user r .result)
    return (.ok (.finished finished.isSome), users)
  | .close n => do
    Coroutine.change (changeBackend (.close n))
    return (.ok .nothing, users)
  | .failChecks n count => do
    Coroutine.change (changeBackend (.setFailures n count))
    return (.ok .nothing, users)
  | .sleep ms => do
    sleep ms
    return (.ok .nothing, users)

/-- Runs steps one after another, with a report of each. -/
def playSteps (users : Users) :
    List PoolStep → Coroutine (Pool FaultyDatabase) (List PoolReport)
  | [] => return []
  | s :: rest => do
    let (outcome, users) ← playStep users s
    let first ← report outcome
    return first :: (← playSteps users rest)

/-- Starts a pool and runs a script on it. -/
def playAll (steps : List PoolStep) : Coroutine (Pool FaultyDatabase) PoolRun := do
  match ← launch with
  | .error e => return .refused e (← Coroutine.perform takeLog)
  | .ok () => do
    let first ← report (.ok .nothing)
    return .played first (← playSteps [] steps)

/-- Runs a script on a pool with given settings; `none` if it never ends. -/
def play (settings : PoolSettings) (d : FaultyDatabase) (steps : List PoolStep) : Option PoolRun :=
  match settings.validate with
  | .error e => some (.refused e [])
  | .ok () =>
    if settings.acquireTimeout = 0 then some .impatient
    else ((playAll steps).run (start settings d)).map Prod.fst

end Pool

end SqlClient
