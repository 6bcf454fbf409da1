import SqlClient.Pool.Basic
/-!
# Pools — running

What takes time in a pool: opening connections, which is tried again after failures, and asking for
one, which ends when the patience of the settings does. A connection is checked before it is handed
out, and closed if it does not answer.
-/

namespace SqlClient

namespace Pool

variable {β : Type}

/-! ## Time -/

/-- Sets an alarm. A timer never goes off early, so it does in the millisecond after its time. -/
def setTimer (ms : Nat) (p : Pool β) : Nat × Pool β :=
  let (moment, clock) := p.clock.setAlarm (ms + 1)
  (moment, { p with clock })

/-- Whether a moment has come. -/
def hasCome (moment : Nat) (p : Pool β) : Bool := p.clock.hasCome moment

/-- Waits until a number of milliseconds has passed. -/
def sleep (ms : Nat) : Coroutine (Pool β) Unit := do
  let moment ← Coroutine.perform (setTimer ms)
  Coroutine.waitFor (hasCome moment)

/-! ## Opening -/

/-- The pause after a failed attempt, from the one before it: twice as long, but at least 400
milliseconds, and never more than half of the patience. -/
def nextPause (patience last : Nat) : Nat := min (patience / 2) (2 * max 200 last)

/-- Opens a connection. A failed attempt is repeated after a pause, until the patience for the
whole is exceeded; the error is then the last one. Attempts are limited because each pause takes
time. -/
def openWithin [Backend β] (begun : Nat) : Nat → Nat → Coroutine (Pool β) (Outcome Unit)
  | 0, _ => return .error .poolTimeout
  | limit + 1, last => do
    match ← Coroutine.perform connect with
    | .ok () => return .ok ()
    | .error e => do
      let patience ← Coroutine.inspect (·.settings.acquireTimeout)
      let now ← Coroutine.inspect (·.clock.now)
      if patience < now - begun then return .error e
      else do
        let pause := nextPause patience last
        sleep pause
        if ← Coroutine.inspect (·.startFault.isSome) then return .error e
        openWithin begun limit pause

/-- An approved opening: `onFailure` is what happens to the pool if it fails for good. -/
def fulfil [Backend β] (onFailure : Error → Pool β → Pool β) : Coroutine (Pool β) Unit := do
  let now ← Coroutine.inspect (·.clock.now)
  let patience ← Coroutine.inspect (·.settings.acquireTimeout)
  match ← openWithin now (patience + 2) 0 with
  | .ok () => return ()
  | .error e => Coroutine.change fun p => onFailure e p.abandonOpening

/-- Begins approved openings in the background. -/
def beginOpenings [Backend β] (onFailure : Error → Pool β → Pool β) :
    Nat → Coroutine (Pool β) Unit
  | 0 => return ()
  | n + 1 => do
    Coroutine.start (fulfil onFailure)
    beginOpenings onFailure n

/-- Begins openings whose failure nobody waits for. -/
def replenish [Backend β] (granted : Nat) : Coroutine (Pool β) Unit :=
  beginOpenings (fun _ p => p) granted

/-- Opens the smallest number of connections. The first opening that fails keeps the pool from
starting, and what was opened is closed. -/
def launch [Backend β] : Coroutine (Pool β) (Outcome Unit) := do
  let granted ← Coroutine.perform refill
  beginOpenings (fun e p => { p with startFault := p.startFault <|> some e }) granted
  Coroutine.waitFor fun p => p.startFault.isSome || p.opening == 0
  match ← Coroutine.inspect (·.startFault) with
  | none => return .ok ()
  | some e => do
    Coroutine.change closeIdle
    return .error e

/-! ## Requests -/

/-- Sends a request and waits for its answer, however long that takes. -/
def exchange [Backend β] (n : Nat) (r : Request) : Coroutine (Pool β) (Outcome ResultSet) := do
  let turns ← Coroutine.perform (send n r)
  Coroutine.giveWay turns
  let response ← Coroutine.perform (receive n r)
  response.wait (Coroutine.waitFor fun _ => false)

/-- Runs a request on a connection that was handed out. Until its answer has come the request is in
flight, also when it is given up. -/
def run [Backend β] (n : Nat) (r : Request) : Coroutine (Pool β) (Outcome ResultSet) := do
  Coroutine.change (changeFitness n .beginRequest)
  let outcome ← exchange n r
  Coroutine.change (changeFitness n .finishRequest)
  return outcome

/-- The script that shows that a connection still answers. -/
def healthCheck : String := "SELECT 1"

/-- Whether a connection still answers. -/
def answers [Backend β] (n : Nat) : Coroutine (Pool β) Bool := do
  match ← exchange n (.script healthCheck) with
  | .ok _ => return true
  | .error _ => return false

/-! ## Taking and giving back -/

/-- Takes the first idle connection that still answers, and waits for one if there is none. -/
def takeAnswering [Backend β] : Nat → Coroutine (Pool β) Nat
  | 0 => do
    Coroutine.waitFor fun _ => false
    return 0
  | limit + 1 => do
    let (next, granted) ← Coroutine.perform takeIdle
    replenish granted
    match next with
    | some n =>
      if ← answers n then return n
      else do
        replenish (← Coroutine.perform (discard n))
        takeAnswering limit
    | none => do
      Coroutine.waitFor fun p => !p.idle.isEmpty
      takeAnswering limit

/-- Takes a connection out of the pool, or runs out of patience. -/
def take [Backend β] : Coroutine (Pool β) (Outcome Nat) := do
  let patience ← Coroutine.inspect (·.settings.acquireTimeout)
  let deadline ← Coroutine.perform (setTimer patience)
  Coroutine.change enter
  let search := Coroutine.ensuring leave (takeAnswering Coroutine.turnLimit)
  match ← Coroutine.giveUpWhen (hasCome deadline) search with
  | some n => return .ok n
  | none => return .error .poolTimeout

/-- Gives a connection back to the pool. -/
def release [PooledBackend β] (n : Nat) : Coroutine (Pool β) Unit := do
  replenish (← Coroutine.perform (giveBack n))

end Pool

end SqlClient
