import SqlClient.Coroutine.Basic
import SqlClient.Number.Power
/-!
# Coroutines — the scheduler

One main coroutine and background tasks share one state on one thread. Rounds follow one another: a
turn of the main coroutine, then turns of the tasks in the order in which they became ready, until
none is. Tasks that gave way come back in the next round, the last one first. A task that waits is
ready again once its condition holds. When nobody can go on, time advances to the next alarm.
-/

namespace SqlClient

namespace Coroutine

/-- A state in which time passes: the next moment at which a condition may come to hold, if any. -/
class Clocked (σ : Type) where
  /-- The state at its next alarm. -/
  advance : σ → Option σ

/-- The state, and the tasks by what they are doing. -/
structure Tasks (σ : Type) where
  state : σ
  /-- Ready to go on, in order. -/
  ready : List (Coroutine σ Unit)
  /-- Waiting for a condition. -/
  waiting : List (Coroutine σ Unit)
  /-- Back in the next round, the last one first. -/
  resting : List (Coroutine σ Unit)

namespace Tasks

variable {σ : Type}

/-- Lets every task whose condition holds become ready, in the order in which they wait. -/
def wake (t : Tasks σ) : Tasks σ :=
  { t with
    ready := t.ready ++ t.waiting.filter (·.canGoOn t.state)
    waiting := t.waiting.filter fun c => !c.canGoOn t.state }

/-- Files a task after its turn. -/
def file (t : Tasks σ) (gaveWay : Bool) : Coroutine σ Unit → Tasks σ
  | .done () => t
  | c => if gaveWay then { t with resting := c :: t.resting } else { t with waiting := t.waiting ++ [c] }

/-- The tasks after a turn of someone. -/
def afterTurn (t : Tasks σ) (w : Turn σ) : Tasks σ :=
  { t with state := w.state, ready := t.ready ++ w.spawned }

/-- Gives turns to the ready tasks until none is ready. -/
def drain : Nat → Tasks σ → Tasks σ
  | 0, t => t
  | fuel + 1, t =>
    match t.ready with
    | [] => t
    | c :: rest =>
      let (c', w) := c.poll (Turn.start t.state false)
      drain fuel ((({ t with ready := rest }.afterTurn w).file w.gaveWay c').wake)

/-- Whether some task is ready or comes back in the next round. -/
def isBusy (t : Tasks σ) : Bool := !t.ready.isEmpty || !t.resting.isEmpty

/-- Runs rounds until the main coroutine has finished; `none` if everyone waits for good. -/
def rounds [Clocked σ] {α : Type} : Nat → Coroutine σ α → Tasks σ → Option (α × Tasks σ)
  | 0, _, _ => none
  | fuel + 1, main, t =>
    let t := { t with ready := t.ready ++ t.resting, resting := [] }
    let (main, w) := main.poll (Turn.start t.state t.isBusy)
    let t := (t.afterTurn w).wake
    match main with
    | .done a => some (a, t)
    | main =>
      let t := t.drain (fuel + 1)
      if w.gaveWay || t.isBusy || main.canGoOn t.state then rounds fuel main t
      else
        match Clocked.advance t.state with
        | some s => rounds fuel main ({ t with state := s }.wake)
        | none => none

end Tasks

/-- Turns that a run may take; no run of a finite script comes near it. -/
def turnLimit : Nat := pow2 48

/-- Runs a coroutine from a state with its background tasks until it finishes: its result and the
state at that moment. -/
def run {σ α : Type} [Clocked σ] (c : Coroutine σ α) (s : σ) : Option (α × σ) :=
  (Tasks.rounds turnLimit c ⟨s, [], [], []⟩).map fun (a, t) => (a, t.state)

end Coroutine

end SqlClient
