/-!
# Coroutines

A coroutine over a state is a computation that runs in turns. During a turn it changes the state
without interruption; it gives way only where it waits for a condition on the state, pauses, or
waits for background work to settle. Several coroutines may take part in one turn: a few of them
always in the same order, a crowd of them so that those who gave way in one turn come last, and last
one first, in the next. A coroutine can be given up at any point where it waits, and guards say what
happens then.

A coroutine is data, so a turn is a function: `Coroutine.poll` takes it through one turn.
-/

namespace SqlClient

/-- A computation over states `σ` with a result. -/
inductive Coroutine (σ : Type) : Type → Type 1
  /-- Finished with a result. -/
  | done {α : Type} (a : α) : Coroutine σ α
  /-- Changes the state and goes on with what it learned. -/
  | step {α ρ : Type} (f : σ → ρ × σ) (k : ρ → Coroutine σ α) : Coroutine σ α
  /-- Waits until the state satisfies a condition. -/
  | await {α : Type} (ready : σ → Bool) (k : Coroutine σ α) : Coroutine σ α
  /-- Gives way once; `begun` holds when it has. -/
  | pause {α : Type} (begun : Bool) (k : Coroutine σ α) : Coroutine σ α
  /-- Waits until no background task can go on. -/
  | settle {α : Type} (k : Coroutine σ α) : Coroutine σ α
  /-- Runs two coroutines side by side until both have finished. -/
  | both {α β γ : Type} (l : Coroutine σ β) (r : Coroutine σ γ) (k : β → γ → Coroutine σ α) :
      Coroutine σ α
  /-- Runs many coroutines side by side until all have finished; `order` is that of their turns. -/
  | crowd {α β : Type} {n : Nat} (members : Fin n → Coroutine σ β) (order : List (Fin n))
      (k : List β → Coroutine σ α) : Coroutine σ α
  /-- Runs a body. If the body is given up, `cleanup` changes the state and `rescue`, if there is
  one, becomes a background task. -/
  | guarded {α β : Type} (cleanup : σ → σ) (rescue : Option (Coroutine σ Unit))
      (body : Coroutine σ β) (k : β → Coroutine σ α) : Coroutine σ α
  /-- Runs a body until it finishes or a signal is up at the end of its turn. In the latter case
  the signal is taken down and the body given up. -/
  | race {α β : Type} (signal : σ → Bool) (takeDown : σ → σ) (body : Coroutine σ β)
      (k : Option β → Coroutine σ α) : Coroutine σ α
  /-- Starts a background task. -/
  | spawn {α : Type} (task : Coroutine σ Unit) (k : Coroutine σ α) : Coroutine σ α

namespace Coroutine

variable {σ : Type}

/-! ## Sequencing -/

/-- One coroutine after another. -/
def bind {α β : Type} : Coroutine σ α → (α → Coroutine σ β) → Coroutine σ β
  | .done a, f => f a
  | .step g k, f => .step g fun r => (k r).bind f
  | .await ready k, f => .await ready (k.bind f)
  | .pause begun k, f => .pause begun (k.bind f)
  | .settle k, f => .settle (k.bind f)
  | .both l r k, f => .both l r fun x y => (k x y).bind f
  | .crowd members order k, f => .crowd members order fun xs => (k xs).bind f
  | .guarded cleanup rescue body k, f => .guarded cleanup rescue body fun x => (k x).bind f
  | .race signal takeDown body k, f => .race signal takeDown body fun x => (k x).bind f
  | .spawn task k, f => .spawn task (k.bind f)

instance : Monad (Coroutine σ) where
  pure := .done
  bind := bind

/-- A change of the state with an answer. -/
def perform {ρ : Type} (f : σ → ρ × σ) : Coroutine σ ρ := .step f .done

/-- A change of the state. -/
def change (f : σ → σ) : Coroutine σ Unit := perform fun s => ((), f s)

/-- What a function says of the state. -/
def inspect {ρ : Type} (f : σ → ρ) : Coroutine σ ρ := perform fun s => (f s, s)

/-- Waits for a condition. -/
def waitFor (ready : σ → Bool) : Coroutine σ Unit := .await ready (.done ())

/-- Gives way `n` times. -/
def giveWay : Nat → Coroutine σ Unit
  | 0 => .done ()
  | n + 1 => .pause false (giveWay n)

/-- Starts a background task. -/
def start (task : Coroutine σ Unit) : Coroutine σ Unit := .spawn task (.done ())

/-- Waits until no background task can go on. -/
def quiesce : Coroutine σ Unit := .settle (.done ())

/-- Runs a body and then a change of the state, which also happens if the body is given up. -/
def ensuring {α : Type} (cleanup : σ → σ) (body : Coroutine σ α) : Coroutine σ α :=
  .guarded cleanup none body fun a => .step (fun s => ((), cleanup s)) fun _ => .done a

/-- Runs a body until it finishes, or gives it up when a signal is up at the end of its turn. -/
def giveUpWhen {α : Type} (signal : σ → Bool) (body : Coroutine σ α) : Coroutine σ (Option α) :=
  .race signal (fun s => s) body .done

/-- Runs a few coroutines side by side. -/
def few {α : Type} : List (Coroutine σ α) → Coroutine σ (List α)
  | [] => .done []
  | c :: rest => .both c (few rest) fun a as => .done (a :: as)

/-- Runs many coroutines side by side. -/
def many {α : Type} (cs : List (Coroutine σ α)) : Coroutine σ (List α) :=
  .crowd (fun i : Fin cs.length => cs.get i) (List.finRange cs.length) .done

/-- The largest number of coroutines that is no crowd. -/
def fewLimit : Nat := 30

/-- Runs coroutines side by side; results come in the order of the list. -/
def all {α : Type} (cs : List (Coroutine σ α)) : Coroutine σ (List α) :=
  if cs.length ≤ fewLimit then few cs else many cs

/-- The result of a finished coroutine. -/
def result? {α : Type} : Coroutine σ α → Option α
  | .done a => some a
  | _ => none

/-! ## Turns -/

/-- What a turn works on: the state, the tasks started so far, whether someone gave way, and
whether background tasks could go on when the turn began. -/
structure Turn (σ : Type) where
  state : σ
  spawned : List (Coroutine σ Unit)
  gaveWay : Bool
  busy : Bool

/-- The beginning of a turn. -/
def Turn.start (s : σ) (busy : Bool) : Turn σ := ⟨s, [], false, busy⟩

/-- Gives a coroutine up: inner guards act before outer ones, the left of two sides before the
right, and the members of a crowd from the last to the first. -/
def drop {α : Type} : Coroutine σ α → Turn σ → Turn σ
  | .both l r _, w => r.drop (l.drop w)
  | .crowd members order _, w => order.foldr (fun i w => (members i).drop w) w
  | .guarded cleanup rescue body _, w =>
    let w := body.drop w
    { w with state := cleanup w.state, spawned := w.spawned ++ rescue.toList }
  | .race _ _ body _, w => body.drop w
  | _, w => w
termination_by structural c => c

/-- What a turn has made of a crowd: what is left of its members, those who gave way with the last
one first, the others with the last one first, and the turn. -/
structure CrowdTurn (σ β : Type) (n : Nat) where
  members : Vector (Coroutine σ β) n
  resting : List (Fin n)
  others : List (Fin n)
  turn : Turn σ

/-- Takes one member of a crowd through its part of the turn. -/
def CrowdTurn.visit {β : Type} {n : Nat} (poll : Fin n → Turn σ → Coroutine σ β × Turn σ)
    (t : CrowdTurn σ β n) (i : Fin n) : CrowdTurn σ β n :=
  match poll i { t.turn with gaveWay := false } with
  | (c, w) =>
    { members := t.members.set i c
      resting := if w.gaveWay then i :: t.resting else t.resting
      others := if w.gaveWay then t.others else i :: t.others
      turn := { w with gaveWay := t.turn.gaveWay || w.gaveWay } }

/-- Takes a coroutine through a turn: what is left of it, and what the turn has become. -/
def poll {α : Type} : Coroutine σ α → Turn σ → Coroutine σ α × Turn σ
  | .done a, w => (.done a, w)
  | .step f k, w => (k (f w.state).1).poll { w with state := (f w.state).2 }
  | .await ready k, w => if ready w.state then k.poll w else (.await ready k, w)
  | .pause true k, w => k.poll w
  | .pause false k, w => (.pause true k, { w with gaveWay := true })
  | .settle k, w =>
    if w.busy || !w.spawned.isEmpty then (.settle k, { w with gaveWay := true }) else k.poll w
  | .both l r k, w =>
    match l.poll w with
    | (l', w) =>
      match r.poll w with
      | (r', w) =>
        match l', r' with
        | .done x, .done y => (k x y).poll w
        | l', r' => (.both l' r' k, w)
  | .crowd members order k, w =>
    let t := order.foldl (CrowdTurn.visit fun i w => (members i).poll w)
      ⟨.ofFn members, [], [], w⟩
    match t.members.toList.mapM result? with
    | some xs => (k xs).poll t.turn
    | none => (.crowd (fun i => t.members.get i) (t.others.reverse ++ t.resting) k, t.turn)
  | .guarded cleanup rescue body k, w =>
    match body.poll w with
    | (.done x, w) => (k x).poll w
    | (body', w) => (.guarded cleanup rescue body' k, w)
  | .race signal takeDown body k, w =>
    match body.poll w with
    | (.done x, w) => (k (some x)).poll w
    | (body', w) =>
      if signal w.state then
        let w := body'.drop { w with state := takeDown w.state }
        (k none).poll w
      else (.race signal takeDown body' k, w)
  | .spawn task k, w => k.poll { w with spawned := w.spawned ++ [task] }
termination_by structural c => c

/-- Whether another turn would take a coroutine any further than the one it has had. -/
def canGoOn {α : Type} : Coroutine σ α → σ → Bool
  | .done _, _ => false
  | .await ready _, s => ready s
  | .both l r _, s => l.canGoOn s || r.canGoOn s
  | .crowd members order _, s => order.any fun i => (members i).canGoOn s
  | .guarded _ _ body _, s => body.canGoOn s
  | .race signal _ body _, s => signal s || body.canGoOn s
  | _, _ => true
termination_by structural c => c

end Coroutine

end SqlClient
