import SqlClient.Proofs.Coroutine.Beside
import SqlClient.Proofs.Resolver.Observed
/-!
# Resolvers — traffic

What the calls through one resolver and its flushes do, step by step. `Traffic` describes an ensemble
of them: how far each call, each flush and each batch has come, and a ledger of what has happened so
far. Every step of the ensemble is one of `Traffic.Steps` (`Shows.goes`), which say once what a step
can do; everything else about resolvers is derived from them.
-/

namespace SqlClient

namespace Resolver

open Coroutine

variable {β : Type}

/-! ## Calls -/

/-- A call through a resolver. Answers are given and forgotten through handles of the resolver,
which may belong to any client. -/
inductive Call
  | resolve (client : Client) (input : Input)
  | populate (owner : Client) (input : Input) (value : Json)
  | invalidate (owner : Client) (input : Input)

/-- The client that a call comes through. -/
def Call.client : Call → Client
  | .resolve client _ | .populate client _ _ | .invalidate client _ => client

/-- A handle of the resolver that was made from another client. -/
def ownedBy (r : Resolver β) (owner : Client) : Resolver β := { r with client := owner }

/-- What a call does. Its result is the answer to a request, and nothing otherwise. -/
def Call.run (r : Resolver β) : Call → Coroutine (Store β) (Outcome (Option Json))
  | .resolve client input => do
    let outcome ← (r.resolveIn client input).run
    return outcome.map some
  | .populate owner input value => do
    let outcome ← ((r.ownedBy owner).populate input value).run
    return outcome.map fun _ => none
  | .invalidate owner input => do
    let outcome ← ((r.ownedBy owner).invalidate input).run
    return outcome.map fun _ => none

/-- How far a call has come. -/
inductive CallStage
  | asked
  /-- The request is the first one in the queue, and its flush is about to be started. -/
  | launching (client : Client) (key : CacheKey) (ticket : Ticket)
  | waiting (client : Client) (key : CacheKey) (ticket : Ticket)
  | collecting (client : Client) (key : CacheKey) (ticket : Ticket)
  | returned (result : Outcome (Option Json))

namespace CallStage

/-- What a request returns for what it finds in its slot. -/
def conclude (r : Resolver β) : Outcome Answer → Outcome (Option Json)
  | .ok answer => (r.unpack answer).map some
  | .error e => .error e

/-- Reads the slot. -/
def collect (r : Resolver β) (client : Client) (key : CacheKey) (ticket : Ticket) :
    Coroutine (Store β) (Outcome (Option Json)) :=
  .step (Resolver.collect client key ticket) fun o => .done (conclude r o)

/-- Waits for the slot to be delivered and reads it. -/
def wait (r : Resolver β) (client : Client) (key : CacheKey) (ticket : Ticket) :
    Coroutine (Store β) (Outcome (Option Json)) :=
  .await (fun s => (s.slot? ticket.slot).isSome) (collect r client key ticket)

/-- What a call does from a stage on. -/
def code (r : Resolver β) (call : Call) : CallStage → Coroutine (Store β) (Outcome (Option Json))
  | asked => call.run r
  | launching client key ticket => .spawn r.flush (wait r client key ticket)
  | waiting client key ticket => wait r client key ticket
  | collecting client key ticket => collect r client key ticket
  | returned result => .done result

/-- Where a request stands when it has found or opened its slot. -/
def ofTicket (client : Client) (key : CacheKey) (ticket : Ticket) : CallStage :=
  if ticket.schedules then .launching client key ticket else .waiting client key ticket

end CallStage

theorem run_resolve {r : Resolver β} {client : Client} {input : Input} {key : CacheKey}
    (hkey : r.key client input = .ok key) :
    Call.run r (.resolve client input) = .step (r.lookupOrEnqueue client input key) fun ticket =>
      (CallStage.ofTicket client key ticket).code r (.resolve client input) := by
  have hcollect (o : Outcome Answer) :
      ((match o with
        | .ok answer => .done (r.unpack answer)
        | .error e => .done (.error e) : Coroutine (Store β) (Outcome Json)).bind
          fun o => .done (o.map some)) = .done (CallStage.conclude r o) := by
    cases o <;> rfl
  -- the code that waits is that of a stage, once the answer is unpacked alike
  have hwait (ticket : Ticket) :
      (Coroutine.await (fun s => (s.slot? ticket.slot).isSome)
        (.step (Resolver.collect client key ticket) fun o =>
          (match o with
            | .ok answer => .done (r.unpack answer)
            | .error e => .done (.error e) : Coroutine (Store β) (Outcome Json)).bind
              fun o => .done (o.map some))) = CallStage.wait r client key ticket := by
    rw [CallStage.wait, CallStage.collect]
    congr 2
    exact funext hcollect
  change Coroutine.bind (ExceptT.run (r.resolveIn client input)) _ = _
  rw [resolveIn, hkey]
  refine congrArg (Coroutine.step (r.lookupOrEnqueue client input key)) (funext fun ticket => ?_)
  obtain ⟨id, slot, schedules⟩ := ticket
  cases schedules
  · exact hwait ⟨id, slot, false⟩
  · exact congrArg (Coroutine.spawn r.flush) (hwait ⟨id, slot, true⟩)

theorem run_resolve_error {r : Resolver β} {client : Client} {input : Input} {e : Error}
    (hkey : r.key client input = .error e) : Call.run r (.resolve client input) = .done (.error e) := by
  change Coroutine.bind (ExceptT.run (r.resolveIn client input)) _ = _
  rw [resolveIn, hkey]
  rfl

/-- Gives an answer under a key, in a slot of its own. -/
def give (r : Resolver β) (owner : Client) (key : CacheKey) (value : Json) (s : Store β) : Store β :=
  (s.openSlot (some (.ok ⟨r.answer, value⟩))).2.changeCache owner.cache
    (·.populate key s.slots.length s.now)

theorem run_populate {r : Resolver β} {owner : Client} {input : Input} {value : Json} {key : CacheKey}
    (hkey : r.key owner input = .ok key) :
    Call.run r (.populate owner input value) =
      .step (fun s => ((), r.give owner key value s)) fun _ => .done (.ok none) := by
  change Coroutine.bind (ExceptT.run ((r.ownedBy owner).populate input value)) _ = _
  rw [populate]
  change Coroutine.bind (ExceptT.run (Work.ofOutcome (r.key owner input) >>= _)) _ = _
  rw [hkey]
  rfl

theorem run_populate_error {r : Resolver β} {owner : Client} {input : Input} {value : Json} {e : Error}
    (hkey : r.key owner input = .error e) :
    Call.run r (.populate owner input value) = .done (.error e) := by
  change Coroutine.bind (ExceptT.run ((r.ownedBy owner).populate input value)) _ = _
  rw [populate]
  change Coroutine.bind (ExceptT.run (Work.ofOutcome (r.key owner input) >>= _)) _ = _
  rw [hkey]
  rfl

theorem run_invalidate {r : Resolver β} {owner : Client} {input : Input} {key : CacheKey}
    (hkey : r.key owner input = .ok key) :
    Call.run r (.invalidate owner input) =
      .step (fun s => ((), s.changeCache owner.cache (·.invalidate key))) fun _ => .done (.ok none) := by
  change Coroutine.bind (ExceptT.run ((r.ownedBy owner).invalidate input)) _ = _
  rw [invalidate]
  change Coroutine.bind (ExceptT.run (Work.ofOutcome (r.key owner input) >>= _)) _ = _
  rw [hkey]
  rfl

theorem run_invalidate_error {r : Resolver β} {owner : Client} {input : Input} {e : Error}
    (hkey : r.key owner input = .error e) :
    Call.run r (.invalidate owner input) = .done (.error e) := by
  change Coroutine.bind (ExceptT.run ((r.ownedBy owner).invalidate input)) _ = _
  rw [invalidate]
  change Coroutine.bind (ExceptT.run (Work.ofOutcome (r.key owner input) >>= _)) _ = _
  rw [hkey]
  rfl

/-! ## Batches -/

/-- Takes over the holds of the requests of a batch: the batch keeps the client of the first one. -/
def takeOver (first : PendingRequest) (requests : List PendingRequest) (s : Store β) : Store β :=
  requests.foldl (fun s request => s.letGoFor request.client) (s.holdFor first.client)

/-- Delivers the answers of a batch to its requests. -/
def deliverTo (r : Resolver β) (requests : List PendingRequest) (answers : List (Outcome Json))
    (s : Store β) : Store β :=
  deliverAll r.answer (requests.map (·.slot)) (matched requests.length answers) s

/-- How far a batch has come. `place` says where its call is written down. -/
inductive BatchStage (β : Type)
  | ready
  | calling
  | running (place : Nat) (rest : Coroutine (Store (Observed β)) (List (Outcome Json)))
  | leaving (place : Nat) (answers : List (Outcome Json))
  | delivering (place : Nat) (answers : List (Outcome Json))
  | delivered

/-- A batch that is under way. -/
structure Batch (β : Type) where
  requests : List PendingRequest
  stage : BatchStage β

namespace Batch

variable {r : Resolver (Observed β)}

/-- Delivers the answers. -/
def deliver (r : Resolver (Observed β)) (requests : List PendingRequest)
    (answers : List (Outcome Json)) : Coroutine (Store (Observed β)) Unit :=
  .step (fun s => ((), r.deliverTo requests answers s)) fun _ => .done ()

/-- Lets go of the client and delivers the answers. -/
def leave (r : Resolver (Observed β)) (first : PendingRequest) (requests : List PendingRequest)
    (answers : List (Outcome Json)) : Coroutine (Store (Observed β)) Unit :=
  .step (fun s => ((), s.letGoFor first.client)) fun _ => deliver r requests answers

/-- Writes down what the batch function returns. -/
def finish (place : Nat) (answers : List (Outcome Json)) :
    Coroutine (Store (Observed β)) (List (Outcome Json)) :=
  .step (fun s => ((), s.noteReturn place answers)) fun _ => .done answers

/-- What a batch does from its stage on. -/
def code (r : Resolver (Observed β)) : Batch β → Coroutine (Store (Observed β)) Unit
  | ⟨[], _⟩ => .done ()
  | ⟨first :: others, stage⟩ =>
    let requests := first :: others
    match stage with
    | .ready => r.observed.runBatch requests
    | .calling => (observe r.batch first.client (requests.map (·.input))).bind (leave r first requests)
    | .running place rest => (rest.bind (finish place)).bind (leave r first requests)
    | .leaving _ answers => leave r first requests answers
    | .delivering _ answers => deliver r requests answers
    | .delivered => .done ()

end Batch

/-! ## Tasks -/

/-- Waits for requests to come together. -/
def gather (r : Resolver β) : Coroutine (Store β) Unit :=
  match r.window with
  | some ms => Connection.sleep ms
  | none => Coroutine.giveWay 1

/-- The batches of requests that were taken out of the queue. -/
def batchesOf (r : Resolver β) (requests : List PendingRequest) : List (List PendingRequest) :=
  BatchQueue.batches (·.client.transaction?) r.limit requests

/-- Takes all requests out of the queue. -/
def drain (r : Resolver β) (s : Store β) : List PendingRequest × Store β :=
  ((s.queue r.queue).items, { s with queues := s.queues.modify r.queue .flush })

/-- Takes the requests out of the queue and runs their batches. -/
def dispatch (r : Resolver β) : Coroutine (Store β) Unit :=
  .step r.drain fun requests =>
    (Coroutine.all ((r.batchesOf requests).map r.runBatch)).bind fun _ => .done ()

theorem flush_eq (r : Resolver β) : r.flush = r.gather.bind fun _ => r.dispatch := by
  rw [flush, gather]
  cases r.window <;> rfl

/-- A background task, by what it is doing. -/
inductive Task (β : Type)
  /-- A flush that has not taken the requests out of the queue. -/
  | gathering (rest : Coroutine (Store (Observed β)) Unit)
  /-- A flush that has. -/
  | serving (batches : List (Batch β))
  /-- A task that the batch function has started. -/
  | other (rest : Coroutine (Store (Observed β)) Unit)

/-- What a task does from here on. -/
def Task.Does (r : Resolver (Observed β)) : Task β → Coroutine (Store (Observed β)) Unit → Prop
  | .gathering rest, c => c = rest.bind fun _ => r.observed.dispatch
  | .serving batches, c =>
    ∃ rest, Beside (batches.map (·.code r)) rest ∧ c = rest.bind fun _ => .done ()
  | .other rest, c => c = rest

/-! ## Steps -/

/-- An answer that was given. -/
structure Given where
  owner : Client
  input : Input
  value : Json
  slot : Nat

/-- What has happened so far: the requests that joined the queue, the answers that were given, and
the batches that were handed to the batch function, each in order. -/
structure Ledger where
  asked : List PendingRequest
  given : List Given
  handed : List (List PendingRequest)

/-- A store with what has happened to it. -/
structure World (β : Type) where
  store : Store (Observed β)
  ledger : Ledger

/-- The step of a call. -/
inductive CallStep (r : Resolver (Observed β)) :
    World β → Call → CallStage → World β → CallStage → List (Task β) → Prop
  | hit {W : World β} {client : Client} {input : Input} {key : CacheKey} {e : CacheEntry Nat} :
      r.key client input = .ok key →
      (W.store.cache client.cache).lookup? key W.store.now = some e →
      CallStep r W (.resolve client input) .asked W (.waiting client key ⟨e.id, e.slot, false⟩) []
  | miss {s : Store (Observed β)} {L : Ledger} {client : Client} {input : Input} {key : CacheKey} :
      r.key client input = .ok key → (s.cache client.cache).lookup? key s.now = none →
      CallStep r ⟨s, L⟩ (.resolve client input) .asked
        ⟨(r.enqueue client input key s).2,
          { L with asked := L.asked ++ [⟨client, input, s.slots.length⟩] }⟩
        (.ofTicket client key (r.enqueue client input key s).1) []
  | launch {W : World β} {call : Call} {client : Client} {key : CacheKey} {ticket : Ticket} :
      CallStep r W call (.launching client key ticket) W (.waiting client key ticket)
        [.gathering r.gather]
  | wake {W : World β} {call : Call} {client : Client} {key : CacheKey} {ticket : Ticket} :
      (W.store.slot? ticket.slot).isSome = true →
      CallStep r W call (.waiting client key ticket) W (.collecting client key ticket) []
  | collect {s : Store (Observed β)} {L : Ledger} {call : Call} {client : Client} {key : CacheKey}
      {ticket : Ticket} :
      CallStep r ⟨s, L⟩ call (.collecting client key ticket) ⟨(collect client key ticket s).2, L⟩
        (.returned (CallStage.conclude r (collect client key ticket s).1)) []
  | populate {s : Store (Observed β)} {L : Ledger} {owner : Client} {input : Input} {value : Json}
      {key : CacheKey} :
      r.key owner input = .ok key →
      CallStep r ⟨s, L⟩ (.populate owner input value) .asked
        ⟨r.give owner key value s,
          { L with given := L.given ++ [⟨owner, input, value, s.slots.length⟩] }⟩
        (.returned (.ok none)) []
  | invalidate {s : Store (Observed β)} {L : Ledger} {owner : Client} {input : Input}
      {key : CacheKey} :
      r.key owner input = .ok key →
      CallStep r ⟨s, L⟩ (.invalidate owner input) .asked
        ⟨s.changeCache owner.cache (·.invalidate key), L⟩ (.returned (.ok none)) []

/-- The step of a batch. -/
inductive BatchStep (r : Resolver (Observed β)) :
    World β → Batch β → World β → Batch β → List (Task β) → Prop
  | takeOver {s : Store (Observed β)} {L : Ledger} {first : PendingRequest}
      {others : List PendingRequest} :
      BatchStep r ⟨s, L⟩ ⟨first :: others, .ready⟩ ⟨takeOver first (first :: others) s, L⟩
        ⟨first :: others, .calling⟩ []
  | hand {s : Store (Observed β)} {L : Ledger} {first : PendingRequest}
      {others : List PendingRequest} :
      BatchStep r ⟨s, L⟩ ⟨first :: others, .calling⟩
        ⟨(s.noteCall first.client ((first :: others).map (·.input))).2,
          { L with handed := L.handed ++ [first :: others] }⟩
        ⟨first :: others, .running s.backend.batches.length
          (r.batch first.client ((first :: others).map (·.input)))⟩ []
  | run {s s' : Store (Observed β)} {L : Ledger} {requests : List PendingRequest} {place : Nat}
      {c c' : Coroutine (Store (Observed β)) (List (Outcome Json))}
      {ts : List (Coroutine (Store (Observed β)) Unit)} :
      Shifts c s c' s' ts →
      BatchStep r ⟨s, L⟩ ⟨requests, .running place c⟩ ⟨s', L⟩ ⟨requests, .running place c'⟩
        (ts.map .other)
  | answer {s : Store (Observed β)} {L : Ledger} {requests : List PendingRequest} {place : Nat}
      {answers : List (Outcome Json)} :
      BatchStep r ⟨s, L⟩ ⟨requests, .running place (.done answers)⟩ ⟨s.noteReturn place answers, L⟩
        ⟨requests, .leaving place answers⟩ []
  | leave {s : Store (Observed β)} {L : Ledger} {first : PendingRequest}
      {others : List PendingRequest} {place : Nat} {answers : List (Outcome Json)} :
      BatchStep r ⟨s, L⟩ ⟨first :: others, .leaving place answers⟩ ⟨s.letGoFor first.client, L⟩
        ⟨first :: others, .delivering place answers⟩ []
  | deliver {s : Store (Observed β)} {L : Ledger} {requests : List PendingRequest} {place : Nat}
      {answers : List (Outcome Json)} :
      BatchStep r ⟨s, L⟩ ⟨requests, .delivering place answers⟩
        ⟨r.deliverTo requests answers s, L⟩ ⟨requests, .delivered⟩ []

/-- The step of a task. -/
inductive TaskStep (r : Resolver (Observed β)) :
    World β → Task β → World β → Task β → List (Task β) → Prop
  | gather {s s' : Store (Observed β)} {L : Ledger} {c c' : Coroutine (Store (Observed β)) Unit}
      {ts : List (Coroutine (Store (Observed β)) Unit)} :
      Shifts c s c' s' ts →
      TaskStep r ⟨s, L⟩ (.gathering c) ⟨s', L⟩ (.gathering c') (ts.map .other)
  | drain {s : Store (Observed β)} {L : Ledger} :
      TaskStep r ⟨s, L⟩ (.gathering (.done ())) ⟨(r.drain s).2, L⟩
        (.serving ((r.batchesOf (s.queue r.queue).items).map (⟨·, .ready⟩))) []
  | serve {W W' : World β} {bs bs' : List (Batch β)} {b b' : Batch β} {ts : List (Task β)} :
      BatchStep r W b W' b' ts →
      TaskStep r W (.serving (bs ++ b :: bs')) W' (.serving (bs ++ b' :: bs')) ts
  | other {s s' : Store (Observed β)} {L : Ledger} {c c' : Coroutine (Store (Observed β)) Unit}
      {ts : List (Coroutine (Store (Observed β)) Unit)} :
      Shifts c s c' s' ts → TaskStep r ⟨s, L⟩ (.other c) ⟨s', L⟩ (.other c') (ts.map .other)

section

variable {r : Resolver (Observed β)}

/-- What a step adds to the ledger, a call does. -/
theorem CallStep.entries {W W' : World β} {call : Call} {stage stage' : CallStage}
    {ts : List (Task β)} (hstep : CallStep r W call stage W' stage' ts) :
    (∀ q ∈ W'.ledger.asked, q ∈ W.ledger.asked ∨ call = .resolve q.client q.input) ∧
      ∀ g ∈ W'.ledger.given, g ∈ W.ledger.given ∨
        call = .populate g.owner g.input g.value ∧ stage' = .returned (.ok none) := by
  cases hstep with
  | miss _ _ =>
    refine ⟨fun q hq => (List.mem_append.1 hq).imp_right fun hq => ?_, fun g hg => .inl hg⟩
    rw [List.mem_singleton.1 hq]
  | populate _ =>
    refine ⟨fun q hq => .inl hq, fun g hg => (List.mem_append.1 hg).imp_right fun hg => ?_⟩
    rw [List.mem_singleton.1 hg]
    exact ⟨rfl, rfl⟩
  | _ => exact ⟨fun q hq => .inl hq, fun g hg => .inl hg⟩

theorem BatchStep.entries {W W' : World β} {b b' : Batch β} {ts : List (Task β)}
    (hstep : BatchStep r W b W' b' ts) :
    W'.ledger.asked = W.ledger.asked ∧ W'.ledger.given = W.ledger.given := by
  cases hstep <;> exact ⟨rfl, rfl⟩

theorem TaskStep.entries {W W' : World β} {t t' : Task β} {ts : List (Task β)}
    (hstep : TaskStep r W t W' t' ts) :
    W'.ledger.asked = W.ledger.asked ∧ W'.ledger.given = W.ledger.given := by
  cases hstep with
  | serve hb => exact hb.entries
  | _ => exact ⟨rfl, rfl⟩

end

/-- Calls and tasks that share a world. -/
structure Traffic (β : Type) where
  world : World β
  calls : List (Call × CallStage)
  tasks : List (Task β)

namespace Traffic

/-- One step of the traffic. -/
inductive Steps (r : Resolver (Observed β)) (others : Store (Observed β) → Store (Observed β) → Prop) :
    Traffic β → Traffic β → Prop
  | call {W W' : World β} {call : Call} {stage stage' : CallStage} {l l' : List (Call × CallStage)}
      {tasks ts : List (Task β)} :
      CallStep r W call stage W' stage' ts →
      Steps r others ⟨W, l ++ (call, stage) :: l', tasks⟩ ⟨W', l ++ (call, stage') :: l', tasks ++ ts⟩
  | task {W W' : World β} {calls : List (Call × CallStage)} {t t' : Task β}
      {l l' ts : List (Task β)} :
      TaskStep r W t W' t' ts →
      Steps r others ⟨W, calls, l ++ t :: l'⟩ ⟨W', calls, l ++ t' :: l' ++ ts⟩
  | others {s s' : Store (Observed β)} {L : Ledger} {calls : List (Call × CallStage)}
      {tasks : List (Task β)} :
      others s s' → Steps r others ⟨⟨s, L⟩, calls, tasks⟩ ⟨⟨s', L⟩, calls, tasks⟩
  | still {A : Traffic β} : Steps r others A A

/-- `A.Shows r p`: the ensemble `p` does what the traffic says from here on. -/
structure Shows (r : Resolver (Observed β)) (A : Traffic β)
    (p : Ensemble (Store (Observed β)) (Outcome (Option Json))) : Prop where
  store : p.state = A.world.store
  calls : p.callers = A.calls.map fun call => call.2.code r.observed call.1
  tasks : List.Forall₂ (Task.Does r) A.tasks p.tasks

variable {r : Resolver (Observed β)} {A A' : Traffic β}

/-- A step changes the stage of one call at most, by a step of its own. -/
theorem Steps.calls {others : Store (Observed β) → Store (Observed β) → Prop}
    (hstep : Steps r others A A') :
    A'.calls.map Prod.fst = A.calls.map Prod.fst ∧ ∀ call stage', (call, stage') ∈ A'.calls →
      (call, stage') ∈ A.calls ∨
        ∃ stage ts, (call, stage) ∈ A.calls ∧ CallStep r A.world call stage A'.world stage' ts := by
  cases hstep with
  | @call W W' call stage stage' l l' tasks ts hcall =>
    refine ⟨by simp, fun call' stage'' hmem => ?_⟩
    simp only [List.mem_append, List.mem_cons] at hmem ⊢
    rcases hmem with hmem | heq | hmem
    · exact .inl (.inl hmem)
    · cases heq
      exact .inr ⟨stage, ts, .inr (.inl rfl), hcall⟩
    · exact .inl (.inr (.inr hmem))
  | task _ | others _ | still => exact ⟨rfl, fun _ _ hmem => .inl hmem⟩

/-- A request that is over has found no key, or has come to its last stage. -/
theorem Shows.returned_of_done {p : Ensemble (Store (Observed β)) (Outcome (Option Json))}
    (h : A.Shows r p) {i : Nat} {client : Client} {input : Input} {o : Outcome (Option Json)}
    (hcall : (A.calls.map Prod.fst)[i]? = some (.resolve client input))
    (hdone : p.callers[i]? = some (.done o)) :
    (∃ e, r.key client input = .error e ∧ o = .error e) ∨
      (.resolve client input, .returned o) ∈ A.calls := by
  rw [h.calls, List.getElem?_map] at hdone
  rw [List.getElem?_map] at hcall
  obtain ⟨⟨call, stage⟩, hi, hcode⟩ := Option.map_eq_some_iff.1 hdone
  obtain rfl : call = .resolve client input := by simpa [hi] using hcall
  cases stage with
  | asked =>
    cases hkey : r.key client input with
    | error e =>
      have hasked : Call.run r.observed (.resolve client input) = .done (.error e) := run_resolve_error hkey
      rw [CallStage.code, hasked] at hcode
      cases hcode
      exact .inl ⟨e, rfl, rfl⟩
    | ok key =>
      have hasked : Call.run r.observed (.resolve client input) = _ := run_resolve hkey
      rw [CallStage.code, hasked] at hcode
      cases hcode
  | returned result =>
    cases hcode
    exact .inr (List.mem_of_getElem? hi)
  | launching _ _ _ => cases hcode
  | waiting _ _ _ => cases hcode
  | collecting _ _ _ => cases hcode

/-- Who asks in a step is one of the calls. -/
theorem Steps.asked {others : Store (Observed β) → Store (Observed β) → Prop}
    (hstep : Steps r others A A') {x : PendingRequest} (hx : x ∈ A'.world.ledger.asked) :
    x ∈ A.world.ledger.asked ∨ .resolve x.client x.input ∈ A.calls.map Prod.fst := by
  cases hstep with
  | call hcall => exact (hcall.entries.1 x hx).imp_right fun heq => by simp [heq]
  | task htask => exact .inl (htask.entries.1 ▸ hx)
  | others _ | still => exact .inl hx

end Traffic

end Resolver

end SqlClient
