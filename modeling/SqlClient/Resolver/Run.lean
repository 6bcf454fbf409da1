import SqlClient.Client.Run
import SqlClient.Resolver.Answers
/-!
# Resolvers — requests that share their queries

A resolver answers requests that come close together with one query, and equal requests with one
answer. A request first looks into the request cache of the client that it comes through. If the
cache knows it, the request shares the slot it finds; if not, it opens a slot and joins the batch
queue. The flush of the queue runs the batches and delivers their answers into the slots.

Requests of different root transactions have different cache keys and different batches.
-/

namespace SqlClient

variable {β : Type}

/-- A batch function: one answer for each input, in their order. -/
abbrev BatchFunction (β : Type) := Client → List Input → Coroutine (Store β) (List (Outcome Json))

/-- A handle for batched requests. -/
structure Resolver (β : Type) where
  /-- Tells the resolver's requests from those of others in the cache. -/
  tag : String
  /-- The client that the resolver was made from. -/
  client : Client
  /-- The batch queue, by its number. -/
  queue : Nat
  /-- How long a flush waits for more requests; without it, until the others have had a turn. -/
  window : Option Nat
  /-- The largest number of requests in a batch. -/
  limit : Option Nat
  /-- The shape of the answers. -/
  answer : Shape
  batch : BatchFunction β

namespace Resolver

/-! ## Batch functions -/

namespace Batch

variable {ρ : Type}

/-- Encodes the inputs of a batch and runs one query with them; a failure of either is the answer
to every input. -/
def query (request : Shape) (run : Client → List Json → Work β ResultSet)
    (answers : List Input → List Row → List (Outcome Json)) : BatchFunction β :=
  fun client inputs => do
    match Answers.encodeAll (Schema.encode request) inputs with
    | .error e => return Answers.failAll inputs.length e
    | .ok encoded =>
      match ← (run client encoded).run with
      | .error e => return Answers.failAll inputs.length e
      | .ok result => return answers inputs result.toRows

/-- Row `i` answers input `i`. -/
def positional (request row : Shape) (run : Client → List Json → Work β ResultSet) :
    BatchFunction β :=
  query request run fun inputs rows =>
    Answers.positional (Schema.decodeRow row) inputs.length rows

/-- Side effects only: the batch succeeds or fails as a whole. -/
def void (request : Shape) (run : Client → List Json → Work β ResultSet) : BatchFunction β :=
  query request run fun inputs _ => inputs.map fun _ => .ok .null

/-- Zero or one row for each input, matched by key. -/
def byKey (request row : Shape) (requestKey : Input → String) (rowKey : Row → Option String)
    (run : Client → List Json → Work β ResultSet) : BatchFunction β :=
  query request run fun inputs rows =>
    (Answers.byKey rowKey (Schema.decodeRow row) (inputs.map requestKey) rows).map fun answer =>
      answer.map (·.getD .null)

/-- All rows for each input, matched by key. -/
def byKeyAll (request row : Shape) (requestKey : Input → String) (rowKey : Row → Option String)
    (run : Client → List Json → Work β ResultSet) : BatchFunction β :=
  query request run fun inputs rows =>
    (Answers.byKeyAll rowKey (Schema.decodeRow row) (inputs.map requestKey) rows).map fun answer =>
      answer.map Json.array

/-- One query for each input. All inputs are encoded before the first query runs. -/
def perRequest (request : Shape) (run : Client → Json → Work β ResultSet)
    (finish : List Row → Outcome Json) : BatchFunction β :=
  fun client inputs => do
    match Answers.encodeAll (Schema.encode request) inputs with
    | .error e => return Answers.failAll inputs.length e
    | .ok encoded =>
      let results ← Coroutine.all (encoded.map fun one => (run client one).run)
      return results.map fun result => result.bind fun rows => finish rows.toRows

/-- One query for each input, which must return a row. -/
def single (request row : Shape) (run : Client → Json → Work β ResultSet) : BatchFunction β :=
  perRequest request run (Answers.firstRow (Schema.decodeRow row))

/-- One query for each input, which may return a row. -/
def singleOption (request row : Shape) (run : Client → Json → Work β ResultSet) :
    BatchFunction β :=
  perRequest request run fun rows =>
    (Answers.firstRow? (Schema.decodeRow row) rows).map (·.getD .null)

end Batch

/-! ## Flushing -/

/-- The answers of a batch as its requests get them: one each, or the same error for all if their
numbers differ. -/
def matched (size : Nat) (answers : List (Outcome Json)) : List (Outcome Json) :=
  if answers.length = size then answers
  else Answers.failAll size (.lengthMismatch size answers.length)

/-- Puts answers into slots, in order. -/
def deliverAll (shape : Shape) (slots : List Nat) (answers : List (Outcome Json)) (s : Store β) :
    Store β :=
  (slots.zip answers).foldl
    (fun s (slot, answer) => s.deliver slot (answer.map fun value => ⟨shape, value⟩)) s

/-- Runs one batch with the client of its first request. -/
def runBatch (r : Resolver β) (requests : List PendingRequest) : Coroutine (Store β) Unit := do
  match requests with
  | [] => return ()
  | first :: _ => do
    Coroutine.change fun s =>
      requests.foldl (fun s request => s.letGoFor request.client) (s.holdFor first.client)
    let answers ← r.batch first.client (requests.map (·.input))
    Coroutine.change (Store.letGoFor first.client)
    Coroutine.change
      (deliverAll r.answer (requests.map (·.slot)) (matched requests.length answers))

/-- Waits for requests to come together, takes them out of the queue and runs their batches side by
side. -/
def flush (r : Resolver β) : Coroutine (Store β) Unit := do
  match r.window with
  | some ms => Connection.sleep ms
  | none => Coroutine.giveWay 1
  let requests ← Coroutine.perform fun (s : Store β) =>
    ((s.queue r.queue).items, { s with queues := s.queues.modify r.queue .flush })
  let _ ← Coroutine.all
    ((BatchQueue.batches (·.client.transaction?) r.limit requests).map r.runBatch)

/-! ## Requests -/

/-- What a request through a client is cached under. -/
def key (r : Resolver β) (c : Client) (input : Input) : Outcome CacheKey :=
  (Schema.key input).map fun text => ⟨r.tag, c.transaction?, text⟩

/-- Where the answer to a request will be: the id of its cache entry, its slot, and whether a flush
has to be scheduled. -/
structure Ticket where
  id : Nat
  slot : Nat
  schedules : Bool

/-- Joins the batch queue with a new slot, which the cache then keeps under the key. -/
def enqueue (r : Resolver β) (c : Client) (input : Input) (key : CacheKey) (s : Store β) :
    Ticket × Store β :=
  let (slot, s) := s.openSlot none
  let s := s.holdFor c
  let (schedules, queue) := (s.queue r.queue).enqueue ⟨c, input, slot⟩
  let (id, cache) := (s.cache c.cache).insert key slot none
  (⟨id, slot, schedules⟩,
    { s with queues := s.queues.set r.queue queue, caches := s.caches.set c.cache cache })

/-- Finds a request in the cache, or enqueues it. -/
def lookupOrEnqueue (r : Resolver β) (c : Client) (input : Input) (key : CacheKey) (s : Store β) :
    Ticket × Store β :=
  match (s.cache c.cache).lookup? key s.now with
  | some entry => (⟨entry.id, entry.slot, false⟩, s)
  | none => r.enqueue c input key s

/-- Reads a delivered slot: its cache entry is complete from then on, or removed if the answer is a
failure. -/
def collect (c : Client) (key : CacheKey) (t : Ticket) (s : Store β) : Outcome Answer × Store β :=
  let s := s.changeCache c.cache (·.complete key t.id s.now)
  match s.slot? t.slot with
  | some (.ok answer) => (.ok answer, s)
  | some (.error e) => (.error e, s.changeCache c.cache (·.evictFailed key t.id))
  | none =>
    (.error (.invalidState "resolver batch ended without delivering a result"),
      s.changeCache c.cache (·.evictFailed key t.id))

/-- The value of an answer that has the resolver's own shape. -/
def unpack (r : Resolver β) (answer : Answer) : Outcome Json :=
  if answer.shape == r.answer then .ok answer.value
  else
    .error (.config ("resolver tag \x60" ++ r.tag ++
      "\x60 is used by resolvers with different result types"))

/-- Resolves an input through a client: its transaction and its request cache are used. -/
def resolveIn (r : Resolver β) (c : Client) (input : Input) : Work β Json := .mk do
  match r.key c input with
  | .error e => return .error e
  | .ok key => do
    let ticket ← Coroutine.perform (r.lookupOrEnqueue c input key)
    if ticket.schedules then Coroutine.start r.flush
    Coroutine.waitFor fun s => (s.slot? ticket.slot).isSome
    match ← Coroutine.perform (collect c key ticket) with
    | .ok answer => return r.unpack answer
    | .error e => return .error e

/-- Resolves an input through the resolver's own client. -/
def resolve (r : Resolver β) (input : Input) : Work β Json := r.resolveIn r.client input

/-- Gives the answer to an input, so that it needs no query. -/
def populate (r : Resolver β) (input : Input) (value : Json) : Work β Unit := do
  let key ← Work.ofOutcome (r.key r.client input)
  ExceptT.lift <| Coroutine.change fun s =>
    let (slot, s) := s.openSlot (some (.ok ⟨r.answer, value⟩))
    s.changeCache r.client.cache (·.populate key slot s.now)

/-- Forgets the answer to an input. -/
def invalidate (r : Resolver β) (input : Input) : Work β Unit := do
  let key ← Work.ofOutcome (r.key r.client input)
  ExceptT.lift <| Coroutine.change fun s =>
    s.changeCache r.client.cache (·.invalidate key)

end Resolver

end SqlClient
