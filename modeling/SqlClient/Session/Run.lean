import SqlClient.Session.Step
import SqlClient.Migration.Basic
import SqlClient.Resolver.Run
/-!
# Sessions — running the steps

Steps run one after another on a client. At the top, through a saved client and where they can be
given up, a failed step does not stop the others; in transactions, side by side and in migrations
the first failure ends the scope. What steps have answered is kept in transcripts, so that it is
known also when a body is given up.
-/

namespace SqlClient

/-- A resolver as a session keeps it: what it is made from, its client and its batch queue. -/
structure KeptResolver where
  spec : ResolverSpec
  client : Client
  queue : Nat

/-- What a session keeps beside its database: a record of what was run, and what steps have saved
by name. -/
structure Session (δ : Type) where
  database : δ
  /-- The attempts that got a connection, the first one first. -/
  given : List Nat
  executed : List Executed
  clients : List (String × Client)
  resolvers : List (String × KeptResolver)
  transcripts : List (List StepAnswer)

namespace Session

variable {δ : Type}

/-- A session that has not begun. -/
def start (database : δ) : Session δ := ⟨database, [], [], [], [], []⟩

instance [Backend δ] : Backend (Session δ) where
  connect n s :=
    let (refusal, database) := Backend.connect n s.database
    (refusal,
      { s with database, given := if refusal.isNone then s.given ++ [n] else s.given })
  delay r s := Backend.delay r s.database
  respond n r s :=
    let (response, database) := Backend.respond n r s.database
    let s := { s with database }
    match response with
    | .answer _ =>
      (response, { s with executed := s.executed ++ [⟨r.sql, r.params, s.given.idxOf n + 1⟩] })
    | .never => (response, s)

/-- Coroutines of sessions. -/
abbrev Run (δ α : Type) := Coroutine (Store (Session δ)) α

/-- Changes what a session keeps. -/
def update (f : Session δ → Session δ) (s : Store (Session δ)) : Store (Session δ) :=
  { s with backend := f s.backend }

/-! ## Transcripts -/

/-- A new transcript. -/
def openTranscript (s : Store (Session δ)) : Nat × Store (Session δ) :=
  (s.backend.transcripts.length,
    update (fun b => { b with transcripts := b.transcripts ++ [[]] }) s)

/-- Adds an answer to a transcript. -/
def write (transcript : Nat) (answer : StepAnswer) : Store (Session δ) → Store (Session δ) :=
  update fun b => { b with transcripts := b.transcripts.modify transcript (· ++ [answer]) }

/-- The answers of a transcript. -/
def transcript (n : Nat) (s : Store (Session δ)) : List StepAnswer := s.backend.transcripts.getD n []

/-! ## Saved clients -/

/-- Saves a client under a name. It holds the connection of its transaction for as long as it is
saved. -/
def saveClient (name : String) (c : Client) (s : Store (Session δ)) : Store (Session δ) :=
  let old := s.backend.clients.lookup name
  let s := s.holdFor c
  let s := update (fun b =>
    { b with clients := (name, c) :: b.clients.filter fun e => e.1 ≠ name }) s
  match old with
  | some old => s.letGoFor old
  | none => s

/-- A saved client. -/
def client (name : String) : Run δ (Outcome Client) :=
  Coroutine.inspect fun s =>
    match s.backend.clients.lookup name with
    | some c => .ok c
    | none => .error (.invalidState ("no saved client " ++ name))

variable [Backend δ]

/-! ## Queries -/

/-- A query for the rows of a table whose key is one of the bound values. -/
def keyQuery (head table : String) (keys : List Value) : Fragment :=
  .concat [.raw head, .ident table, .raw " WHERE k IN ", .inList keys]

/-- Selects the rows of encoded requests. -/
def select (table : String) (request : Shape) (c : Client) (encoded : List Json) :
    Work (Session δ) ResultSet :=
  c.fetch (keyQuery "SELECT * FROM " table (encoded.flatMap request.bind))

/-- Updates the rows of encoded requests. -/
def touch (table : String) (request : Shape) (c : Client) (encoded : List Json) :
    Work (Session δ) ResultSet :=
  c.fetch (keyQuery "UPDATE " table (encoded.flatMap request.bind))

/-! ## Resolvers -/

/-- The key of a request: the text of a field or of the whole. -/
def requestKey (field : Option String) : Input → String
  | .error _ => ""
  | .ok j => ((field.bind j.member?).getD j).write

/-- The key of a row: the text of a cell that is there and not null. -/
def rowKey (column : String) (row : Row) : Option String :=
  match row.get? column with
  | none | some .null => none
  | some v => some v.toJson.write

/-- The shape of the answers of a resolver. -/
def answerShape (spec : ResolverSpec) : Shape :=
  match spec.kind with
  | .positional | .single => spec.row
  | .singleOption | .byKey => .optional spec.row
  | .void => .unit
  | .byKeyAll => .list spec.row

/-- The batch function of a resolver. -/
def batchFunction (spec : ResolverSpec) : BatchFunction (Session δ) :=
  let run := select spec.table spec.request
  let runOne c one := run c [one]
  let requestKey := requestKey spec.field
  let rowKey := rowKey spec.column
  match spec.kind with
  | .positional => Resolver.Batch.positional spec.request spec.row run
  | .single => Resolver.Batch.single spec.request spec.row runOne
  | .singleOption => Resolver.Batch.singleOption spec.request spec.row runOne
  | .void => Resolver.Batch.void spec.request (touch spec.table spec.request)
  | .byKey => Resolver.Batch.byKey spec.request spec.row requestKey rowKey run
  | .byKeyAll => Resolver.Batch.byKeyAll spec.request spec.row requestKey rowKey run

/-- The resolver that is kept. A limit of zero is none. -/
def resolverOf (k : KeptResolver) : Resolver (Session δ) :=
  ⟨k.spec.tag, k.client, k.queue, k.spec.window, k.spec.limit.filter (0 < ·),
    answerShape k.spec, batchFunction k.spec⟩

/-- Makes a resolver from a client and keeps it under a name. It holds the connection of its
client. -/
def keepResolver (name : String) (spec : ResolverSpec) (c : Client) (s : Store (Session δ)) :
    Store (Session δ) :=
  let old := s.backend.resolvers.lookup name
  let (queue, s) := s.openQueue
  let s := s.holdFor c
  let s := update (fun b =>
    { b with
      resolvers := (name, ⟨spec, c, queue⟩) :: b.resolvers.filter fun e => e.1 ≠ name }) s
  match old with
  | some old => s.letGoFor old.client
  | none => s

/-- A kept resolver by its name. -/
def resolver (name : String) : Run δ (Outcome KeptResolver) :=
  Coroutine.inspect fun s =>
    match s.backend.resolvers.lookup name with
    | some kept => .ok kept
    | none => .error (.invalidState ("no resolver " ++ name))

/-- Sorts the events from a position on by their connections; events of one connection keep their
order. -/
def sortEvents (start : Nat) (s : Store (Session δ)) : Store (Session δ) :=
  { s with
    log := s.log.take start ++
      (s.log.drop start).mergeSort fun a b => decide (a.connection ≤ b.connection) }

/-! ## Steps -/

/-- The answer to a step, and the error with which it counts as failed. -/
abbrev Report := StepAnswer × Option Error

/-- The report of an outcome. -/
def report {α : Type} (answer : α → StepAnswer) : Outcome α → Report
  | .ok a => (answer a, none)
  | .error e => (.failed e, some e)

/-- Runs work and reports its outcome. -/
def reporting {α : Type} (answer : α → StepAnswer) (work : Work (Session δ) α) : Run δ Report := do
  return report answer (← work.run)

/-- Runs a fragment. -/
def runFragment (c : Client) (f : Fragment) : FetchMode → Run δ Report
  | .fetch => reporting .result (c.fetch f)
  | .rawNames => reporting .result (c.fetchRaw f)
  | .values => reporting .rows (c.fetchValues f)
  | .execute => reporting .count (c.execute f)
  | .compile => return report (.compiled · f) (c.compile f)

/-- Runs a checked call. -/
def runChecked (c : Client) (mode : CheckedMode) (input : Input) (request row : Shape)
    (table : String) : Run δ Report :=
  let query c one := select table request c [one]
  match mode with
  | .all => reporting .documents (c.checkedAll request row input query)
  | .single => reporting (fun doc => .document (some doc)) (c.checkedFirst request row input query)
  | .option => reporting .document (c.checkedFirst? request row input query)

/-- Resolves inputs all at once. -/
def runResolve (c : Client) (name : String) (inputs : List Input) (own : Bool) : Run δ Report := do
  match ← resolver name with
  | .error e => return report .outcomes (.error e)
  | .ok kept => do
    let r := resolverOf kept
    let through := if own then r.client else c
    let answers ← Coroutine.all (inputs.map fun input => (r.resolveIn through input).run)
    return (.outcomes answers, none)

/-- Resolves inputs all at once through several clients. Batches of different scopes run in no
particular order, so their events are put in that of their connections. -/
def runResolveAcross (c : Client) (name : String) (calls : List (Option String × Input)) :
    Run δ Report := do
  match ← resolver name with
  | .error e => return report .outcomes (.error e)
  | .ok kept => do
    let r := resolverOf kept
    let start ← Coroutine.inspect fun s => s.log.length
    let answers ← Coroutine.all (calls.map fun (saved, input) => do
      match saved with
      | none => (r.resolveIn c input).run
      | some saved =>
        match ← client saved with
        | .ok c => (r.resolveIn c input).run
        | .error e => return .error e)
    Coroutine.change (sortEvents start)
    return (.outcomes answers, none)

/-- Gives a resolver an answer. -/
def runPopulate (name : String) (input : Input) (value : Json) : Run δ Report :=
  reporting (fun _ => .nothing) do
    let r := resolverOf (← Work.ofCoroutine (resolver name))
    let value ← Work.ofOutcome (Schema.decodeFor .request r.answer value)
    r.populate input value

/-- Makes a resolver forget an answer. -/
def runInvalidate (name : String) (input : Input) : Run δ Report :=
  reporting (fun _ => .nothing) do
    let r := resolverOf (← Work.ofCoroutine (resolver name))
    r.invalidate input

/-- What a client says of itself. -/
def describe (c : Client) (s : Store (Session δ)) : ClientInfo :=
  ⟨c.settings.compiler.dialect, c.scope.map (·.depth), (s.cache c.cache).size⟩

/-- Saves the current client, with a new request cache if asked. -/
def runSave (c : Client) (name : String) : Option (Nat × Nat) → Run δ Report
  | none => do
    Coroutine.change (saveClient name c)
    return (.nothing, none)
  | some (capacity, ttl) => do
    let cache ← Coroutine.perform (Store.openCache capacity ttl)
    Coroutine.change (saveClient name (c.withCache cache))
    return (.nothing, none)

/-- Whether two saved clients belong to one root transaction. -/
def inOneTransaction (a b : String) (s : Store (Session δ)) : Bool :=
  let transaction name := (s.backend.clients.lookup name).bind Client.transaction?
  (transaction a).isSome && transaction a == transaction b

mutual

/-- Runs one step. -/
def runStep (c : Client) : Step → Run δ Report
  | .fragment f mode => runFragment c f mode
  | .raw sql params => reporting .result (c.runRaw sql params)
  | .script sql => reporting (fun _ => .nothing) (c.runScript sql)
  | .info => return (.info (← Coroutine.inspect (describe c)), none)
  | .transaction saveAs body failure => do
    let t ← Coroutine.perform openTranscript
    let result ← (c.transact fun tx => .mk do
      match saveAs with
      | some name => Coroutine.change (saveClient name tx)
      | none => pure ()
      match ← runSteps tx true t body with
      | .error e => return .error e
      | .ok () =>
        match failure with
        | some e => return .error e
        | none => return .ok ()).run
    let steps ← Coroutine.inspect (transcript t)
    return (.transaction steps result,
      match result with
      | .ok () => none
      | .error e => some e)
  | .save name cache => runSave c name cache
  | .through name body => do
    match ← client name with
    | .error e => return (.failed e, some e)
    | .ok c => do
      let t ← Coroutine.perform openTranscript
      let _ ← runSteps c false t body
      return (.through (← Coroutine.inspect (transcript t)), none)
  | .sameTransaction a b => return (.truth (← Coroutine.inspect (inOneTransaction a b)), none)
  | .fail e => return (.failed e, some e)
  | .hang => do
    Connection.stall
    return (.nothing, none)
  | .sleep ms => do
    Connection.sleep ms
    return (.nothing, none)
  | .yield turns => do
    Coroutine.giveWay turns
    return (.nothing, none)
  | .cancel body => do
    let t ← Coroutine.perform openTranscript
    let finished ← .race (·.stalled) (fun s => { s with stalled := false })
      (runSteps c false t body) .done
    if finished.isNone then Coroutine.quiesce
    return (.cancelled finished.isNone (← Coroutine.inspect (transcript t)), none)
  | .join branches => do
    let results ← Coroutine.all (runBranches c branches)
    return (.joined results, none)
  | .recorded clear => do
    let record ← Coroutine.inspect fun s => s.backend
    if clear then Coroutine.change (update fun b => { b with executed := [] })
    return (.recorded record.given.length record.executed, none)
  | .makeResolver name spec => do
    Coroutine.change (keepResolver name spec c)
    return (.text spec.tag, none)
  | .resolve name inputs own => runResolve c name inputs own
  | .resolveAcross name calls => runResolveAcross c name calls
  | .populate name input value => runPopulate name input value
  | .invalidate name input => runInvalidate name input
  | .clearCache => do
    Coroutine.change (Store.changeCache c.cache .clear)
    return (.nothing, none)
  | .checked mode input request row table => runChecked c mode input request row table
  | .migrate table migrations =>
    reporting (.migrated (migrations.map MigrationStep.id))
      (Migrator.run ⟨migrationsOf migrations, table⟩ c)
  | .catching step => do
    let (answer, _) ← runStep c step
    return (answer, none)
  | .group body => do
    let t ← Coroutine.perform openTranscript
    let result ← runSteps c true t body
    let steps ← Coroutine.inspect (transcript t)
    return (steps.getLast?.getD .nothing,
      match result with
      | .ok () => none
      | .error e => some e)

/-- Runs steps one after another into a transcript. In a strict scope the first failure ends
them. -/
def runSteps (c : Client) (strict : Bool) (t : Nat) : List Step → Run δ (Outcome Unit)
  | [] => return .ok ()
  | step :: rest => do
    let (answer, failure) ← runStep c step
    Coroutine.change (write t answer)
    match failure, strict with
    | some e, true => return .error e
    | _, _ => runSteps c strict t rest

/-- The branches of a join, each with what it answered and how it ended. -/
def runBranches (c : Client) : List (List Step) → List (Run δ (List StepAnswer × Outcome Unit))
  | [] => []
  | body :: rest =>
    (do
      let t ← Coroutine.perform openTranscript
      let result ← runSteps c true t body
      return (← Coroutine.inspect (transcript t), result)) :: runBranches c rest

/-- The migrations of a session. -/
def migrationsOf : List MigrationStep → List (Migration (Session δ))
  | [] => []
  | .script id name sql :: rest => ⟨id, name, .script sql⟩ :: migrationsOf rest
  | .code id name body :: rest =>
    ⟨id, name, .code fun tx => .mk do
      let t ← Coroutine.perform openTranscript
      runSteps tx true t body⟩ :: migrationsOf rest

end

/-- Runs a session: the answers of its steps and what happened to the connections. -/
def play (options : ClientOptions) (cache : RequestCache CacheKey Nat)
    (database : δ) (steps : List Step) :
    Outcome (Option (List StepAnswer × List Event)) :=
  options.settings.map fun settings =>
    let c : Client := ⟨settings, none, 0⟩
    let main : Run δ (List StepAnswer) := do
      let t ← Coroutine.perform openTranscript
      let _ ← runSteps c false t steps
      Coroutine.inspect (transcript t)
    (Coroutine.run main (Store.start (start database) cache)).map fun (answers, s) =>
      (answers, s.log)

end Session

end SqlClient
