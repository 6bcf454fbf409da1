import SqlClient.Proofs.Transaction.Replies
import SqlClient.Proofs.Transaction.Savepoints
import SqlClient.Session.Scripted
/-!
# Transactions — what is committed

An `Operation` is any work of a transaction that goes one step after another: it sends requests,
opens nested scopes, and goes on as it likes with what they come to, so it may pass a failure on or
swallow it. Run alone through a client, an operation finishes, and what it emits is what its course
says if no control statement fails (`follows_through`). With `Course.replay_emittedRoot` this is the
atomicity of root transactions: `committed_of_transact`.
-/

namespace SqlClient

open Coroutine

variable {sql : TransactionSql} {reading : sql.Reading}

/-! ## Operations -/

/-- A request that the database does not take as transaction control. -/
structure PlainRequest (reading : sql.Reading) where
  request : Request
  plain : reading.control? request.sql = none

/-- The work of a scope, step by step. What follows a request or a nested scope may depend on its
outcome in any way. -/
inductive Operation (reading : sql.Reading) : Type → Type 1
  | finish {α : Type} (o : Outcome α) : Operation reading α
  | send {α : Type} (r : PlainRequest reading) (k : Outcome ResultSet → Operation reading α) :
      Operation reading α
  | nest {α γ : Type} (body : Operation reading γ) (k : Outcome γ → Operation reading α) :
      Operation reading α

namespace Operation

variable {β : Type} [Backend β]

/-- Runs an operation through a client. A nested scope gets a client of its own from it. -/
def through {α : Type} : Operation reading α → Client → Work β α
  | finish o, _ => .ofOutcome o
  | send r k, c => .mk do
    let o ← (c.run r.request).run
    ((k o).through c).run
  | nest body k, c => .mk do
    let o ← (c.transact body.through).run
    ((k o).through c).run

/-- `Takes p t o`: the operation `p` can take the course `t` and come to the outcome `o`, if the
database answers its requests as the course says. -/
inductive Takes : {α : Type} → Operation reading α → Course → Outcome α → Prop
  | finish {α : Type} {o : Outcome α} : Takes (.finish o) .finished o
  | send {α : Type} {r : PlainRequest reading} {k : Outcome ResultSet → Operation reading α}
      {o : Outcome ResultSet} {t : Course} {o' : Outcome α} :
      Takes (k o) t o' → Takes (.send r k) (.sent r.request o.isOk t) o'
  | nest {α γ : Type} {body : Operation reading γ} {k : Outcome γ → Operation reading α}
      {o : Outcome γ} {tbody t : Course} {o' : Outcome α} :
      Takes body tbody o → Takes (k o) t o' → Takes (.nest body k) (.nested tbody o.isOk t) o'

variable {α : Type} {p : Operation reading α} {t : Course} {o : Outcome α}

/-- A course of an operation holds no control statement of its own. -/
theorem Takes.plain (h : Takes p t o) : t.Plain reading := by
  induction h with
  | finish =>
    intro e he
    cases he
  | @send _ r _ _ _ _ _ ih =>
    intro e he
    cases he with
    | head => exact r.plain
    | tail _ he => exact ih e he
  | nest _ _ ihbody ih =>
    intro e he
    rcases List.mem_append.1 he with he | he
    · exact ihbody e he
    · exact ih e he

end Operation

/-- Every control statement of a record has succeeded. -/
def Obeyed (reading : sql.Reading) (record : List Exchange) : Prop :=
  ∀ e ∈ record, (reading.control? e.request.sql).isSome → e.succeeded = true

theorem Obeyed.tail {e : Exchange} {record : List Exchange} (h : Obeyed reading (e :: record)) :
    Obeyed reading record :=
  fun _ he => h _ (.tail _ he)

theorem Obeyed.append {record record' : List Exchange} (h : Obeyed reading (record ++ record')) :
    Obeyed reading record ∧ Obeyed reading record' :=
  ⟨fun e he => h e (List.mem_append_left _ he), fun e he => h e (List.mem_append_right _ he)⟩

theorem Obeyed.head {text : String} {c : Control} {succeeded : Bool} {record : List Exchange}
    (h : Obeyed reading (⟨.script text, succeeded⟩ :: record)) (hc : reading.control? text = some c) :
    succeeded = true :=
  h _ (.head _) (by simp [hc])

/-! ## Scopes -/

namespace Transaction

variable {α : Type} {P : List Reply → Outcome α → Prop} {word : List Reply} {o : Outcome α}

/-- **A nested scope whose control statements succeed is its operation between two scripts**, the
second one only after a failure. -/
theorem Nests.obeyed {d : Nat} (h : Nests sql d P word o)
    (hobeyed : Obeyed reading (word.map Reply.exchange)) :
    ∃ inner, P inner o ∧ Obeyed reading (inner.map Reply.exchange) ∧
      word.map Reply.exchange = ⟨.script (sql.openSavepoint d), true⟩ ::
        (inner.map Reply.exchange ++
          if o.isOk then [] else [⟨.script (sql.undoSavepoint d), true⟩]) := by
  cases h with
  | refused => cases hobeyed.head (reading.openSavepoint d)
  | @returned inner _ _ hP =>
    refine ⟨inner, hP, hobeyed.tail, ?_⟩
    rw [Outcome.isOk_ok, if_pos rfl, List.append_nil]
    rfl
  | @failed inner _ _ undone hP =>
    rw [List.map_cons, List.map_append] at hobeyed ⊢
    obtain ⟨hinner, hundo⟩ := hobeyed.tail.append
    have hundone : undone.isOk = true := hundo.head (reading.undoSavepoint d)
    refine ⟨inner, hP, hinner, ?_⟩
    rw [List.map_singleton, Reply.exchange, Reply.exchange, hundone]
    rfl

/-- **A root transaction whose control statements succeed is its operation between two scripts**:
BEGIN, and COMMIT or ROLLBACK as the operation ends. -/
theorem Encloses.obeyed (h : Encloses sql P word o)
    (hobeyed : Obeyed reading (word.map Reply.exchange)) :
    ∃ inner, P inner o ∧ Obeyed reading (inner.map Reply.exchange) ∧
      word.map Reply.exchange = ⟨.script sql.begin, true⟩ ::
        (inner.map Reply.exchange ++
          [⟨.script (if o.isOk then sql.commit else sql.rollback), true⟩]) := by
  cases h with
  | refused => cases hobeyed.head reading.begin
  | @committed inner _ _ _ hP =>
    rw [List.map_cons, List.map_append] at hobeyed ⊢
    exact ⟨inner, hP, hobeyed.tail.append.1, rfl⟩
  | uncommitted hP =>
    rw [List.map_cons, List.map_append] at hobeyed
    cases hobeyed.tail.append.2.head reading.commit
  | @undone inner _ _ undone hP =>
    rw [List.map_cons, List.map_append] at hobeyed ⊢
    obtain ⟨hinner, hundo⟩ := hobeyed.tail.append
    have hundone : undone.isOk = true := hundo.head reading.rollback
    refine ⟨inner, hP, hinner, ?_⟩
    rw [List.map_singleton, Reply.exchange, Reply.exchange, hundone]
    rfl

end Transaction

/-! ## Runs -/

namespace Operation

variable {β : Type} [Backend β] {α : Type}

/-- The word is what a course of the operation emits at a depth, and the outcome is what the operation
comes to on that course, provided its control statements have succeeded. -/
def Follows (p : Operation reading α) (depth : Nat) (word : List Reply) (o : Outcome α) : Prop :=
  Obeyed reading (word.map Reply.exchange) →
    ∃ t, p.Takes t o ∧ word.map Reply.exchange = t.emitted sql depth

/-- **An operation alone finishes and follows one of its courses.** By induction on the operation, at
every depth and from every store that admits it. -/
theorem follows_through (p : Operation reading α) :
    ∀ {c : Client} {scope : Scope} {s : Store β}, c.settings.transactionSql = sql →
      c.scope = some scope → s.Admits scope →
      Work.Words (p.through c) scope.connection s (p.Follows scope.depth) := by
  induction p with
  | finish o =>
    intro c scope s _ _ h
    exact ⟨o, s, [], Completes.pure, .refl h.idle h.answers, fun _ => ⟨.finished, .finish, rfl⟩⟩
  | send r k ih =>
    intro c scope s hsql hc h
    obtain ⟨o, s₁, hrun, hs₁⟩ := Client.relays_run r.request hc h
    obtain ⟨o', s', word, hrest, hs', ht⟩ := ih o hsql hc (h.of_relays hs₁)
    refine ⟨o', s', ⟨r.request, o⟩ :: word, Completes.bind hrun hrest, hs₁.trans hs', ?_⟩
    intro hobeyed
    obtain ⟨t, htakes, hrecord⟩ := ht hobeyed.tail
    exact ⟨_, htakes.send, congrArg (List.cons _) hrecord⟩
  | nest body k ihbody ih =>
    intro c scope s hsql hc h
    -- the body goes through the client of the new scope, one savepoint deeper
    obtain ⟨o, s₁, outer, hrun, hs₁, houter⟩ :=
      Client.words_transact_nested (P := body.Follows (scope.depth + 1)) hc h
        fun child s₁ hdepth hconnection hready => by
          rw [← hdepth, ← hconnection]
          exact ihbody (c := c.inScope child) hsql rfl hready
    obtain ⟨o', s', word, hrest, hs', ht⟩ := ih o hsql hc (h.of_relays hs₁)
    refine ⟨o', s', outer ++ word, Completes.bind hrun hrest, hs₁.trans hs', ?_⟩
    rw [Follows, List.map_append]
    intro hobeyed
    obtain ⟨hobeyedOuter, hobeyedRest⟩ := hobeyed.append
    rw [hsql] at houter
    obtain ⟨inner, hbody, hobeyedInner, hnested⟩ := houter.obeyed hobeyedOuter
    obtain ⟨tbody, htakesBody, hinner⟩ := hbody hobeyedInner
    obtain ⟨t, htakes, hrecord⟩ := ht hobeyedRest
    refine ⟨_, htakesBody.nest htakes, ?_⟩
    rw [hnested, hinner, hrecord]
    rfl

/-- **A root transaction commits exactly what took effect.** Alone, over any database that gives a
connection and answers what it is sent, the transaction of an operation finishes. If its control
statements have succeeded, then its record is that of a course of the operation, with the outcome
of the transaction; and replaying the record commits the requests of that course that succeeded and
all of whose scopes returned a result, in order, and nothing if the transaction failed. -/
theorem committed_of_transact (c : Client) (reading : c.settings.transactionSql.Reading)
    (p : Operation reading α) (s₀ : Store (Journal β)) (hroot : c.scope = none)
    (hgiven : (Backend.connect (s₀.attempts + 1) s₀.backend.database).1 = none)
    (ha : Backend.Answers (Backend.connect (s₀.attempts + 1) s₀.backend.database).2) :
    ∃ o s' record,
      FinishesAlone (c.transact p.through).run s₀ o s' ∧
      s'.backend.entries = s₀.backend.entries ++ record.map (Prod.mk (s₀.attempts + 1)) ∧
      (∃ events, s'.log = s₀.log ++ events ∧
        events.filter Event.isSent = record.map fun e => e.request.event (s₀.attempts + 1)) ∧
      (Obeyed reading record → ∃ t, p.Takes t o ∧
        record.filter (fun e => (reading.control? e.request.sql).isNone) = t.exchanges ∧
        ∀ committed, Ledger.replay reading ⟨committed, none⟩ record =
          ⟨committed ++ if o.isOk then t.kept else [], none⟩) := by
  -- the connection is given, so what is sent is what the lease sends over it
  have hacquired : (s₀.acquire c.settings.transactionAcquirer).1 = .ok (s₀.attempts + 1) := by
    have hconnect : (Backend.connect (s₀.attempts + 1) s₀.backend).1 = none := hgiven
    simp only [Store.acquire, hconnect]
  have hbackend := s₀.backend_acquire c.settings.transactionAcquirer
  have hanswers : Backend.Answers (s₀.acquire c.settings.transactionAcquirer).2.backend := by
    rw [hbackend]
    exact Backend.Answers.journal ha
  obtain ⟨o, s', hrun, hleased⟩ := Client.leased_transact p.through (p.Follows 0) hroot hanswers
    fun scope s₁ hdepth hready => by
      rw [← hdepth]
      exact follows_through p (c := c.inScope scope) rfl rfl hready
  obtain ⟨word, events, hlog, hsent, hreplies, hword⟩ := hleased.of_given hacquired
  refine ⟨o, s', word.map Reply.exchange, finishesAlone_of_completes hrun, ?_,
    ⟨.acquired c.settings.transactionAcquirer (s₀.attempts + 1) :: events, hlog, ?_⟩, ?_⟩
  · rw [hreplies.entries, hbackend, List.map_map]
    rfl
  · rw [List.filter_cons_of_neg (by simp [Event.isSent]), hsent, List.map_map]
    rfl
  · intro hobeyed
    obtain ⟨inner, hinner, hobeyedInner, hrecord⟩ := hword.obeyed hobeyed
    obtain ⟨t, htakes, hemitted⟩ := hinner hobeyedInner
    have hroot : word.map Reply.exchange = t.emittedRoot c.settings.transactionSql o.isOk := by
      rw [hrecord, hemitted]
      rfl
    rw [hroot]
    exact ⟨t, htakes, Course.filter_emittedRoot htakes.plain o.isOk,
      fun committed => Course.replay_emittedRoot htakes.plain o.isOk committed⟩

end Operation

/-! ## A transaction over scripted connections -/

namespace ScriptedRule

/-- Answering a statement takes a use from a rule and leaves all answers as they are. -/
theorem answerFrom_ne_hang {rules : List ScriptedRule} (h : ∀ r ∈ rules, r.answer ≠ .hang)
    (text : String) :
    (answerFrom text rules).1 ≠ .hang ∧ ∀ r ∈ (answerFrom text rules).2, r.answer ≠ .hang := by
  induction rules with
  | nil => simp [answerFrom]
  | cons rule rest ih =>
    have hrule : rule.answer ≠ .hang := h rule (.head _)
    obtain ⟨hanswer, hrest⟩ := ih fun r hr => h r (.tail _ hr)
    rw [answerFrom]
    split
    · refine ⟨hrule, fun r hr => ?_⟩
      cases hr with
      | head => exact hrule
      | tail _ hr => exact h r (.tail _ hr)
    · refine ⟨hanswer, fun r hr => ?_⟩
      cases hr with
      | head => exact hrule
      | tail _ hr => exact hrest r hr

end ScriptedRule

/-- Scripted connections answer whatever is sent to them if no rule hangs. -/
theorem ScriptedDatabase.answers {d : ScriptedDatabase} (h : ∀ r ∈ d.rules, r.answer ≠ .hang) :
    Backend.Answers d := by
  intro sent
  induction sent generalizing d with
  | nil =>
    intro n r
    obtain ⟨hanswer, -⟩ := ScriptedRule.answerFrom_ne_hang h r.sql
    simp only [Backend.after, List.foldl_nil, Backend.respond, respond]
    generalize (ScriptedRule.answerFrom r.sql d.rules).1 = answer at hanswer
    cases answer with
    | hang => exact absurd rfl hanswer
    | _ => exact ⟨_, rfl⟩
  | cons e sent ih =>
    exact ih (ScriptedRule.answerFrom_ne_hang h e.2.sql).2

namespace Operation

/-- A request, a scope that fails and is forgiven, and a scope that returns a result although one of
its two requests fails. -/
def forgiving : Operation (TransactionSql.Reading.ofDialect .sqlite) Unit :=
  .send ⟨.statement "INSERT INTO a" [], by decide⟩ fun _ =>
  .nest (γ := Unit) (.send ⟨.statement "INSERT INTO b" [], by decide⟩ fun _ =>
    .finish (.error (.ofMessage "given up"))) fun _ =>
  .nest (γ := Unit) (.send ⟨.statement "INSERT INTO c" [], by decide⟩ fun _ =>
    .send ⟨.statement "INSERT INTO d" [], by decide⟩ fun _ => .finish (.ok ())) .finish

/-- A client for SQLite outside transactions. -/
def sqliteClient : Client := ⟨⟨.ofDialect .sqlite, .ofDialect .sqlite, .general, none⟩, none, 0⟩

/-- Scripted connections on which one of the requests fails. -/
def failingStore : Store (Journal ScriptedDatabase) :=
  Store.start ⟨⟨[⟨[.equals "INSERT INTO c"], .fail (.ofMessage "no table c"), none⟩], []⟩, []⟩ .default

/-- What the transaction of `forgiving` sends over scripted connections. -/
def forgivingRecord : List Exchange :=
  [⟨.script "BEGIN", true⟩, ⟨.statement "INSERT INTO a" [], true⟩,
    ⟨.script "SAVEPOINT sqlfx1", true⟩, ⟨.statement "INSERT INTO b" [], true⟩,
    ⟨.script "ROLLBACK TO SAVEPOINT sqlfx1", true⟩, ⟨.script "SAVEPOINT sqlfx1", true⟩,
    ⟨.statement "INSERT INTO c" [], false⟩, ⟨.statement "INSERT INTO d" [], true⟩,
    ⟨.script "COMMIT", true⟩]

theorem rounds_forgiving (turns : Nat) :
    (Tasks.rounds (turns + 1) (sqliteClient.transact forgiving.through).run
        ⟨failingStore, [], [], []⟩).map (fun r => (r.1, r.2.state.backend.entries)) =
      some (.ok (), forgivingRecord.map (Prod.mk 1)) := by
  with_unfolding_all rfl

/-- The transaction of `forgiving` commits its first request and the one that succeeded in its
second scope. -/
theorem committed_forgiving :
    sqliteClient.scope = none ∧
    (Backend.connect (failingStore.attempts + 1) failingStore.backend.database).1 = none ∧
    Backend.Answers
      (Backend.connect (failingStore.attempts + 1) failingStore.backend.database).2 ∧
    ∃ s' t, FinishesAlone (sqliteClient.transact forgiving.through).run failingStore (.ok ()) s' ∧
      s'.backend.entries = forgivingRecord.map (Prod.mk 1) ∧
      Obeyed (.ofDialect .sqlite) forgivingRecord ∧ forgiving.Takes t (.ok ()) ∧
      t.kept = [.statement "INSERT INTO a" [], .statement "INSERT INTO d" []] := by
  have hanswers : Backend.Answers
      (Backend.connect (failingStore.attempts + 1) failingStore.backend.database).2 :=
    ScriptedDatabase.answers (List.forall_mem_singleton.2 nofun)
  obtain ⟨o, s', record, hrun, hentries, -, hcommitted⟩ :=
    committed_of_transact sqliteClient (.ofDialect .sqlite) forgiving failingStore rfl rfl hanswers
  -- the scheduler's own run says which outcome and which record these are
  obtain ⟨turns, hturns⟩ := hrun
  obtain ⟨r, hr, hlast⟩ := Option.map_eq_some_iff.1 (rounds_forgiving turns)
  obtain rfl : (o, ⟨s', [], [], []⟩) = r :=
    Option.some.inj ((hturns (turns + 1) (by omega)).symm.trans hr)
  obtain ⟨rfl, hlist⟩ := Prod.mk.inj hlast
  have hrecord : record = forgivingRecord := by
    have h := congrArg (List.map Prod.snd) (hentries.symm.trans hlist)
    simpa [failingStore, Store.start, Function.comp_def] using h
  subst hrecord
  have hobeyed : Obeyed (.ofDialect .sqlite) forgivingRecord := by
    unfold Obeyed
    decide
  obtain ⟨t, htakes, -, hreplay⟩ := hcommitted hobeyed
  have hkept : (⟨t.kept, none⟩ : Ledger) =
      ⟨[.statement "INSERT INTO a" [], .statement "INSERT INTO d" []], none⟩ :=
    (hreplay []).symm.trans (by decide)
  exact ⟨rfl, rfl, hanswers, s', t, ⟨turns, hturns⟩, hlist, hobeyed, htakes,
    congrArg Ledger.committed hkept⟩

end Operation

end SqlClient
