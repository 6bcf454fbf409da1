import SqlClient.Proofs.Transaction.Commit
/-!
# Transactions — the grammar of what is sent

A `Program` is any work of a transaction that goes one step after another and does as it likes with
what its steps come to. What its transaction sends is a word of a grammar: `Body`, `Nested` and
`Root` are its rules, each with the program that a part of the word belongs to and the outcome that
the program has there. The outcome of a scope is the first failure among its opening statement, its
operation and, at the root, COMMIT; how a rollback ends is of no account.

`worded_of_transact` holds over every database that answers whatever it is sent, well or badly, so
the rules say what happens for each choice of the statements that fail.
-/

namespace SqlClient

open Coroutine

/-! ## Programs and their words -/

/-- The work of a scope, step by step. What follows a request or a nested scope may depend on its
outcome in any way. -/
inductive Program : Type → Type 1
  | finish {α : Type} (o : Outcome α) : Program α
  | send {α : Type} (r : Request) (k : Outcome ResultSet → Program α) : Program α
  | nest {α γ : Type} (body : Program γ) (k : Outcome γ → Program α) : Program α

namespace Program

/-- Runs a program through a client. A nested scope gets a client of its own from it. -/
def through {β α : Type} [Backend β] : Program α → Client → Work β α
  | finish o, _ => .ofOutcome o
  | send r k, c => .mk do
    let o ← (c.run r).run
    ((k o).through c).run
  | nest body k, c => .mk do
    let o ← (c.transact body.through).run
    ((k o).through c).run

mutual

/-- The words of a body of depth `d`: statements of the user and scopes of depth `d + 1`, in any
order. A scope comes to the first failure of its savepoint and its operation. -/
inductive Body (sql : TransactionSql) : {α : Type} → Nat → Program α → List Reply → Outcome α → Prop
  | finish {α : Type} {d : Nat} {o : Outcome α} : Body sql d (.finish o) [] o
  | send {α : Type} {d : Nat} {r : Request} {k : Outcome ResultSet → Program α}
      {o : Outcome ResultSet} {word : List Reply} {o' : Outcome α} :
      Body sql d (k o) word o' → Body sql d (.send r k) (⟨r, o⟩ :: word) o'
  | nest {α γ : Type} {d : Nat} {body : Program γ} {k : Outcome γ → Program α}
      {opening : Outcome ResultSet} {operation : Outcome γ} {inner word : List Reply}
      {o : Outcome α} :
      Nested sql (d + 1) body opening operation inner →
        Body sql d (k (do let _ ← opening; operation)) word o →
          Body sql d (.nest body k) (inner ++ word) o

/-- The words of a scope of depth `n`: a savepoint that cannot be set, or a savepoint and a body of
that depth, with a rollback to the savepoint exactly if the operation has failed. -/
inductive Nested (sql : TransactionSql) :
    {α : Type} → Nat → Program α → Outcome ResultSet → Outcome α → List Reply → Prop
  | refused {α : Type} {n : Nat} {p : Program α} {e : Error} {operation : Outcome α} :
      Nested sql n p (.error e) operation [⟨.script (sql.openSavepoint n), .error e⟩]
  | opened {α : Type} {n : Nat} {p : Program α} {operation : Outcome α} {inner : List Reply}
      {opened : ResultSet} {undone : Outcome ResultSet} :
      Body sql n p inner operation →
        Nested sql n p (.ok opened) operation (⟨.script (sql.openSavepoint n), .ok opened⟩ ::
          (inner ++ if operation.isOk then [] else [⟨.script (sql.undoSavepoint n), undone⟩]))

end

/-- The words of a root transaction: BEGIN that fails, or BEGIN and a body of depth zero and then, if
the operation has succeeded, COMMIT, with ROLLBACK if that fails, and if it has failed, ROLLBACK. -/
inductive Root (sql : TransactionSql) {α : Type} (p : Program α) :
    Outcome ResultSet → Outcome α → Outcome ResultSet → List Reply → Prop
  | refused {e : Error} {operation : Outcome α} {commit : Outcome ResultSet} :
      Root sql p (.error e) operation commit [⟨.script sql.begin, .error e⟩]
  | committed {inner : List Reply} {a : α} {begun done : ResultSet} :
      Body sql 0 p inner (.ok a) → Root sql p (.ok begun) (.ok a) (.ok done)
        (⟨.script sql.begin, .ok begun⟩ :: (inner ++ [⟨.script sql.commit, .ok done⟩]))
  | uncommitted {inner : List Reply} {a : α} {begun : ResultSet} {e : Error}
      {undone : Outcome ResultSet} :
      Body sql 0 p inner (.ok a) → Root sql p (.ok begun) (.ok a) (.error e)
        (⟨.script sql.begin, .ok begun⟩ ::
          (inner ++ [⟨.script sql.commit, .error e⟩, ⟨.script sql.rollback, undone⟩]))
  | undone {inner : List Reply} {e : Error} {begun : ResultSet} {commit undone : Outcome ResultSet} :
      Body sql 0 p inner (.error e) → Root sql p (.ok begun) (.error e) commit
        (⟨.script sql.begin, .ok begun⟩ :: (inner ++ [⟨.script sql.rollback, undone⟩]))

end Program

namespace Transaction

variable {sql : TransactionSql} {α : Type} {p : Program α} {word : List Reply} {o : Outcome α}

/-- A nested scope around a body sends a word of the scope's rule. -/
theorem Nests.nested {d : Nat} (h : Nests sql d (p.Body sql d) word o) :
    ∃ opening operation, p.Nested sql d opening operation word ∧
      o = (do let _ ← opening; operation) := by
  cases h with
  | @refused e => exact ⟨.error e, .error e, .refused, rfl⟩
  | @returned inner a opened hbody =>
    -- no rollback is sent, so how it would have ended does not matter
    have hword := @Program.Nested.opened sql _ _ _ _ _ opened (.ok opened) hbody
    exact ⟨.ok opened, .ok a, by simpa using hword, rfl⟩
  | failed hbody => exact ⟨_, _, .opened hbody, rfl⟩

/-- A root transaction around a body sends a word of the root's rule. -/
theorem Encloses.root (h : Encloses sql (p.Body sql 0) word o) :
    ∃ opening operation commit, p.Root sql opening operation commit word ∧
      o = (do let _ ← opening; let a ← operation; let _ ← commit; return a) := by
  cases h with
  | @refused e => exact ⟨_, .error e, .error e, .refused, rfl⟩
  | committed hbody => exact ⟨_, _, _, .committed hbody, rfl⟩
  | uncommitted hbody => exact ⟨_, _, _, .uncommitted hbody, rfl⟩
  | @undone _ _ _ undone hbody => exact ⟨_, _, undone, .undone hbody, rfl⟩

end Transaction

/-! ## Runs -/

namespace Program

variable {β α : Type} [Backend β]

/-- **A program alone finishes, and sends a word of a body**, by induction on the program, at every
depth and from every store that admits it. -/
theorem words_through (p : Program α) :
    ∀ {c : Client} {scope : Scope} {s : Store β}, c.scope = some scope → s.Admits scope →
      Work.Words (p.through c) scope.connection s (p.Body c.settings.transactionSql scope.depth) := by
  induction p with
  | finish o =>
    intro c scope s _ h
    exact ⟨o, s, [], Completes.pure, .refl h.idle h.answers, .finish⟩
  | send r k ih =>
    intro c scope s hc h
    obtain ⟨o, s₁, hrun, hs₁⟩ := Client.relays_run r hc h
    obtain ⟨o', s', word, hrest, hs', hword⟩ := ih o hc (h.of_relays hs₁)
    exact ⟨o', s', ⟨r, o⟩ :: word, Completes.bind hrun hrest, hs₁.trans hs', .send hword⟩
  | nest body k ihbody ih =>
    intro c scope s hc h
    obtain ⟨_, s₁, inner, hrun, hs₁, hnests⟩ :=
      Client.words_transact_nested (P := body.Body c.settings.transactionSql (scope.depth + 1)) hc h
        fun child s₁ hdepth hconnection hready => by
          rw [← hdepth, ← hconnection]
          exact ihbody (c := c.inScope child) rfl hready
    obtain ⟨opening, operation, hinner, rfl⟩ := hnests.nested
    obtain ⟨o, s', word, hrest, hs', hword⟩ := ih _ hc (h.of_relays hs₁)
    exact ⟨o, s', inner ++ word, Completes.bind hrun hrest, hs₁.trans hs', .nest hinner hword⟩

/-- The transaction of a program sends a word around a body over a connection of its own. -/
theorem leased_transact (p : Program α) {c : Client} {s : Store β} (hroot : c.scope = none)
    (ha : Backend.Answers (s.acquire c.settings.transactionAcquirer).2.backend) :
    ∃ o s', Completes (c.transact p.through).run s o s' ∧
      s.Leased c.settings.transactionAcquirer
        (Transaction.Encloses c.settings.transactionSql (p.Body c.settings.transactionSql 0)) o s' := by
  refine Client.leased_transact p.through _ hroot ha fun scope s₁ hdepth hready => ?_
  rw [← hdepth]
  exact p.words_through (c := c.inScope scope) rfl hready

/-- **What a root transaction sends is a word of the grammar.** Alone, over any database that answers
what it is sent, well or badly, the transaction of a program finishes. Its outcome is the first
failure of getting a connection, BEGIN, the operation and COMMIT, in this order. Without a connection
nothing is sent; with one, everything is sent over it, and the database's replies are a word of the
root's rule, with just these outcomes. -/
theorem worded_of_transact (c : Client) (p : Program α) (s₀ : Store β) (hroot : c.scope = none)
    (ha : Backend.Answers (s₀.acquire c.settings.transactionAcquirer).2.backend) :
    ∃ s' opening operation commit,
      FinishesAlone (c.transact p.through).run s₀
        (do
          let _ ← (s₀.acquire c.settings.transactionAcquirer).1
          let _ ← opening
          let a ← operation
          let _ ← commit
          return a) s' ∧
      (∀ e, (s₀.acquire c.settings.transactionAcquirer).1 = .error e →
        s'.log = s₀.log ++ [.refused (s₀.attempts + 1)]) ∧
      ∀ n, (s₀.acquire c.settings.transactionAcquirer).1 = .ok n → ∃ word events,
        s'.log = s₀.log ++ .acquired c.settings.transactionAcquirer n :: events ∧
        events.filter Event.isSent = word.map (fun e => e.request.event n) ∧
        Backend.Replies n (s₀.acquire c.settings.transactionAcquirer).2.backend word s'.backend ∧
        p.Root c.settings.transactionSql opening operation commit word := by
  obtain ⟨o, s', hrun, hleased⟩ := p.leased_transact hroot ha
  have hfinishes := finishesAlone_of_completes hrun
  cases hacquired : (s₀.acquire c.settings.transactionAcquirer).1 with
  | error e =>
    obtain ⟨rfl, rfl⟩ := hleased.of_refused hacquired
    refine ⟨_, .error e, .error e, .error e, hfinishes, ?_, ?_⟩
    · exact fun _ _ => Store.log_acquire_error hacquired
    · rintro n ⟨⟩
  | ok n =>
    obtain ⟨word, events, hlog, hsent, hreplies, hword⟩ := hleased.of_given hacquired
    obtain ⟨opening, operation, commit, hrule, rfl⟩ := hword.root
    refine ⟨s', opening, operation, commit, hfinishes, ?_, ?_⟩
    · rintro e ⟨⟩
    · rintro m ⟨⟩
      exact ⟨word, events, hlog, hsent, hreplies, hrule⟩

end Program

/-! ## A transaction that cannot commit -/

namespace Operation

variable {sql : TransactionSql} {reading : sql.Reading} {β α : Type} [Backend β]

/-- An operation as a program. -/
def program {α : Type} : Operation reading α → Program α
  | finish o => .finish o
  | send r k => .send r.request fun o => (k o).program
  | nest body k => .nest body.program fun o => (k o).program

/-- **Operations are the programs that send no control statements of their own.** -/
theorem through_program (p : Operation reading α) (c : Client) :
    (p.program.through c : Work β α) = p.through c := by
  induction p generalizing c with
  | finish o => rfl
  | send r k ih =>
    simp only [program, Program.through, through, ih]
  | nest body k ihbody ih =>
    have hbody : (body.program.through : Client → Work β _) = body.through := funext ihbody
    simp only [program, Program.through, through, hbody, ih]

/-- Scripted connections on which COMMIT fails. -/
def uncommittedStore : Store ScriptedDatabase :=
  Store.start ⟨[⟨[.equals "COMMIT"], .fail (.ofMessage "disk full"), none⟩], []⟩ .default

/-- What the transaction of `forgiving` sends if it cannot commit. -/
def uncommittedTexts : List Event :=
  [.script 1 "BEGIN", .statement 1 "INSERT INTO a" [], .script 1 "SAVEPOINT sqlfx1",
    .statement 1 "INSERT INTO b" [], .script 1 "ROLLBACK TO SAVEPOINT sqlfx1",
    .script 1 "SAVEPOINT sqlfx1", .statement 1 "INSERT INTO c" [], .statement 1 "INSERT INTO d" [],
    .script 1 "COMMIT", .script 1 "ROLLBACK"]

theorem rounds_uncommitted (turns : Nat) :
    (Tasks.rounds (turns + 1) (sqliteClient.transact forgiving.program.through).run
        ⟨uncommittedStore, [], [], []⟩).map (fun r => (r.1, r.2.state.log)) =
      some (.error (.ofMessage "disk full"),
        .acquired .general 1 :: (uncommittedTexts ++ [.released 1])) := by
  with_unfolding_all rfl

end Operation

namespace Program

open Operation in
/-- The transaction of `forgiving` fails with the error of COMMIT, and is rolled back as a whole. -/
theorem worded_forgiving :
    sqliteClient.scope = none ∧
    Backend.Answers (uncommittedStore.acquire .general).2.backend ∧
    ∃ s' word opening operation commit,
      FinishesAlone (sqliteClient.transact forgiving.program.through).run uncommittedStore
        (.error (.ofMessage "disk full")) s' ∧
      word.map (fun e : Reply => e.request.event 1) = uncommittedTexts ∧
      forgiving.program.Root (.ofDialect .sqlite) opening operation commit word := by
  have hanswers : Backend.Answers (uncommittedStore.acquire .general).2.backend :=
    ScriptedDatabase.answers (List.forall_mem_singleton.2 nofun)
  obtain ⟨s', opening, operation, commit, hrun, -, hworded⟩ :=
    worded_of_transact sqliteClient forgiving.program uncommittedStore rfl hanswers
  obtain ⟨word, events, hlog, hsent, -, hword⟩ := hworded 1 rfl
  -- the scheduler's own run says which outcome and which log these are
  obtain ⟨turns, hturns⟩ := hrun
  obtain ⟨r, hr, hlast⟩ := Option.map_eq_some_iff.1 (rounds_uncommitted turns)
  have hsame := Option.some.inj ((hturns (turns + 1) (by omega)).symm.trans hr)
  subst hsame
  obtain ⟨houtcome, htexts⟩ := Prod.mk.inj hlast
  refine ⟨rfl, hanswers, s', word, opening, operation, commit, ⟨turns, houtcome ▸ hturns⟩, ?_, hword⟩
  rw [htexts] at hlog
  obtain rfl : uncommittedTexts ++ [.released 1] = events := (List.cons.inj hlog).2
  rw [← hsent]
  rfl

end Program

end SqlClient
