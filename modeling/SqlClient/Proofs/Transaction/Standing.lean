import SqlClient.Proofs.Transaction.Grammar
/-!
# Transactions — what a failed rollback leaves standing

A nested scope that fails hands its error to the scope around it whether or not the rollback to its
savepoint has succeeded. So what a scope whose rollback failed has done stands, and is committed if
some scope around it swallows the error and the root transaction returns a result. `Leaves` reads a
word of the grammar as a course in which such a scope counts like one that returned; replaying the
word on a ledger commits exactly what that course keeps, for every choice of the statements that
fail. Only programs that pass every failure of a scope on never commit after a rollback.
-/

namespace SqlClient

open Coroutine

namespace Program

variable {α : Type}

/-! ## Programs -/

/-- Every request that the program may send is as `P` says. -/
def Sends (P : Request → Prop) {α : Type} : Program α → Prop
  | finish _ => True
  | send r k => P r ∧ ∀ o, (k o).Sends P
  | nest body k => body.Sends P ∧ ∀ o, (k o).Sends P

/-- The program fails, whatever its steps come to. -/
def Fails {α : Type} : Program α → Prop
  | finish o => o.isOk = false
  | send _ k => ∀ o, (k o).Fails
  | nest _ k => ∀ o, (k o).Fails

/-- The program fails if one of its nested scopes does. -/
def PassesOn {α : Type} : Program α → Prop
  | finish _ => True
  | send _ k => ∀ o, (k o).PassesOn
  | nest body k => body.PassesOn ∧ (∀ a, (k (.ok a)).PassesOn) ∧ ∀ e, (k (.error e)).Fails

/-! ## What a body leaves -/

/-- `p.Leaves sql d word o t`: as the body of a scope of depth `d`, the program can send `word` and
come to `o`, and `t` is what then stands. A nested scope is undone if its operation has failed and
the rollback to its savepoint has not; one whose savepoint could not be set has sent nothing. -/
inductive Leaves (sql : TransactionSql) :
    {α : Type} → Nat → Program α → List Reply → Outcome α → Course → Prop
  | finish {α : Type} {d : Nat} {o : Outcome α} : Leaves sql d (.finish o) [] o .finished
  | send {α : Type} {d : Nat} {r : Request} {k : Outcome ResultSet → Program α}
      {o : Outcome ResultSet} {word : List Reply} {o' : Outcome α} {t : Course} :
      Leaves sql d (k o) word o' t →
        Leaves sql d (.send r k) (⟨r, o⟩ :: word) o' (.sent r o.isOk t)
  | refused {α γ : Type} {d : Nat} {body : Program γ} {k : Outcome γ → Program α} {e : Error}
      {word : List Reply} {o : Outcome α} {t : Course} :
      Leaves sql d (k (.error e)) word o t →
        Leaves sql d (.nest body k) (⟨.script (sql.openSavepoint (d + 1)), .error e⟩ :: word) o t
  | returned {α γ : Type} {d : Nat} {body : Program γ} {k : Outcome γ → Program α}
      {opened : ResultSet} {a : γ} {inner word : List Reply} {o : Outcome α} {tbody t : Course} :
      Leaves sql (d + 1) body inner (.ok a) tbody → Leaves sql d (k (.ok a)) word o t →
        Leaves sql d (.nest body k)
          (⟨.script (sql.openSavepoint (d + 1)), .ok opened⟩ :: (inner ++ word)) o
          (.nested tbody true t)
  | failed {α γ : Type} {d : Nat} {body : Program γ} {k : Outcome γ → Program α}
      {opened : ResultSet} {undone : Outcome ResultSet} {e : Error} {inner word : List Reply}
      {o : Outcome α} {tbody t : Course} :
      Leaves sql (d + 1) body inner (.error e) tbody → Leaves sql d (k (.error e)) word o t →
        Leaves sql d (.nest body k)
          (⟨.script (sql.openSavepoint (d + 1)), .ok opened⟩ ::
            (inner ++ ⟨.script (sql.undoSavepoint (d + 1)), undone⟩ :: word)) o
          (.nested tbody (!undone.isOk) t)

variable {sql : TransactionSql} {reading : sql.Reading} {d : Nat} {p : Program α}
  {word : List Reply} {o : Outcome α} {t : Course}

/-- Every word of a body leaves something, by induction on the program. -/
theorem Body.leaves (h : p.Body sql d word o) : ∃ t, p.Leaves sql d word o t := by
  induction p generalizing d word with
  | finish =>
    cases h
    exact ⟨_, .finish⟩
  | send r k ih =>
    cases h with
    | send hrest =>
      obtain ⟨t, ht⟩ := ih _ hrest
      exact ⟨_, .send ht⟩
  | nest body k ihbody ih =>
    cases h with
    | @nest _ _ _ _ _ _ operation _ _ _ hnested hrest =>
      obtain ⟨t, ht⟩ := ih _ hrest
      cases hnested with
      | refused => exact ⟨t, .refused ht⟩
      | opened hbody =>
        obtain ⟨tbody, htbody⟩ := ihbody hbody
        cases operation with
        | ok a => exact ⟨_, by simpa using Leaves.returned htbody ht⟩
        | error e => exact ⟨_, by simpa using Leaves.failed htbody ht⟩

/-- **What stands is all that a replay sees.** Without what failed, the word is what the course
emits. -/
theorem Leaves.filter_eq (h : p.Leaves sql d word o t) :
    (word.map Reply.exchange).filter (·.succeeded) = (t.emitted sql d).filter (·.succeeded) := by
  induction h with
  | finish => rfl
  | send _ ih => simp [Reply.exchange, Course.emitted, List.filter_cons, ih]
  | refused _ ih => simpa [Reply.exchange] using ih
  | returned _ _ ihbody ih =>
    simp [Reply.exchange, Course.emitted, ihbody, ih]
  | @failed _ _ _ _ _ _ undone _ _ _ _ _ _ _ _ ihbody ih =>
    cases undone <;>
      simp [Reply.exchange, Course.emitted, ihbody, ih]

/-- What stands holds no control statement if the program sends none. -/
theorem Leaves.plain (h : p.Leaves sql d word o t)
    (hp : p.Sends fun r => reading.control? r.sql = none) : t.Plain reading := by
  induction h with
  | finish =>
    intro e he
    cases he
  | send _ ih =>
    intro e he
    cases he with
    | head => exact hp.1
    | tail _ he => exact ih (hp.2 _) e he
  | refused _ ih => exact ih (hp.2 _)
  | returned _ _ ihbody ih | failed _ _ ihbody ih =>
    intro e he
    rcases List.mem_append.1 he with he | he
    · exact ihbody hp.1 e he
    · exact ih (hp.2 _) e he

/-- A body leaves the transaction open: it sends neither COMMIT nor any other control statement than
those of its savepoints. -/
theorem Leaves.no_commit (h : p.Leaves sql d word o t)
    (hp : p.Sends fun r => reading.control? r.sql = none) :
    ∀ e ∈ word, reading.control? e.request.sql ≠ some .commit := by
  have hplain : ∀ {r : Request}, reading.control? r.sql = none →
      reading.control? r.sql ≠ some .commit := by
    intro r hr
    simp [hr]
  induction h with
  | finish =>
    intro e he
    cases he
  | send _ ih =>
    exact List.forall_mem_cons.2 ⟨hplain hp.1, ih (hp.2 _)⟩
  | refused _ ih =>
    exact List.forall_mem_cons.2 ⟨by simp [reading.openSavepoint], ih (hp.2 _)⟩
  | returned _ _ ihbody ih =>
    refine List.forall_mem_cons.2 ⟨by simp [reading.openSavepoint], ?_⟩
    exact List.forall_mem_append.2 ⟨ihbody hp.1, ih (hp.2 _)⟩
  | failed _ _ ihbody ih =>
    refine List.forall_mem_cons.2 ⟨by simp [reading.openSavepoint], ?_⟩
    refine List.forall_mem_append.2 ⟨ihbody hp.1, ?_⟩
    exact List.forall_mem_cons.2 ⟨by simp [reading.undoSavepoint], ih (hp.2 _)⟩

/-- A program that must fail does. -/
theorem Leaves.isOk_of_fails (h : p.Leaves sql d word o t) (hp : p.Fails) : o.isOk = false := by
  induction h with
  | finish => exact hp
  | send _ ih | refused _ ih | returned _ _ _ ih | failed _ _ _ ih => exact ih (hp _)

/-- **A program that passes failures on and returns a result has rolled nothing back**, since the
scope that was rolled back has failed. -/
theorem Leaves.no_rollbackTo (h : p.Leaves sql d word o t) (ho : o.isOk = true)
    (hpasses : p.PassesOn) (hp : p.Sends fun r => reading.control? r.sql = none) :
    ∀ e ∈ word, ∀ name, reading.control? e.request.sql ≠ some (.rollbackTo name) := by
  induction h with
  | finish =>
    intro e he
    cases he
  | send _ ih =>
    refine List.forall_mem_cons.2 ⟨?_, ih ho (hpasses _) (hp.2 _)⟩
    intro name
    simp [hp.1]
  | refused hrest _ =>
    have hfailed := hrest.isOk_of_fails (hpasses.2.2 _)
    rw [ho] at hfailed
    cases hfailed
  | returned _ _ ihbody ih =>
    refine List.forall_mem_cons.2 ⟨by simp [reading.openSavepoint], ?_⟩
    exact List.forall_mem_append.2 ⟨ihbody rfl hpasses.1 hp.1, ih ho (hpasses.2.1 _) (hp.2 _)⟩
  | failed _ hrest _ _ =>
    have hfailed := hrest.isOk_of_fails (hpasses.2.2 _)
    rw [ho] at hfailed
    cases hfailed

/-! ## What a root transaction leaves -/

/-- `p.Ends sql word o t`: the root transaction of the program can send `word` and come to `o`, and
`t` is what its operation has left standing when it ends. -/
inductive Ends (sql : TransactionSql) (p : Program α) : List Reply → Outcome α → Course → Prop
  | refused {e : Error} : Ends sql p [⟨.script sql.begin, .error e⟩] (.error e) .finished
  | committed {a : α} {begun done : ResultSet} {inner : List Reply} {t : Course} :
      p.Leaves sql 0 inner (.ok a) t →
        Ends sql p (⟨.script sql.begin, .ok begun⟩ :: (inner ++ [⟨.script sql.commit, .ok done⟩]))
          (.ok a) t
  | uncommitted {a : α} {begun : ResultSet} {e : Error} {undone : Outcome ResultSet}
      {inner : List Reply} {t : Course} :
      p.Leaves sql 0 inner (.ok a) t →
        Ends sql p (⟨.script sql.begin, .ok begun⟩ ::
          (inner ++ [⟨.script sql.commit, .error e⟩, ⟨.script sql.rollback, undone⟩])) (.error e) t
  | undone {begun : ResultSet} {e : Error} {undone : Outcome ResultSet} {inner : List Reply}
      {t : Course} :
      p.Leaves sql 0 inner (.error e) t →
        Ends sql p (⟨.script sql.begin, .ok begun⟩ :: (inner ++ [⟨.script sql.rollback, undone⟩]))
          (.error e) t

theorem Root.ends {opening : Outcome ResultSet} {operation : Outcome α} {commit : Outcome ResultSet}
    (h : p.Root sql opening operation commit word) :
    ∃ t, p.Ends sql word (do let _ ← opening; let a ← operation; let _ ← commit; return a) t := by
  cases h with
  | refused => exact ⟨_, .refused⟩
  | committed hbody =>
    obtain ⟨t, ht⟩ := hbody.leaves
    exact ⟨t, .committed ht⟩
  | uncommitted hbody =>
    obtain ⟨t, ht⟩ := hbody.leaves
    exact ⟨t, .uncommitted ht⟩
  | undone hbody =>
    obtain ⟨t, ht⟩ := hbody.leaves
    exact ⟨t, .undone ht⟩

/-- Replaying BEGIN and a body makes what stands pending, and commits nothing. -/
theorem Leaves.replay_eq (h : p.Leaves sql 0 word o t)
    (hp : p.Sends fun r => reading.control? r.sql = none) (begun : ResultSet)
    (committed : List Request) :
    ∃ savepoints, Ledger.replay reading ⟨committed, none⟩
        ((⟨.script sql.begin, .ok begun⟩ :: word : List Reply).map Reply.exchange) =
      ⟨committed, some ⟨t.kept, savepoints⟩⟩ := by
  obtain ⟨stale, -, hreplay⟩ := Course.replay_emitted (h.plain hp) 0 committed ⟨[], []⟩
  refine ⟨stale ++ [], ?_⟩
  have hbegin : Reply.exchange ⟨.script sql.begin, .ok begun⟩ = ⟨.script sql.begin, true⟩ := rfl
  rw [List.map_cons, hbegin, Ledger.replay_cons, Ledger.apply_control reading.begin,
    ← Ledger.replay_filter, h.filter_eq, Ledger.replay_filter]
  exact hreplay

/-- **A root transaction commits what stands if it returns a result, and nothing otherwise**,
whichever of its statements fail. -/
theorem Ends.committed_eq (h : p.Ends sql word o t)
    (hp : p.Sends fun r => reading.control? r.sql = none) (committed : List Request) :
    (Ledger.replay reading ⟨committed, none⟩ (word.map Reply.exchange)).committed =
      committed ++ if o.isOk then t.kept else [] := by
  cases h with
  | refused => simp [Reply.exchange, Ledger.apply]
  | @committed _ begun _ _ _ hbody =>
    obtain ⟨savepoints, hreplay⟩ := hbody.replay_eq hp begun committed
    rw [← List.cons_append, List.map_append, Ledger.replay_append, hreplay]
    simp [Reply.exchange, Ledger.apply, Ledger.control, reading.commit]
  | @uncommitted _ begun _ undone _ _ hbody =>
    obtain ⟨savepoints, hreplay⟩ := hbody.replay_eq hp begun committed
    rw [← List.cons_append, List.map_append, Ledger.replay_append, hreplay]
    cases undone <;>
      simp [Reply.exchange, Ledger.apply, Ledger.control,
        reading.rollback]
  | @undone begun _ undone _ _ hbody =>
    obtain ⟨savepoints, hreplay⟩ := hbody.replay_eq hp begun committed
    rw [← List.cons_append, List.map_append, Ledger.replay_append, hreplay]
    cases undone <;>
      simp [Reply.exchange, Ledger.apply, Ledger.control,
        reading.rollback]

/-- **Where failures are passed on, no COMMIT follows a rollback to a savepoint**, successful or
not. -/
theorem Ends.no_commit (h : p.Ends sql word o t) (hpasses : p.PassesOn)
    (hp : p.Sends fun r => reading.control? r.sql = none) {e : Reply} (he : e ∈ word) {name : String}
    (hname : reading.control? e.request.sql = some (.rollbackTo name)) :
    ∀ e ∈ word, reading.control? e.request.sql ≠ some .commit := by
  cases h with
  | refused => exact List.forall_mem_singleton.2 (by simp [reading.begin])
  | committed hbody =>
    -- the rollback would be one of the body, which has returned a result
    have hnone := hbody.no_rollbackTo rfl hpasses hp
    simp only [List.mem_cons, List.mem_append, List.not_mem_nil, or_false] at he
    rcases he with rfl | he | rfl
    · simp [reading.begin] at hname
    · exact absurd hname (hnone e he name)
    · simp [reading.commit] at hname
  | uncommitted hbody =>
    have hnone := hbody.no_rollbackTo rfl hpasses hp
    simp only [List.mem_cons, List.mem_append, List.not_mem_nil, or_false] at he
    rcases he with rfl | he | rfl | rfl
    · simp [reading.begin] at hname
    · exact absurd hname (hnone e he name)
    · simp [reading.commit] at hname
    · simp [reading.rollback] at hname
  | undone hbody =>
    refine List.forall_mem_cons.2 ⟨by simp [reading.begin], ?_⟩
    refine List.forall_mem_append.2 ⟨hbody.no_commit hp, ?_⟩
    exact List.forall_mem_singleton.2 (by simp [reading.rollback])

variable {β : Type} [Backend β]

/-- Alone on the connection it gets, the transaction of a program finishes, and what it sends is a
word of a root transaction that leaves something standing. -/
theorem ends_transact (c : Client) (p : Program α) (n : Nat) (s₀ : Store β) (hroot : c.scope = none)
    (hgiven : (s₀.acquire c.settings.transactionAcquirer).1 = .ok n)
    (ha : Backend.Answers (s₀.acquire c.settings.transactionAcquirer).2.backend) :
    ∃ o s' word events t,
      FinishesAlone (c.transact p.through).run s₀ o s' ∧
      s'.log = s₀.log ++ events ∧
      events.filter Event.isSent = word.map (fun e => e.request.event n) ∧
      Backend.Replies n (s₀.acquire c.settings.transactionAcquirer).2.backend word s'.backend ∧
      p.Ends c.settings.transactionSql word o t := by
  obtain ⟨o, s', hrun, hleased⟩ := p.leased_transact hroot ha
  obtain ⟨word, events, hlog, hsent, hreplies, hword⟩ := hleased.of_given hgiven
  obtain ⟨_, _, _, hrule, rfl⟩ := hword.root
  obtain ⟨t, hends⟩ := hrule.ends
  exact ⟨_, s', word, .acquired c.settings.transactionAcquirer n :: events, t,
    finishesAlone_of_completes hrun, hlog, hsent, hreplies, hends⟩

/-- **What a root transaction commits when any of its statements may fail.** Alone, on the
connection it gets, over any database that answers what it is sent, the transaction of a program
finishes. If it returns a result, replaying what was sent commits exactly the requests that succeeded
and of whose scopes none was undone: a scope is undone if its operation has failed and its rollback
has succeeded. Otherwise nothing is committed. So a scope whose rollback failed is committed with
the root, unless the program passes failures on: then a rollback to a savepoint, successful or not,
keeps COMMIT from being sent at all. -/
theorem standing_of_transact (c : Client) (reading : c.settings.transactionSql.Reading)
    (p : Program α) (n : Nat) (s₀ : Store β) (hroot : c.scope = none)
    (hp : p.Sends fun r => reading.control? r.sql = none)
    (hgiven : (s₀.acquire c.settings.transactionAcquirer).1 = .ok n)
    (ha : Backend.Answers (s₀.acquire c.settings.transactionAcquirer).2.backend) :
    ∃ o s' word events t,
      FinishesAlone (c.transact p.through).run s₀ o s' ∧
      s'.log = s₀.log ++ events ∧
      events.filter Event.isSent = word.map (fun e => e.request.event n) ∧
      Backend.Replies n (s₀.acquire c.settings.transactionAcquirer).2.backend word s'.backend ∧
      p.Ends c.settings.transactionSql word o t ∧
      (∀ committed, (Ledger.replay reading ⟨committed, none⟩ (word.map Reply.exchange)).committed =
        committed ++ if o.isOk then t.kept else []) ∧
      (p.PassesOn →
        (∃ e ∈ word, ∃ name, reading.control? e.request.sql = some (.rollbackTo name)) →
        ∀ e ∈ word, reading.control? e.request.sql ≠ some .commit) := by
  obtain ⟨o, s', word, events, t, hrun, hlog, hsent, hreplies, hends⟩ :=
    ends_transact c p n s₀ hroot hgiven ha
  refine ⟨o, s', word, events, t, hrun, hlog, hsent, hreplies, hends, hends.committed_eq hp, ?_⟩
  rintro hpasses ⟨e, he, name, hname⟩
  exact hends.no_commit hpasses hp he hname

/-- A scope that fails, and a transaction that fails with it. -/
def insisting : Program Unit :=
  .nest (γ := Unit) (.send (.statement "INSERT INTO b" []) fun _ =>
    .finish (.error (.ofMessage "given up"))) .finish

/-- Scripted connections on which no rollback to a savepoint succeeds. -/
def stuckDatabase : ScriptedDatabase :=
  ⟨[⟨[.startsWith "ROLLBACK TO"], .fail (.ofMessage "out of memory"), none⟩], []⟩

theorem stuckDatabase_answers : Backend.Answers stuckDatabase :=
  ScriptedDatabase.answers (List.forall_mem_singleton.2 nofun)

/-- What the transaction of `insisting` sends if its scope cannot be rolled back. -/
def insistingTexts : List Event :=
  [.script 1 "BEGIN", .script 1 "SAVEPOINT sqlfx1", .statement 1 "INSERT INTO b" [],
    .script 1 "ROLLBACK TO SAVEPOINT sqlfx1", .script 1 "ROLLBACK"]

open Operation in
theorem rounds_insisting (turns : Nat) :
    (Tasks.rounds (turns + 1) (sqliteClient.transact insisting.through).run
        ⟨Store.start stuckDatabase .default, [], [], []⟩).map
          (fun r => (r.1, r.2.state.log.filter Event.isSent)) =
      some (.error (.ofMessage "given up"), insistingTexts) := by
  with_unfolding_all rfl

open Operation in
/-- The transaction of `insisting` does not commit. -/
theorem standing_insisting :
    sqliteClient.scope = none ∧
    insisting.Sends (fun r => (TransactionSql.Reading.ofDialect .sqlite).control? r.sql = none) ∧
    ((Store.start stuckDatabase .default).acquire .general).1 = .ok 1 ∧
    Backend.Answers ((Store.start stuckDatabase .default).acquire .general).2.backend ∧
    insisting.PassesOn ∧
    ∃ s' word t,
      FinishesAlone (sqliteClient.transact insisting.through).run (Store.start stuckDatabase .default)
        (.error (.ofMessage "given up")) s' ∧
      word.map (fun e : Reply => e.request.event 1) = insistingTexts ∧
      insisting.Ends (.ofDialect .sqlite) word (.error (.ofMessage "given up")) t ∧
      ∀ e ∈ word, (TransactionSql.Reading.ofDialect .sqlite).control? e.request.sql ≠ some .commit := by
  have hp : insisting.Sends
      (fun r => (TransactionSql.Reading.ofDialect .sqlite).control? r.sql = none) :=
    ⟨⟨by decide, fun _ => trivial⟩, fun _ => trivial⟩
  have hpasses : insisting.PassesOn := ⟨fun _ => trivial, fun _ => trivial, fun _ => rfl⟩
  obtain ⟨o, s', word, events, t, hrun, hlog, hsent, -, hends, -, hnone⟩ :=
    standing_of_transact sqliteClient (.ofDialect .sqlite) insisting 1
      (Store.start stuckDatabase .default) rfl hp rfl stuckDatabase_answers
  -- the scheduler's own run says which outcome and which log these are
  obtain ⟨turns, hturns⟩ := hrun
  obtain ⟨r, hr, hlast⟩ := Option.map_eq_some_iff.1 (rounds_insisting turns)
  obtain rfl := Option.some.inj ((hturns (turns + 1) (by omega)).symm.trans hr)
  obtain ⟨houtcome, htexts⟩ := Prod.mk.inj hlast
  obtain rfl : o = .error (.ofMessage "given up") := houtcome
  have hword : word.map (fun e : Reply => e.request.event 1) = insistingTexts := by
    rw [← hsent, ← htexts, hlog]
    rfl
  refine ⟨rfl, hp, rfl, stuckDatabase_answers, hpasses, s', word, t, ⟨turns, hturns⟩, hword, hends,
    hnone hpasses ?_⟩
  have hmem : Event.script 1 "ROLLBACK TO SAVEPOINT sqlfx1" ∈
      word.map (fun e : Reply => e.request.event 1) := by
    rw [hword]
    decide
  obtain ⟨e, he, hevent⟩ := List.mem_map.1 hmem
  refine ⟨e, he, "sqlfx1", ?_⟩
  obtain ⟨request, outcome⟩ := e
  cases request with
  | statement => cases hevent
  | script text =>
    obtain ⟨-, rfl⟩ := Event.script.inj hevent
    exact TransactionSql.Reading.undoSavepoint _ 1

/-- What the transaction of `forgiving` sends if its scope cannot be rolled back. -/
def stuckRecord : List Exchange :=
  [⟨.script "BEGIN", true⟩, ⟨.statement "INSERT INTO a" [], true⟩,
    ⟨.script "SAVEPOINT sqlfx1", true⟩, ⟨.statement "INSERT INTO b" [], true⟩,
    ⟨.script "ROLLBACK TO SAVEPOINT sqlfx1", false⟩, ⟨.script "SAVEPOINT sqlfx1", true⟩,
    ⟨.statement "INSERT INTO c" [], true⟩, ⟨.statement "INSERT INTO d" [], true⟩,
    ⟨.script "COMMIT", true⟩]

open Operation in
theorem rounds_stuck (turns : Nat) :
    (Tasks.rounds (turns + 1) (sqliteClient.transact forgiving.program.through).run
        ⟨Store.start (⟨stuckDatabase, []⟩ : Journal ScriptedDatabase) .default, [], [], []⟩).map
          (fun r => (r.1, r.2.state.backend.entries)) =
      some (.ok (), stuckRecord.map (Prod.mk 1)) := by
  with_unfolding_all rfl

open Operation in
/-- **A rollback that fails need not keep the transaction from committing**: the first scope of
`forgiving` fails and its rollback fails too, the transaction returns a result, and the request of
the failed scope is committed with the others. -/
theorem committed_stuck :
    (∃ s', FinishesAlone (sqliteClient.transact forgiving.program.through).run
        (Store.start (⟨stuckDatabase, []⟩ : Journal ScriptedDatabase) .default) (.ok ()) s' ∧
      s'.backend.entries = stuckRecord.map (Prod.mk 1)) ∧
    (Ledger.replay (.ofDialect .sqlite) ⟨[], none⟩ stuckRecord).committed =
      [.statement "INSERT INTO a" [], .statement "INSERT INTO b" [], .statement "INSERT INTO c" [],
        .statement "INSERT INTO d" []] := by
  obtain ⟨o, s', word, events, t, hrun, -⟩ :=
    ends_transact sqliteClient forgiving.program 1
      (Store.start (⟨stuckDatabase, []⟩ : Journal ScriptedDatabase) .default) rfl rfl
      (Backend.Answers.journal stuckDatabase_answers)
  obtain ⟨turns, hturns⟩ := hrun
  obtain ⟨r, hr, hlast⟩ := Option.map_eq_some_iff.1 (rounds_stuck turns)
  obtain rfl := Option.some.inj ((hturns (turns + 1) (by omega)).symm.trans hr)
  obtain ⟨houtcome, hentries⟩ := Prod.mk.inj hlast
  obtain rfl : o = .ok () := houtcome
  exact ⟨⟨s', ⟨turns, hturns⟩, hentries⟩, by decide⟩

end Program

end SqlClient
