import SqlClient.Proofs.Migration.Database
/-!
# Migrations — the grammar of a run

What a run sends, as words of a grammar. `Applies` is the word of some migrations one after another:
the body of each and the statement that records it, up to the first failure. `Undertakes` is the word
of the whole transaction of a run between BEGIN and what closes it: the lock where there is one, the
question for the latest recorded id, and the migrations that are newer.
-/

namespace SqlClient

open Coroutine

variable {β : Type}

namespace Work

variable {α γ : Type} {w : Work β α} {f : α → Work β γ} {s s₁ s' : Store β}

/-- Work goes on after a result. -/
theorem completes_bind {a : α} {o : Outcome γ} (h : Completes w.run s (.ok a) s₁)
    (hf : Completes (f a).run s₁ o s') : Completes (w >>= f).run s o s' :=
  Completes.bind h hf

/-- Work ends with a failure. -/
theorem completes_bind_error {e : Error} (h : Completes w.run s (.error e) s₁) :
    Completes (w >>= f).run s (.error e) s₁ :=
  Completes.bind h Completes.pure

end Work

namespace Migration

variable [Backend β]

/-- What a run hands back for a migration. -/
def row (one : Migration β) : Int64 × String := (one.id, one.name)

/-- The change that a migration makes, without its record. -/
def change (one : Migration β) (tx : Client) : Work β Unit :=
  match one.source with
  | .script sql => tx.runScript sql
  | .code run => run tx

/-- A failed change as the run reports it. -/
def failure (one : Migration β) (e : Error) : Error :=
  .migration .failed
    ("migration " ++ (toString one.id.toInt ++ " (" ++ one.name ++ ")") ++ " failed: " ++ e.message)

/-- The program of a migration that is a script: one request. -/
def script (text : String) : Program Unit :=
  .send (.script text) fun o => .finish (o.map fun _ => ())

theorem change_script {one : Migration β} {text : String} (h : one.source = .script text) :
    one.change = (script text).through := by
  funext tx
  simp only [change, h, Client.runScript, script, Program.through]
  refine congrArg (fun k => (ExceptT.mk ((tx.run (.script text)).run >>= k) : Work β Unit))
    (funext fun o => ?_)
  cases o <;> rfl

end Migration

/-- A program comes to a result if all its statements succeed. -/
def Program.Dependable (sql : TransactionSql) (p : Program Unit) : Prop :=
  ∀ inner o, p.Body sql 0 inner o → (∀ e ∈ inner, e.outcome.isOk = true) → o.isOk = true

namespace Migrator

section Grammar

variable (sql : TransactionSql) (d : Dialect) (table : String)

/-- The words of migrations that are applied one after another, if `body` says what their changes do,
and what they come to: their ids and names, or the first failure. -/
inductive Applies (body : Migration β → Program Unit) :
    List (Migration β) → List Reply → Outcome (List (Int64 × String)) → Prop
  | done : Applies body [] [] (.ok [])
  | failed {one : Migration β} {rest : List (Migration β)} {inner : List Reply} {e : Error} :
      (body one).Body sql 0 inner (.error e) →
      Applies body (one :: rest) inner (.error (one.failure e))
  | unrecorded {one : Migration β} {rest : List (Migration β)} {inner : List Reply} {e : Error} :
      (body one).Body sql 0 inner (.ok ()) →
      Applies body (one :: rest) (inner ++ [⟨recording d table one.row, .error e⟩]) (.error e)
  | applied {one : Migration β} {rest : List (Migration β)} {inner word : List Reply}
      {done : ResultSet} {o : Outcome (List (Int64 × String))} :
      (body one).Body sql 0 inner (.ok ()) → Applies body rest word o →
      Applies body (one :: rest) (inner ++ ⟨recording d table one.row, .ok done⟩ :: word)
        (o.map (one.row :: ·))

/-- The words by which a run keeps others out. -/
inductive Locks : List Reply → Prop
  | none : lockTable? d table = none → Locks []
  | locked {text : String} {done : ResultSet} : lockTable? d table = some text →
      Locks [⟨.script text, .ok done⟩]

/-- The words of the transaction of a run between BEGIN and its close. -/
inductive Undertakes (m : Migrator β) (body : Migration β → Program Unit) :
    List Reply → Outcome (List (Int64 × String)) → Prop
  | unlocked {text : String} {e : Error} : lockTable? d table = some text →
      Undertakes m body [⟨.script text, .error e⟩] (.error e)
  | unread {before : List Reply} {e : Error} : Locks d table before →
      Undertakes m body (before ++ [⟨asking table, .error e⟩]) (.error e)
  | malformed {before : List Reply} {found : ResultSet} {e : Error} : Locks d table before →
      latestOf found = .error e →
      Undertakes m body (before ++ [⟨asking table, .ok found⟩]) (.error e)
  | read {before word : List Reply} {found : ResultSet} {latest : Int64}
      {o : Outcome (List (Int64 × String))} : Locks d table before → latestOf found = .ok latest →
      Applies sql d table body (m.pending latest) word o →
      Undertakes m body (before ++ ⟨asking table, .ok found⟩ :: word) o

end Grammar

/-! ## Words without failures -/

section Successes

variable {sql : TransactionSql} {d : Dialect} {table : String} {body : Migration β → Program Unit}
  {m : Migrator β} {word : List Reply} {o : Outcome (List (Int64 × String))}

/-- Migrations come to a result if all their statements succeed and their bodies then do. -/
theorem Applies.isOk {list : List (Migration β)} (h : Applies sql d table body list word o)
    (hword : ∀ e ∈ word, e.outcome.isOk = true)
    (hbody : ∀ one ∈ list, (body one).Dependable sql) : o.isOk = true := by
  induction h with
  | done => rfl
  | failed hfailed => cases hbody _ (.head _) _ _ hfailed hword
  | unrecorded => cases hword _ (List.mem_append_right _ (.head _))
  | @applied _ _ _ _ _ o _ _ ih =>
    have hrest := ih (fun e he => hword e (List.mem_append_right _ (.tail _ he)))
      fun one hone => hbody one (.tail _ hone)
    cases o with
    | error => cases hrest
    | ok => rfl

/-- So does the transaction of a run, if the latest recorded id can be read. -/
theorem Undertakes.isOk (h : Undertakes sql d table m body word o)
    (hword : ∀ e ∈ word, e.outcome.isOk = true)
    (hread : ∀ found, ⟨asking table, .ok found⟩ ∈ word → (latestOf found).isOk = true)
    (hbody : ∀ one ∈ m.migrations, (body one).Dependable sql) : o.isOk = true := by
  cases h with
  | unlocked => cases hword _ (.head _)
  | unread => cases hword _ (List.mem_append_right _ (.head _))
  | malformed _ hlatest =>
    have hok := hread _ (List.mem_append_right _ (.head _))
    rw [hlatest] at hok
    cases hok
  | read _ _ happlies =>
    exact happlies.isOk (fun e he => hword e (List.mem_append_right _ (.tail _ he)))
      fun one hone => hbody one (mem_pending.1 hone).1

/-- Then the transaction is committed. -/
theorem Undertakes.committed
    (h : Transaction.Encloses sql (Undertakes sql d table m body) word o)
    (hword : ∀ e ∈ word, e.outcome.isOk = true)
    (hread : ∀ found, ⟨asking table, .ok found⟩ ∈ word → (latestOf found).isOk = true)
    (hbody : ∀ one ∈ m.migrations, (body one).Dependable sql) :
    o.isOk = true ∧ ∃ (begun done : ResultSet) (inner : List Reply),
      word = ⟨.script sql.begin, .ok begun⟩ :: (inner ++ [⟨.script sql.commit, .ok done⟩]) := by
  cases h with
  | refused => cases hword _ (.head _)
  | committed => exact ⟨rfl, _, _, _, rfl⟩
  | uncommitted => cases hword _ (.tail _ (List.mem_append_right _ (.head _)))
  | undone hinner =>
    have hok := hinner.isOk (fun e he => hword e (.tail _ (List.mem_append_left _ he)))
      (fun found hfound => hread found (.tail _ (List.mem_append_left _ hfound))) hbody
    cases hok

end Successes

/-! ## Runs as they are meant to be -/

/-- A run is as runs are meant to be: it is called outside transactions, on the database and the
tracking table in question, and each migration is a program, worked off through the client that it is
given, that sends no transaction control of its own. -/
structure Fits [Backend β] {sql : TransactionSql} (reading : sql.Reading) (dialect : Dialect)
    (table : String) (body : Migration β → Program Unit) (m : Migrator β) (c : Client) : Prop where
  scope : c.scope = none
  transactionSql : c.settings.transactionSql = sql
  compiler : c.settings.compiler.dialect = dialect
  quoted : (Compiler.ofDialect dialect).quoteIdentifier m.table = table
  bodies : ∀ one ∈ m.migrations, one.change = (body one).through
  plain : ∀ one ∈ m.migrations, (body one).Sends fun r => reading.control? r.sql = none

/-! ## What a run sends -/

section Words

variable [Backend β] {m : Migrator β} {body : Migration β → Program Unit} {table : String} {tx : Client}
  {scope : Scope} {s s₁ s' : Store β} {one : Migration β}

/-- A migration whose change fails is not recorded. -/
theorem completes_apply_failed {e : Error} (h : Completes (one.change tx).run s (.error e) s') :
    Completes (apply table tx one).run s (.error (one.failure e)) s' := by
  refine Work.completes_bind_error (Completes.bind h ?_)
  exact Completes.pure

/-- A migration whose change succeeds is recorded, and comes to what that comes to. -/
theorem completes_apply {o : Outcome ResultSet} (h : Completes (one.change tx).run s (.ok ()) s₁)
    (hrecord : Completes (tx.run (recording tx.settings.compiler.dialect table one.row)).run s₁ o s') :
    Completes (apply table tx one).run s (o.map fun _ => one.row) s' := by
  have hchange : Completes (tryCatchThe Error (one.change tx) fun e => throw (one.failure e)).run s
      (.ok ()) s₁ :=
    Completes.bind h Completes.pure
  refine Work.completes_bind hchange ?_
  cases o with
  | error e => exact Work.completes_bind_error hrecord
  | ok done => exact Work.completes_bind hrecord Completes.pure

/-- **Migrations send a word of their rule**, by induction on those that are still to be applied. What
was applied before them is handed back in front of them. -/
theorem words_loop (hc : tx.scope = some scope) (hdepth : scope.depth = 0)
    (list : List (Migration β)) (hbody : ∀ one ∈ list, one.change = (body one).through)
    (before : List (Int64 × String)) (h : s.Admits scope) :
    Work.Words (List.mapM.loop (apply table tx) list before) scope.connection s fun word o' =>
      ∃ o, Applies tx.settings.transactionSql tx.settings.compiler.dialect table body list word o ∧
        o' = o.map (before.reverse ++ ·) := by
  induction list generalizing before s with
  | nil => exact ⟨_, s, [], Completes.pure, .refl h.idle h.answers, .ok [], .done, by simp [Except.map]⟩
  | cons one rest ih =>
    rw [List.mapM.loop]
    obtain ⟨changed, s₁, inner, hchange, hs₁, hinner⟩ := (body one).words_through hc h
    rw [← hbody one (.head _)] at hchange
    rw [hdepth] at hinner
    cases changed with
    | error e =>
      exact ⟨_, s₁, inner, Work.completes_bind_error (completes_apply_failed hchange), hs₁, _,
        .failed hinner, rfl⟩
    | ok =>
      obtain ⟨recorded, s₂, hrecord, hs₂⟩ := Client.relays_run
        (recording tx.settings.compiler.dialect table one.row) hc (h.of_relays hs₁)
      have happly := completes_apply hchange hrecord
      cases recorded with
      | error e =>
        exact ⟨_, s₂, _, Work.completes_bind_error happly, hs₁.trans hs₂, _, .unrecorded hinner, rfl⟩
      | ok done =>
        obtain ⟨_, s', word, hrest, hs', o, hword, rfl⟩ := ih
          (fun one hone => hbody one (.tail _ hone)) (one.row :: before)
          ((h.of_relays hs₁).of_relays hs₂)
        refine ⟨_, s', _, Work.completes_bind happly hrest, (hs₁.trans hs₂).trans hs', _,
          by simpa using .applied hinner hword, ?_⟩
        cases o <;> simp [Except.map]

/-- What follows the lock completes a word of the rule. -/
theorem words_read (hc : tx.scope = some scope) (hdepth : scope.depth = 0)
    (hbody : ∀ one ∈ m.migrations, one.change = (body one).through) (h : s.Admits scope) :
    Work.Words (do
        let latest ← Work.ofOutcome (latestOf (← tx.runRaw (selectLatest table) []))
        (m.pending latest).mapM (apply table tx)) scope.connection s fun word o =>
      ∀ before, Locks tx.settings.compiler.dialect table before →
        Undertakes tx.settings.transactionSql tx.settings.compiler.dialect table m body
          (before ++ word) o := by
  obtain ⟨asked, s₁, hask, hs₁⟩ := Client.relays_run (asking table) hc h
  cases asked with
  | error e =>
    exact ⟨_, s₁, _, Work.completes_bind_error hask, hs₁, fun _ hlocks => .unread hlocks⟩
  | ok found =>
    cases hlatest : latestOf found with
    | error e =>
      refine ⟨.error e, s₁, _, Work.completes_bind hask (Work.completes_bind_error ?_), hs₁,
        fun _ hlocks => .malformed hlocks hlatest⟩
      rw [hlatest]
      exact Completes.pure
    | ok latest =>
      obtain ⟨_, s', word, hrun, hs', o, hword, rfl⟩ := words_loop hc hdepth (m.pending latest)
        (fun one hone => hbody one (mem_pending.1 hone).1) []
        (h.of_relays hs₁)
      refine ⟨_, s', _, Work.completes_bind hask (Work.completes_bind (a := latest) ?_ hrun),
        hs₁.trans hs', fun _ hlocks => .read hlocks hlatest ?_⟩
      · rw [hlatest]
        exact Completes.pure
      · cases o <;> exact hword

/-- **The transaction of a run sends a word of its rule.** -/
theorem words_applyPending (hc : tx.scope = some scope) (hdepth : scope.depth = 0)
    (hbody : ∀ one ∈ m.migrations, one.change = (body one).through) (h : s.Admits scope) :
    Work.Words (m.applyPending table tx) scope.connection s
      (Undertakes tx.settings.transactionSql tx.settings.compiler.dialect table m body) := by
  rw [applyPending]
  cases hlock : lockTable? tx.settings.compiler.dialect table with
  | none =>
    obtain ⟨o, s', word, hrun, hs', hword⟩ := words_read hc hdepth hbody h
    exact ⟨o, s', word, hrun, hs', hword [] (.none hlock)⟩
  | some text =>
    obtain ⟨locked, s₁, hlocked, hs₁⟩ := Client.relays_run (.script text) hc h
    cases locked with
    | error e =>
      exact ⟨_, s₁, _, Work.completes_bind_error (Work.completes_bind_error hlocked), hs₁,
        .unlocked hlock⟩
    | ok =>
      obtain ⟨o, s', word, hrun, hs', hword⟩ := words_read hc hdepth hbody (h.of_relays hs₁)
      exact ⟨o, s', _, Work.completes_bind (Work.completes_bind hlocked Completes.pure) hrun,
        hs₁.trans hs', hword _ (.locked hlock)⟩

end Words

end Migrator

end SqlClient
