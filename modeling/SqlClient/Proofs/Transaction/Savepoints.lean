import SqlClient.Proofs.Client.Exchange
import SqlClient.Transaction.Sql
import Std.Data.String.ToNat
/-!
# Transactions — what a database makes of a record

A `Ledger` is a database as far as transactions go: the requests that are committed, those that are
pending, and a stack of savepoints. It reads its control statements out of the texts it is sent
(`Reading`) and replays a record of exchanges. A `Course` is what a run of nested scopes was: what it
sent, and how each scope ended.

Scopes name their savepoints after their depth and never release them, so replaying a course leaves
stale savepoints behind. `replay_emitted` is the invariant that keeps them harmless: they all carry
names of deeper scopes, so a scope that rolls back still finds its own savepoint first.
-/

namespace SqlClient

/-! ## Control statements -/

/-- What a database can be told about its transaction. -/
inductive Control
  | begin
  | commit
  | rollback
  | savepoint (name : String)
  | rollbackTo (name : String)
deriving DecidableEq

namespace TransactionSql

/-- How a database reads texts: those of a set of transaction statements as the control they are
meant to be. What it makes of other texts is left open. -/
structure Reading (sql : TransactionSql) where
  control? : String → Option Control
  begin : control? sql.begin = some .begin
  commit : control? sql.commit = some .commit
  rollback : control? sql.rollback = some .rollback
  openSavepoint : ∀ depth, control? (sql.openSavepoint depth) = some (.savepoint (savepointName depth))
  undoSavepoint : ∀ depth, control? (sql.undoSavepoint depth) = some (.rollbackTo (savepointName depth))

/-- Savepoints of different depths have different names. -/
theorem savepointName_injective {m n : Nat} (h : savepointName m = savepointName n) : m = n := by
  simp only [savepointName, String.append_right_inj] at h
  exact Nat.repr_injective h

/-- The name that follows a leading text and a blank. -/
def nameAfter? (lead text : String) : Option String :=
  if (lead.toList ++ [' ']).isPrefixOf text.toList then
    some (String.ofList (text.toList.drop (lead.toList.length + 1)))
  else none

/-- The control that a text is, word for word. -/
def control? (sql : TransactionSql) (text : String) : Option Control :=
  if text = sql.begin then some .begin
  else if text = sql.commit then some .commit
  else if text = sql.rollback then some .rollback
  else
    match nameAfter? sql.savepoint text with
    | some name => some (.savepoint name)
    | none => (nameAfter? sql.rollbackTo text).map .rollbackTo

theorem nameAfter?_append (lead name : String) :
    nameAfter? lead (lead ++ " " ++ name) = some name := by
  simp [nameAfter?]

/-- A text that names a savepoint is none of the texts that name nothing, unless its lead begins
one of those. -/
theorem control?_append (sql : TransactionSql) (lead name : String)
    (hbegin : ¬ lead.toList ++ [' '] <+: sql.begin.toList)
    (hcommit : ¬ lead.toList ++ [' '] <+: sql.commit.toList)
    (hrollback : ¬ lead.toList ++ [' '] <+: sql.rollback.toList) :
    sql.control? (lead ++ " " ++ name) =
      match nameAfter? sql.savepoint (lead ++ " " ++ name) with
      | some name => some (.savepoint name)
      | none => (nameAfter? sql.rollbackTo (lead ++ " " ++ name)).map .rollbackTo := by
  have hne : ∀ text : String, ¬ lead.toList ++ [' '] <+: text.toList → lead ++ " " ++ name ≠ text := by
    rintro text htext rfl
    exact htext ⟨name.toList, by simp⟩
  rw [TransactionSql.control?, if_neg (hne _ hbegin), if_neg (hne _ hcommit), if_neg (hne _ hrollback)]

/-- The statements of every dialect can be told apart. -/
def Reading.ofDialect (d : Dialect) : Reading (ofDialect d) where
  control? := (TransactionSql.ofDialect d).control?
  begin := by cases d <;> rfl
  commit := by cases d <;> decide
  rollback := by cases d <;> decide
  openSavepoint depth := by
    have h := control?_append (TransactionSql.ofDialect d)
      (TransactionSql.ofDialect d).savepoint (savepointName depth)
      (by cases d <;> decide) (by cases d <;> decide) (by cases d <;> decide)
    rwa [nameAfter?_append] at h
  undoSavepoint depth := by
    have h := control?_append (TransactionSql.ofDialect d)
      (TransactionSql.ofDialect d).rollbackTo (savepointName depth)
      (by cases d <;> decide) (by cases d <;> decide) (by cases d <;> decide)
    have hother : nameAfter? (TransactionSql.ofDialect d).savepoint
        ((TransactionSql.ofDialect d).rollbackTo ++ " " ++ savepointName depth) = none := by
      cases d <;> simp [nameAfter?, TransactionSql.ofDialect]
    rwa [hother, nameAfter?_append] at h

end TransactionSql

/-! ## Ledgers -/

/-- An open transaction: what is pending, and the savepoints with what was pending when each was
set, the most recent one first. -/
structure Working where
  pending : List Request
  savepoints : List (String × List Request)
deriving DecidableEq

namespace Working

/-- Sets a savepoint. A name may be used again. -/
def setSavepoint (name : String) (w : Working) : Working :=
  { w with savepoints := (name, w.pending) :: w.savepoints }

/-- Goes back to the most recent savepoint of a name, which stays. -/
def rollBackTo (name : String) (w : Working) : Working :=
  match w.savepoints.dropWhile (·.1 ≠ name) with
  | [] => w
  | found :: older => ⟨found.2, found :: older⟩

end Working

/-- What a database has committed, and its open transaction if there is one. -/
structure Ledger where
  committed : List Request
  working : Option Working
deriving DecidableEq

namespace Ledger

variable {sql : TransactionSql}

/-- Does as a control statement says. Without an open transaction only BEGIN does anything. -/
def control (l : Ledger) : Control → Ledger
  | .begin => { l with working := some (l.working.getD ⟨[], []⟩) }
  | .commit => ⟨l.committed ++ (l.working.getD ⟨[], []⟩).pending, none⟩
  | .rollback => { l with working := none }
  | .savepoint name => { l with working := l.working.map (·.setSavepoint name) }
  | .rollbackTo name => { l with working := l.working.map (·.rollBackTo name) }

/-- A request of a user takes effect: in the open transaction, or at once without one. -/
def perform (l : Ledger) (r : Request) : Ledger :=
  match l.working with
  | some w => { l with working := some { w with pending := w.pending ++ [r] } }
  | none => { l with committed := l.committed ++ [r] }

/-- One exchange. What failed has no effect. -/
def apply (reading : sql.Reading) (l : Ledger) (e : Exchange) : Ledger :=
  if e.succeeded then
    match reading.control? e.request.sql with
    | some c => l.control c
    | none => l.perform e.request
  else l

/-- A record, one exchange after another. -/
def replay (reading : sql.Reading) (l : Ledger) (record : List Exchange) : Ledger :=
  record.foldl (apply reading) l

@[simp] theorem replay_nil (reading : sql.Reading) (l : Ledger) : l.replay reading [] = l := rfl

@[simp] theorem replay_cons (reading : sql.Reading) (l : Ledger) (e : Exchange)
    (record : List Exchange) :
    l.replay reading (e :: record) = (l.apply reading e).replay reading record := rfl

@[simp] theorem replay_append (reading : sql.Reading) (l : Ledger) (record record' : List Exchange) :
    l.replay reading (record ++ record') = (l.replay reading record).replay reading record' :=
  List.foldl_append

/-- What has failed can be left out of a replay. -/
theorem replay_filter (reading : sql.Reading) (l : Ledger) (record : List Exchange) :
    l.replay reading (record.filter (·.succeeded)) = l.replay reading record := by
  induction record generalizing l with
  | nil => rfl
  | cons e record ih =>
    cases he : e.succeeded with
    | true => rw [List.filter_cons_of_pos he, replay_cons, replay_cons, ih]
    | false =>
      have hnone : l.apply reading e = l := by simp [apply, he]
      rw [List.filter_cons_of_neg (by simp [he]), replay_cons, hnone, ih]

/-- A control statement that succeeds. -/
theorem apply_control {reading : sql.Reading} {text : String} {c : Control}
    (h : reading.control? text = some c) (l : Ledger) :
    l.apply reading ⟨.script text, true⟩ = l.control c := by
  simp [apply, h]

/-- A request of a user within a transaction. -/
theorem apply_user {reading : sql.Reading} {r : Request} (h : reading.control? r.sql = none)
    (done : List Request) (w : Working) (succeeded : Bool) :
    apply reading ⟨done, some w⟩ ⟨r, succeeded⟩ =
      ⟨done, some ⟨w.pending ++ if succeeded then [r] else [], w.savepoints⟩⟩ := by
  cases succeeded <;> simp [apply, perform, h]

end Ledger

/-! ## Courses -/

/-- What became of the operation of a scope: the requests it sent, whether each succeeded, and the
scopes it opened, whether each returned a result. -/
inductive Course
  | finished
  | sent (r : Request) (succeeded : Bool) (rest : Course)
  | nested (body : Course) (succeeded : Bool) (rest : Course)

namespace Course

/-- The requests that took effect: those that succeeded and all of whose scopes within the course
returned a result, in the order in which they were sent. -/
def kept : Course → List Request
  | finished => []
  | sent r succeeded rest => (if succeeded then [r] else []) ++ rest.kept
  | nested body succeeded rest => (if succeeded then body.kept else []) ++ rest.kept

/-- All requests of the course, in the order in which they were sent. -/
def exchanges : Course → List Exchange
  | finished => []
  | sent r succeeded rest => ⟨r, succeeded⟩ :: rest.exchanges
  | nested body _ rest => body.exchanges ++ rest.exchanges

/-- What goes over the connection in a scope at a depth, if savepoints can be set and undone. -/
def emitted (sql : TransactionSql) (depth : Nat) : Course → List Exchange
  | finished => []
  | sent r succeeded rest => ⟨r, succeeded⟩ :: rest.emitted sql depth
  | nested body succeeded rest =>
    ⟨.script (sql.openSavepoint (depth + 1)), true⟩ ::
      (body.emitted sql (depth + 1) ++
        (if succeeded then [] else [⟨.script (sql.undoSavepoint (depth + 1)), true⟩]) ++
        rest.emitted sql depth)

variable {sql : TransactionSql}

/-- No request of the course is one that the database takes as control. -/
def Plain (reading : sql.Reading) (t : Course) : Prop :=
  ∀ e ∈ t.exchanges, reading.control? e.request.sql = none

/-- Without its control statements, what a course emits is its requests. -/
theorem filter_emitted {reading : sql.Reading} {t : Course} (h : t.Plain reading) (depth : Nat) :
    (t.emitted sql depth).filter (fun e => (reading.control? e.request.sql).isNone) =
      t.exchanges := by
  induction t generalizing depth with
  | finished => rfl
  | sent r succeeded rest ih =>
    have hr : reading.control? r.sql = none := h ⟨r, succeeded⟩ (.head _)
    have hrest := ih (fun e he => h e (.tail _ he)) depth
    simp [emitted, exchanges, hr, hrest]
  | nested body succeeded rest ihbody ih =>
    have hbody := ihbody (fun e he => h e (List.mem_append_left _ he)) (depth + 1)
    have hrest := ih (fun e he => h e (List.mem_append_right _ he)) depth
    cases succeeded <;>
      simp [emitted, exchanges, reading.openSavepoint, reading.undoSavepoint, hbody,
        hrest]

/-- Going back to a savepoint passes over those of deeper scopes. -/
theorem rollBackTo_stale {stale older : List (String × List Request)} {depth : Nat}
    (hstale : ∀ e ∈ stale, ∃ k, depth < k ∧ e.1 = TransactionSql.savepointName k)
    (pending saved : List Request) :
    Working.rollBackTo (TransactionSql.savepointName depth)
        ⟨pending, stale ++ (TransactionSql.savepointName depth, saved) :: older⟩ =
      ⟨saved, (TransactionSql.savepointName depth, saved) :: older⟩ := by
  have hpass : ∀ e ∈ stale, decide (e.1 ≠ TransactionSql.savepointName depth) = true := by
    intro e he
    obtain ⟨k, hk, hname⟩ := hstale e he
    refine decide_eq_true fun heq => ?_
    have := TransactionSql.savepointName_injective (hname ▸ heq)
    omega
  rw [Working.rollBackTo, List.dropWhile_append_of_pos hpass]
  simp

/-- **Replaying a course keeps what it should.** What is pending grows by the requests that took
effect. The savepoints that were there are still there, under stale ones that belong to deeper
scopes. -/
theorem replay_emitted {reading : sql.Reading} {t : Course} (h : t.Plain reading) (depth : Nat)
    (committed : List Request) (w : Working) :
    ∃ stale, (∀ e ∈ stale, ∃ k, depth < k ∧ e.1 = TransactionSql.savepointName k) ∧
      Ledger.replay reading ⟨committed, some w⟩ (t.emitted sql depth) =
        ⟨committed, some ⟨w.pending ++ t.kept, stale ++ w.savepoints⟩⟩ := by
  induction t generalizing depth w with
  | finished => exact ⟨[], by simp, by simp [emitted, kept]⟩
  | sent r succeeded rest ih =>
    have hr : reading.control? r.sql = none := h ⟨r, succeeded⟩ (.head _)
    obtain ⟨stale, hstale, hrest⟩ := ih (fun e he => h e (.tail _ he)) depth
      ⟨w.pending ++ if succeeded then [r] else [], w.savepoints⟩
    refine ⟨stale, hstale, ?_⟩
    rw [emitted, Ledger.replay_cons, Ledger.apply_user hr, hrest, kept, List.append_assoc]
  | nested body succeeded rest ihbody ih =>
    have hbodyPlain : body.Plain reading := fun e he => h e (List.mem_append_left _ he)
    have hrestPlain : rest.Plain reading := fun e he => h e (List.mem_append_right _ he)
    let name := TransactionSql.savepointName (depth + 1)
    obtain ⟨deeper, hdeeper, hbody⟩ :=
      ihbody hbodyPlain (depth + 1) ⟨w.pending, (name, w.pending) :: w.savepoints⟩
    cases succeeded with
    | true =>
      obtain ⟨stale, hstale, hrest⟩ := ih hrestPlain depth
        ⟨w.pending ++ body.kept, deeper ++ (name, w.pending) :: w.savepoints⟩
      refine ⟨stale ++ (deeper ++ [(name, w.pending)]), ?_, ?_⟩
      · -- the scope's own savepoint has become stale with those of its children
        simp only [List.mem_append, List.mem_singleton]
        rintro e (he | he | rfl)
        · exact hstale e he
        · obtain ⟨k, hk, hname⟩ := hdeeper e he
          exact ⟨k, by omega, hname⟩
        · exact ⟨depth + 1, by omega, rfl⟩
      · rw [emitted, if_pos rfl, List.append_nil, Ledger.replay_cons,
          Ledger.apply_control (reading.openSavepoint _), Ledger.replay_append]
        simp only [Ledger.control, Option.map_some, Working.setSavepoint]
        rw [hbody, hrest]
        simp [kept]
    | false =>
      obtain ⟨stale, hstale, hrest⟩ := ih hrestPlain depth
        ⟨w.pending, (name, w.pending) :: w.savepoints⟩
      refine ⟨stale ++ [(name, w.pending)], ?_, ?_⟩
      · simp only [List.mem_append, List.mem_singleton]
        rintro e (he | rfl)
        · exact hstale e he
        · exact ⟨depth + 1, by omega, rfl⟩
      · rw [emitted, if_neg Bool.false_ne_true, Ledger.replay_cons,
          Ledger.apply_control (reading.openSavepoint _), Ledger.replay_append,
          Ledger.replay_append]
        simp only [Ledger.control, Option.map_some, Working.setSavepoint]
        rw [hbody, Ledger.replay_cons, Ledger.apply_control (reading.undoSavepoint _)]
        simp only [Ledger.control, Option.map_some, Ledger.replay_nil]
        -- the savepoint that is found is the one this scope has set
        rw [rollBackTo_stale hdeeper, hrest]
        simp [kept]

/-- The record of a whole root transaction. -/
def emittedRoot (sql : TransactionSql) (succeeded : Bool) (t : Course) : List Exchange :=
  ⟨.script sql.begin, true⟩ ::
    (t.emitted sql 0 ++ [⟨.script (if succeeded then sql.commit else sql.rollback), true⟩])

/-- Without its control statements, the record of a root transaction is the requests of its course. -/
theorem filter_emittedRoot {reading : sql.Reading} {t : Course} (h : t.Plain reading)
    (succeeded : Bool) :
    (t.emittedRoot sql succeeded).filter (fun e => (reading.control? e.request.sql).isNone) =
      t.exchanges := by
  cases succeeded <;>
    simp [emittedRoot, reading.begin, reading.commit, reading.rollback, filter_emitted h]

/-- **Replaying a root transaction commits what took effect** if it succeeded, nothing otherwise,
and leaves no transaction open. -/
theorem replay_emittedRoot {reading : sql.Reading} {t : Course} (h : t.Plain reading)
    (succeeded : Bool) (committed : List Request) :
    Ledger.replay reading ⟨committed, none⟩ (t.emittedRoot sql succeeded) =
      ⟨committed ++ if succeeded then t.kept else [], none⟩ := by
  obtain ⟨stale, -, hreplay⟩ := replay_emitted h 0 committed ⟨[], []⟩
  rw [emittedRoot, Ledger.replay_cons, Ledger.apply_control reading.begin, Ledger.replay_append]
  simp only [Ledger.control, Option.getD_none]
  rw [hreplay]
  cases succeeded with
  | true =>
    simp [Ledger.apply_control reading.commit, Ledger.control]
  | false =>
    simp [Ledger.apply_control reading.rollback, Ledger.control]

end Course

end SqlClient
