import SqlClient.Proofs.Migration.Scripts
import SqlClient.Proofs.Migration.Series
/-!
# Migrations — the first run

A run on a database that has recorded nothing. Zero stands for the latest id of an empty tracking table,
and a run applies what is newer, so of the migrations of a list the first run applies those whose id is
positive. One with another id is passed over without an error: `zero_passed_over` is a directory that
begins with a script numbered zero.

Whether anything has failed in a run is told by a database with a tally of the connections that it has
refused and the requests that it has failed.
-/

namespace SqlClient

open Coroutine

variable {sql : TransactionSql} {reading : sql.Reading} {dialect : Dialect} {table : String}
  {books : Bookkeeping reading dialect table} {β : Type} [Backend β] {view : β → Vault}

/-! ## Databases with a tally of failures -/

/-- A database and how often it has refused a connection or failed a request. -/
structure Tallied (β : Type) where
  database : β
  failures : Nat

/-- A request was failed. -/
def Response.isFailure : Response → Bool
  | .answer o => !o.isOk
  | .never => false

instance : Backend (Tallied β) where
  connect n w :=
    let (refusal, database) := Backend.connect n w.database
    (refusal, ⟨database, w.failures + refusal.isSome.toNat⟩)
  delay r w := Backend.delay r w.database
  respond n r w :=
    let (response, database) := Backend.respond n r w.database
    (response, ⟨database, w.failures + response.isFailure.toNat⟩)

/-- A database tells an id when it is asked for the latest one. -/
def Backend.Tells (β : Type) [Backend β] (table : String) : Prop :=
  ∀ (n : Nat) (b b' : β) (found : ResultSet),
    Backend.respond n (Migrator.asking table) b = (.answer (.ok found), b') →
      (Migrator.latestOf found).isOk = true

namespace Tallied

variable {n : Nat} {w w' : Tallied β} {word : List Reply}

/-- A database with a tally as its sessions see it. -/
def vault (view : β → Vault) (w : Tallied β) : Vault := view w.database

theorem respond_eq {r : Request} {response : Response}
    (h : Backend.respond n r w = (response, w')) :
    Backend.respond n r w.database = (response, w'.database) ∧
      w'.failures = w.failures + response.isFailure.toNat := by
  obtain ⟨rfl, rfl⟩ := Prod.mk.inj h
  exact ⟨rfl, rfl⟩

/-- A tally does not change the transactions of a database. -/
theorem atomic (h : Backend.Atomic books view) : Backend.Atomic books (Tallied.vault view) where
  connect n w := h.connect n w.database
  respond hresponse := h.respond (respond_eq hresponse).1
  never hresponse := h.never (respond_eq hresponse).1

theorem answers (h : ∀ b : β, Backend.Answers b) (w : Tallied β) : Backend.Answers w := by
  intro sent n r
  exact (h (Backend.after w sent).database).now n r

/-- **Every failure is counted.** -/
theorem failures_of_replies (h : Backend.Replies n w word w') :
    w'.failures = w.failures + word.countP fun e => !e.outcome.isOk := by
  induction h with
  | none => rfl
  | @more w w₁ w' r o word hresponse _ ih =>
    obtain ⟨-, hcount⟩ := respond_eq hresponse
    rw [ih, hcount, List.countP_cons, Response.isFailure]
    cases o.isOk with
    | true => simp
    | false =>
      simp only [Bool.not_false, Bool.toNat_true, if_true]
      omega

/-- A word that leaves the tally as it is has no failure in it, and tells the latest id. -/
theorem ok_of_replies (h : Backend.Replies n w word w') (htells : Backend.Tells β table)
    (hfailures : w'.failures = w.failures) :
    (∀ e ∈ word, e.outcome.isOk = true) ∧
      ∀ found, ⟨Migrator.asking table, .ok found⟩ ∈ word → (Migrator.latestOf found).isOk = true := by
  have hnone : word.countP (fun e => !e.outcome.isOk) = 0 := by
    have hcount := failures_of_replies h
    omega
  refine ⟨fun e he => by simpa using List.countP_eq_zero.1 hnone e he, ?_⟩
  clear hnone hfailures
  induction h with
  | none => exact fun found => List.not_mem_nil.elim
  | more hresponse _ ih =>
    rintro found (_ | ⟨_, hfound⟩)
    · exact htells _ _ _ _ (respond_eq hresponse).1
    · exact ih found hfound

end Tallied

namespace Store

variable {α : Type} {acquirer : Acquirer} {P : List Reply → Outcome α → Prop} {o : Outcome α}

/-- Getting no connection is what the database has refused. -/
theorem isSome_connect (s : Store β) (acquirer : Acquirer) :
    (Backend.connect (s.attempts + 1) s.backend).1.isSome = !(s.acquire acquirer).1.isOk := by
  rw [acquire]
  rcases Backend.connect (s.attempts + 1) s.backend with ⟨_ | _, _⟩ <;> rfl

theorem failures_acquire (s : Store (Tallied β)) (acquirer : Acquirer) :
    (s.acquire acquirer).2.backend.failures =
      s.backend.failures + (!(s.acquire acquirer).1.isOk).toNat := by
  rw [backend_acquire, ← isSome_connect]
  rfl

/-- **Work on a connection of its own**: the tally never goes down, and where it stays, a connection was
given, and nothing that was sent over it has failed. -/
theorem Leased.tallied {s s' : Store (Tallied β)} (h : s.Leased acquirer P o s')
    (htells : Backend.Tells β table) :
    s.backend.failures ≤ s'.backend.failures ∧
      (s'.backend.failures = s.backend.failures → ∃ word, P word o ∧
        (∀ e ∈ word, e.outcome.isOk = true) ∧ ∀ found,
          ⟨Migrator.asking table, .ok found⟩ ∈ word → (Migrator.latestOf found).isOk = true) := by
  have hacquire := failures_acquire s acquirer
  cases h with
  | refused hrefused =>
    rw [hrefused] at hacquire
    have hmore : (s.acquire acquirer).2.backend.failures = s.backend.failures + 1 := hacquire
    exact ⟨by omega, fun hsame => by omega⟩
  | @given n word o s₁ hgiven hrelays hP =>
    rw [hgiven] at hacquire
    have hsame : (s.acquire acquirer).2.backend.failures = s.backend.failures := hacquire
    have hcount := Tallied.failures_of_replies hrelays.replies
    rw [backend_letGo]
    refine ⟨by omega, fun hfailures => ⟨word, hP, ?_⟩⟩
    exact Tallied.ok_of_replies hrelays.replies htells (hfailures.trans hsame.symm)

/-- What no connection and no answer changes, work on a connection of its own leaves as it is. -/
theorem Leased.keeps {γ : Type} (q : β → γ) (hconnect : ∀ n b, q (Backend.connect n b).2 = q b)
    (hrespond : ∀ n r b, q (Backend.respond n r b).2 = q b) {s s' : Store β}
    (h : s.Leased acquirer P o s') : q s'.backend = q s.backend := by
  have hreplies {n : Nat} {b b' : β} {word : List Reply} (h : Backend.Replies n b word b') :
      q b' = q b := by
    induction h with
    | none => rfl
    | @more b _ _ r _ _ hresponse _ ih =>
      rw [ih, ← hrespond n r b, hresponse]
  cases h with
  | refused => rw [backend_acquire, hconnect]
  | given _ hrelays => rw [backend_letGo, hreplies hrelays.replies, backend_acquire, hconnect]

end Store

/-! ## Runs without failures -/

namespace Migrator

variable {acquirer : Acquirer} {body : Migration (Tallied β) → Program Unit} {m : Migrator (Tallied β)}
  {c : Client} {s s' : Store (Tallied β)} {o : Outcome (List (Int64 × String))}

/-- **A run in which nothing fails returns a result**, if no id is repeated and the bodies come to a
result when all their statements do. -/
theorem Goes.isOk (h : Goes sql dialect table acquirer body m s o s') (htells : Backend.Tells β table)
    (hids : (m.migrations.map (·.id)).Nodup)
    (hbody : ∀ one ∈ m.migrations, (body one).Dependable sql)
    (hfailures : s'.backend.failures = s.backend.failures) : o.isOk = true := by
  cases h with
  | refused hrefused =>
    rw [checkIds_ok hids] at hrefused
    cases hrefused
  | uncreated _ hcreate =>
    obtain ⟨_, rfl, hword, -⟩ := (hcreate.tallied htells).2 hfailures
    cases hword _ (.head _)
  | transacted _ hcreate htransact =>
    obtain ⟨hcreated, -⟩ := hcreate.tallied htells
    obtain ⟨hmore, htransacted⟩ := htransact.tallied htells
    obtain ⟨word, hencloses, hword, hread⟩ := htransacted (by omega)
    exact (Undertakes.committed hencloses hword hread hbody).1

/-- What a run has accomplished that found nothing recorded: it took zero for the latest id. -/
theorem Goes.from_nothing (h : Goes sql dialect table acquirer body m s o s')
    (hatomic : Backend.Atomic books view) (htells : Backend.Tells β table)
    (hplain : ∀ one ∈ m.migrations, (body one).Sends fun r => reading.control? r.sql = none)
    (hids : (m.migrations.map (·.id)).Nodup)
    (hbody : ∀ one ∈ m.migrations, (body one).Dependable sql)
    (hnone : books.rows (view s.backend.database).committed = [])
    (hfailures : s'.backend.failures = s.backend.failures) :
    ∃ applied inner, o = .ok (applied.map Migration.row) ∧
      Accomplishes books (Tallied.vault view) body m s (applied.map Migration.row) s' 0 applied inner := by
  have hok := h.isOk htells hids hbody hfailures
  cases o with
  | error => cases hok
  | ok list =>
    obtain ⟨-, latest, applied, inner, hdone⟩ :=
      (h.fulfils (Tallied.atomic hatomic) hplain).returned list rfl
    obtain rfl : latest = 0 := by
      rcases hdone.greatest with ⟨-, hzero⟩ | ⟨hmem, -⟩
      · exact hzero
      · rw [Bookkeeping.ids, Tallied.vault, hnone] at hmem
        cases hmem
    obtain rfl := hdone.handed
    exact ⟨applied, inner, rfl, hdone⟩

/-! ### Scripts on an ideal database -/

/-- Scripts that are no transaction control are as migrations are meant to be. -/
theorem ofScripts_fits {d : Dialect} {scripts : List MigrationScript}
    (h : ∀ script ∈ scripts, (TransactionSql.Reading.ofDialect d).control? script.sql = none) :
    (ofScripts scripts : Migrator β).Fits (.ofDialect d) d (tableOf d) scriptOf (clientOf d) where
  scope := rfl
  transactionSql := rfl
  compiler := by cases d <;> rfl
  quoted := rfl
  bodies := List.forall_mem_map.2 fun script _ => Migration.change_script rfl
  plain := List.forall_mem_map.2 fun script hscript => ⟨h script hscript, fun _ => trivial⟩

/-- An ideal SQLite database with a tally of its failures. -/
abbrev Ideal : Type := Tallied (IdealDatabase (booksOf .sqlite))

theorem tells_ideal : Backend.Tells (IdealDatabase (booksOf .sqlite)) (tableOf .sqlite) := by
  intro n b b' found hresponse
  have hfound : b.outcome n (asking (tableOf .sqlite)) = .ok found :=
    Response.answer.inj (congrArg Prod.fst hresponse)
  rw [IdealDatabase.outcome, if_neg (by simp [lockTable?])] at hfound
  rw [← Except.ok.inj hfound, IdealDatabase.latestOf_rowsFor]
  rfl

/-- As nothing is locked in SQLite, an ideal one fails nothing. -/
theorem failures_ideal {m : Migrator Ideal} {c : Client} {s s' : Store Ideal}
    {o : Outcome (List (Int64 × String))} {body : Migration Ideal → Program Unit}
    (hfits : m.Fits (.ofDialect .sqlite) .sqlite (tableOf .sqlite) body c)
    (hrun : FinishesAlone (m.run c).run s o s') : s'.backend.failures = s.backend.failures := by
  have hconnect (n : Nat) (w : Ideal) : (Backend.connect n w).2.failures = w.failures := rfl
  have hrespond (n : Nat) (r : Request) (w : Ideal) :
      (Backend.respond n r w).2.failures = w.failures := by
    change w.failures + (!(w.database.outcome n r).isOk).toNat = w.failures
    rw [IdealDatabase.outcome, if_neg (by simp [lockTable?])]
    rfl
  obtain ⟨o', s'', hrun', hgoes⟩ := goes_run hfits (Tallied.answers IdealDatabase.answers) s
  obtain ⟨rfl, rfl⟩ := (finishesAlone_of_completes hrun').unique hrun
  cases hgoes with
  | refused => rfl
  | uncreated _ hcreate => exact hcreate.keeps Tallied.failures hconnect hrespond
  | transacted _ hcreate htransact =>
    rw [htransact.keeps Tallied.failures hconnect hrespond,
      hcreate.keeps Tallied.failures hconnect hrespond]

/-! ### From nothing -/

/-- **A first run applies what has a positive id.** On a database with atomic transactions that has
recorded nothing, a run of a list in which no id is repeated comes to something. If no connection was
refused in it and no statement has failed, it has applied and recorded exactly the migrations with a
positive id, in strictly ascending order: all of the list if all ids of it are positive, and only
then. The others are passed over, and nothing tells of it. -/
theorem first_run (books : Bookkeeping reading dialect table) (view : β → Vault)
    (hatomic : Backend.Atomic books view) (hanswers : ∀ b : β, Backend.Answers b)
    (htells : Backend.Tells β table) (body : Migration (Tallied β) → Program Unit)
    (m : Migrator (Tallied β)) (c : Client) (hfits : m.Fits reading dialect table body c)
    (hids : (m.migrations.map (·.id)).Nodup)
    (hbody : ∀ one ∈ m.migrations, (body one).Dependable sql)
    (s : Store (Tallied β)) (hnone : books.rows (view s.backend.database).committed = []) :
    ∃ o s', FinishesAlone (m.run c).run s o s' ∧
      (s'.backend.failures = s.backend.failures → ∃ applied inner,
        o = .ok (applied.map Migration.row) ∧
        Accomplishes books (Tallied.vault view) body m s (applied.map Migration.row) s' 0 applied inner ∧
        (applied.Perm m.migrations ↔ ∀ one ∈ m.migrations, 0 < one.id)) := by
  obtain ⟨o, s', hrun, hgoes⟩ := goes_run hfits (Tallied.answers hanswers) s
  refine ⟨o, s', finishesAlone_of_completes hrun, fun hfailures => ?_⟩
  obtain ⟨applied, inner, ho, hdone⟩ :=
    hgoes.from_nothing hatomic htells hfits.plain hids hbody hnone hfailures
  exact ⟨applied, inner, ho, hdone, hdone.perm_iff hids⟩

/-- A list whose ids are positive is applied as a whole. -/
theorem first_run_twoScripts :
    Backend.Atomic (booksOf .sqlite) (IdealDatabase.view : IdealDatabase (booksOf .sqlite) → Vault) ∧
    (∀ b : IdealDatabase (booksOf .sqlite), Backend.Answers b) ∧
    Backend.Tells (IdealDatabase (booksOf .sqlite)) (tableOf .sqlite) ∧
    ((twoScripts : Migrator Ideal).migrations.map (·.id)).Nodup ∧
    (booksOf .sqlite).rows [] = [] ∧
    ∃ s' : Store Ideal, FinishesAlone ((twoScripts : Migrator Ideal).run (clientOf .sqlite)).run
        (Store.start ⟨⟨[], []⟩, 0⟩ .default) (.ok [(1, "people"), (2, "pets")]) s' ∧
      s'.backend.failures = 0 ∧
      (booksOf .sqlite).rows s'.backend.database.committed = [(1, "people"), (2, "pets")] := by
  have hatomic := IdealDatabase.atomic (booksOf .sqlite)
  have hids : ((twoScripts : Migrator Ideal).migrations.map (·.id)).Nodup := by
    change ([2, 1] : List Int64).Nodup
    decide
  have hpositive : (0 : Int64) < 1 ∧ (0 : Int64) < 2 := by decide
  refine ⟨hatomic, IdealDatabase.answers, tells_ideal, hids, rfl, ?_⟩
  obtain ⟨o, s', hrun, hfirst⟩ := first_run (booksOf .sqlite) IdealDatabase.view hatomic
    IdealDatabase.answers tells_ideal scriptOf twoScripts (clientOf .sqlite) twoScripts_fits hids
    (fun one _ => dependable_scriptOf one) (Store.start ⟨⟨[], []⟩, 0⟩ .default) rfl
  have hfailures := failures_ideal twoScripts_fits hrun
  obtain ⟨applied, inner, rfl, hdone, hall⟩ := hfirst hfailures
  -- what was applied is in order, so its members say which list it is
  have happlied : applied = [people, pets] := by
    have hsame : applied.Perm [people, pets] := (hall.2 (by
      rintro one (_ | ⟨_, _ | ⟨_, ⟨⟩⟩⟩)
      · exact hpositive.2
      · exact hpositive.1)).trans (.swap _ _ _)
    refine hdone.applied_eq (fun one => ?_) (by simp [people, pets])
    rw [← hdone.newer, hsame.mem_iff]
  subst happlied
  exact ⟨s', hrun, hfailures, hdone.recorded twoScripts_spares⟩

/-- Two scripts, the first of which is numbered zero. -/
def beginnings : List MigrationScript :=
  [⟨0, "init", "CREATE TABLE init"⟩, ⟨1, "people", "CREATE TABLE people"⟩]

/-- The directory of these scripts. -/
def beginningsDirectory : List DirectoryEntry :=
  [⟨encodeText "0000_init.sql", .file (encodeText "CREATE TABLE init")⟩,
    ⟨encodeText "0001_people.sql", .file (encodeText "CREATE TABLE people")⟩]

/-- **A script numbered zero is not applied**, though nothing is recorded and nothing fails. -/
theorem zero_passed_over :
    MigrationScript.ofDirectory (some beginningsDirectory) = .ok beginnings ∧
    (ofScripts beginnings : Migrator Ideal).migrations.map (·.id) = [0, 1] ∧
    (booksOf .sqlite).rows [] = [] ∧
    ∃ s' : Store Ideal, FinishesAlone ((ofScripts beginnings : Migrator Ideal).run (clientOf .sqlite)).run
        (Store.start ⟨⟨[], []⟩, 0⟩ .default) (.ok [(1, "people")]) s' ∧
      s'.backend.failures = 0 ∧
      (booksOf .sqlite).rows s'.backend.database.committed = [(1, "people")] := by
  have hread : beginningsDirectory.mapM MigrationScript.ofEntry = .ok (beginnings.map some) := rfl
  have hfits : (ofScripts beginnings : Migrator Ideal).Fits (.ofDialect .sqlite) .sqlite
      (tableOf .sqlite) scriptOf (clientOf .sqlite) := ofScripts_fits (by decide)
  refine ⟨MigrationScript.ofDirectory_of_sorted hread (by simp [beginnings]), rfl, rfl, ?_⟩
  obtain ⟨o, s', hcompletes, hgoes⟩ := goes_run hfits (Tallied.answers IdealDatabase.answers)
    (Store.start ⟨⟨[], []⟩, 0⟩ .default)
  have hrun := finishesAlone_of_completes hcompletes
  have hfailures := failures_ideal hfits hrun
  obtain ⟨applied, inner, rfl, hdone⟩ := hgoes.from_nothing (IdealDatabase.atomic (booksOf .sqlite))
    tells_ideal hfits.plain (by decide) (fun one _ => dependable_scriptOf one) rfl hfailures
  have happlied : applied = [MigrationScript.toMigration ⟨1, "people", "CREATE TABLE people"⟩] := by
    -- nothing is recorded, so what is newer than zero is applied: the second script only
    have hpositive : ¬ (0 : Int64) < 0 ∧ (0 : Int64) < 1 := by decide
    refine hdone.applied_eq (fun one => ?_) (List.pairwise_singleton _ _)
    constructor
    · rintro (_ | ⟨_, ⟨⟩⟩)
      exact ⟨.tail _ (.head _), hpositive.2⟩
    · rintro ⟨_ | ⟨_, _ | ⟨_, ⟨⟩⟩⟩, hnewer⟩
      · exact absurd hnewer hpositive.1
      · exact .head _
  subst happlied
  exact ⟨s', hrun, hfailures, hdone.recorded fun one _ => scriptOf_spares one⟩

end Migrator

end SqlClient
