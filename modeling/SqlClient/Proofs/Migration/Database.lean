import SqlClient.Proofs.Migration.Plan
import SqlClient.Proofs.Transaction.Standing
/-!
# Migrations — the database

What migrations rely on in a database with atomic transactions. A `Vault` is such a database as its
sessions see it: the replies whose effects are committed, and for each connection whether a
transaction is open there, and with what in it. `Vault.Answers` says how a vault may take a reply. It
leaves open which statements fail, when a session is lost, and whether a failure aborts the
transaction or only the statement. A reply that failed may have had a part of its effects, so it is
kept like any other; only what is rolled back, and what was never committed, leaves nothing.

`Bookkeeping` is what such a database makes of the statements of a migrator: which rows the tracking
table has after a list of replies. What other statements do to that table is left open.
-/

namespace SqlClient

variable {sql : TransactionSql}

/-! ## Drafts -/

/-- An open transaction: the replies whose effects are in it, and the savepoints with what was in it
when each was set, the most recent one first. -/
structure Draft where
  replies : List Reply
  savepoints : List (String × List Reply)

namespace Draft

/-- A transaction that has just begun. -/
def empty : Draft := ⟨[], []⟩

/-- Goes back to the most recent savepoint of a name, which stays. -/
def rollBackTo (name : String) (d : Draft) : Draft :=
  match d.savepoints.dropWhile (·.1 ≠ name) with
  | [] => d
  | found :: older => ⟨found.2, found :: older⟩

/-- What a control statement that has succeeded does to an open transaction. -/
def control (d : Draft) : Control → Draft
  | .savepoint name => { d with savepoints := (name, d.replies) :: d.savepoints }
  | .rollbackTo name => d.rollBackTo name
  | .begin | .commit | .rollback => d

/-- A reply within an open transaction. -/
def take (reading : sql.Reading) (d : Draft) (e : Reply) : Draft :=
  match reading.control? e.request.sql with
  | none => { d with replies := d.replies ++ [e] }
  | some c => if e.outcome.isOk then d.control c else d

/-- A word within an open transaction, one reply after another. -/
def after (reading : sql.Reading) (d : Draft) (word : List Reply) : Draft :=
  word.foldl (take reading) d

variable {reading : sql.Reading} {d : Draft} {e : Reply} {word word' : List Reply}

@[simp] theorem after_nil : d.after reading [] = d := rfl

@[simp] theorem after_cons : d.after reading (e :: word) = (d.take reading e).after reading word := rfl

@[simp] theorem after_append :
    d.after reading (word ++ word') = (d.after reading word).after reading word' :=
  List.foldl_append

theorem take_plain (h : reading.control? e.request.sql = none) :
    d.take reading e = { d with replies := d.replies ++ [e] } := by
  simp [take, h]

theorem take_control {c : Control} (h : reading.control? e.request.sql = some c)
    (hok : e.outcome.isOk = true) : d.take reading e = d.control c := by
  simp [take, h, hok]

theorem take_failed {c : Control} (h : reading.control? e.request.sql = some c)
    (hok : e.outcome.isOk = false) : d.take reading e = d := by
  simp [take, h, hok]

/-- Savepoints of other names are passed over. -/
theorem rollBackTo_stale {name : String} {kept replies : List Reply}
    {stale older : List (String × List Reply)} (hstale : ∀ p ∈ stale, p.1 ≠ name) :
    rollBackTo name ⟨replies, stale ++ (name, kept) :: older⟩ = ⟨kept, (name, kept) :: older⟩ := by
  have hdrop : (stale ++ (name, kept) :: older).dropWhile (·.1 ≠ name) = (name, kept) :: older := by
    rw [List.dropWhile_append_of_pos (by simpa using hstale)]
    simp
  simp only [rollBackTo, hdrop]

end Draft

/-! ## Sessions -/

namespace Control

/-- Whether the control concerns a savepoint, so that the transaction stays open. -/
def isInner : Control → Bool
  | .savepoint _ | .rollbackTo _ => true
  | .begin | .commit | .rollback => false

end Control

namespace Reply

/-- The reply is to a statement that is no transaction control. -/
def Plain (reading : sql.Reading) (e : Reply) : Prop :=
  reading.control? e.request.sql = none

/-- The reply is to a statement that leaves an open transaction open. -/
def Inner (reading : sql.Reading) (e : Reply) : Prop :=
  ∀ c, reading.control? e.request.sql = some c → c.isInner = true

variable {reading : sql.Reading} {e : Reply}

theorem Plain.inner (h : e.Plain reading) : e.Inner reading := by
  intro c hc
  rw [Plain, hc] at h
  cases h

theorem inner_of_control {c : Control} (hc : reading.control? e.request.sql = some c)
    (hinner : c.isInner = true) : e.Inner reading := by
  intro c' hc'
  obtain rfl := Option.some.inj (hc.symm.trans hc')
  exact hinner

end Reply

namespace Vault

/-- How a connection stands with the database. -/
inductive Session
  | idle
  /-- A transaction is open. An aborted one takes nothing until it is rolled back. -/
  | inside (draft : Draft) (aborted : Bool)
  /-- The connection is gone, and an open transaction with it. -/
  | lost

namespace Session

/-- What is in the open transaction of a session. -/
def replies : Session → List Reply
  | inside d _ => d.replies
  | idle | lost => []

/-- `Answers reading e σ σ' done`: a session that stands at `σ` may give the reply `e`; then it stands
at `σ'` and has committed `done`. -/
inductive Answers (reading : sql.Reading) (e : Reply) : Session → Session → List Reply → Prop
  /-- Whatever is sent over a lost connection fails. -/
  | gone : e.outcome.isOk = false → Answers reading e .lost .lost []
  /-- Outside transactions, a statement stands by itself. -/
  | alone : reading.control? e.request.sql = none → Answers reading e .idle .idle [e]
  | begun : reading.control? e.request.sql = some .begin → e.outcome.isOk = true →
      Answers reading e .idle (.inside .empty false) []
  /-- Outside transactions there is nothing to close or to go back to, and control that fails does
  nothing. -/
  | unmoved {c : Control} : reading.control? e.request.sql = some c →
      (e.outcome.isOk = true → c ≠ .begin ∧ ∀ name, c ≠ .savepoint name) →
      Answers reading e .idle .idle []
  /-- A transaction takes statements and savepoints unless it is aborted. -/
  | taken {d : Draft} : e.Inner reading → e.outcome.isOk = true →
      Answers reading e (.inside d false) (.inside (d.take reading e) false) []
  /-- Going back to a savepoint also revives an aborted transaction. -/
  | revived {d : Draft} {aborted : Bool} {name : String} :
      reading.control? e.request.sql = some (.rollbackTo name) → e.outcome.isOk = true →
      Answers reading e (.inside d aborted) (.inside (d.take reading e) false) []
  /-- A failure may abort the transaction. -/
  | failed {d : Draft} {aborted aborted' : Bool} : e.outcome.isOk = false →
      Answers reading e (.inside d aborted) (.inside (d.take reading e) aborted') []
  /-- A failed COMMIT or ROLLBACK may leave nothing open. -/
  | dropped {d : Draft} {aborted : Bool} {c : Control} :
      reading.control? e.request.sql = some c → c = .commit ∨ c = .rollback →
      e.outcome.isOk = false → Answers reading e (.inside d aborted) .idle []
  | committed {d : Draft} : reading.control? e.request.sql = some .commit →
      e.outcome.isOk = true → Answers reading e (.inside d false) .idle d.replies
  /-- The COMMIT of an aborted transaction may succeed without committing anything. -/
  | discarded {d : Draft} : reading.control? e.request.sql = some .commit →
      e.outcome.isOk = true → Answers reading e (.inside d true) .idle []
  | undone {d : Draft} {aborted : Bool} : reading.control? e.request.sql = some .rollback →
      e.outcome.isOk = true → Answers reading e (.inside d aborted) .idle []
  /-- Nothing is relied on for a BEGIN inside a transaction or a savepoint outside one. -/
  | strayed {σ σ' : Session} {c : Control} {done : List Reply} :
      reading.control? e.request.sql = some c → e.outcome.isOk = true →
      (c = .begin ∧ ∃ d aborted, σ = .inside d aborted) ∨ (c.isInner = true ∧ σ = .idle) →
      Answers reading e σ σ' done

/-- A session stays as it is, or its connection is lost. -/
def Fades (σ σ' : Session) : Prop := σ' = σ ∨ σ' = .lost

variable {reading : sql.Reading} {e : Reply} {σ σ' : Session} {d : Draft} {aborted : Bool}
  {done : List Reply}

/-- A lost session stays lost, and fails. -/
theorem Answers.of_lost (h : Answers reading e .lost σ' done) :
    σ' = .lost ∧ done = [] ∧ e.outcome.isOk = false := by
  cases h with
  | gone hfailed => exact ⟨rfl, rfl, hfailed⟩
  | strayed _ _ hplace => simp at hplace

/-- Within a transaction, whatever leaves it open commits nothing. A statement that succeeds shows
that it is not aborted. -/
theorem Answers.of_inner (h : Answers reading e (.inside d aborted) σ' done) (hin : e.Inner reading) :
    done = [] ∧ ∃ aborted', σ' = .inside (d.take reading e) aborted' ∧
      (e.outcome.isOk = true → aborted' = false) := by
  cases h with
  | taken => exact ⟨rfl, _, rfl, fun _ => rfl⟩
  | revived => exact ⟨rfl, _, rfl, fun _ => rfl⟩
  | failed hfailed => exact ⟨rfl, _, rfl, by simp [hfailed]⟩
  | dropped hc hclosing =>
    have := hin _ hc
    rcases hclosing with rfl | rfl <;> cases this
  | committed hc => cases hin _ hc
  | discarded hc => cases hin _ hc
  | undone hc => cases hin _ hc
  | strayed hc _ hplace =>
    have := hin _ hc
    rcases hplace with ⟨rfl, -⟩ | ⟨-, hidle⟩
    · cases this
    · cases hidle

/-- A statement outside transactions leaves nothing open. -/
theorem Answers.of_plain (h : Answers reading e .idle σ' done) (he : e.Plain reading) :
    σ' = .idle ∧ done = [e] := by
  rw [Reply.Plain] at he
  cases h with
  | alone => exact ⟨rfl, rfl⟩
  | begun hc => simp [he] at hc
  | unmoved hc => simp [he] at hc
  | strayed hc => simp [he] at hc

/-- BEGIN opens an empty transaction, or nothing. -/
theorem Answers.of_begin (h : Answers reading e .idle σ' done)
    (hc : reading.control? e.request.sql = some .begin) :
    done = [] ∧ if e.outcome.isOk then σ' = .inside .empty false else σ' = .idle := by
  cases h with
  | alone hnone => simp [hc] at hnone
  | begun _ hok => exact ⟨rfl, by simp [hok]⟩
  | unmoved hc' hmoved =>
    obtain rfl := Option.some.inj (hc.symm.trans hc')
    cases hok : e.outcome.isOk with
    | true => exact absurd rfl (hmoved hok).1
    | false => exact ⟨rfl, by simp⟩
  | strayed hc' _ hplace =>
    obtain rfl := Option.some.inj (hc.symm.trans hc')
    rcases hplace with ⟨-, _, _, ⟨⟩⟩ | ⟨hinner, -⟩
    cases hinner

/-- COMMIT commits all of a transaction or nothing of it, and nothing if it fails. -/
theorem Answers.of_commit (h : Answers reading e (.inside d aborted) σ' done)
    (hc : reading.control? e.request.sql = some .commit) :
    if e.outcome.isOk then σ' = .idle ∧ done = (if aborted then [] else d.replies)
    else done = [] ∧ (σ' = .idle ∨ ∃ aborted', σ' = .inside d aborted') := by
  have houter : ¬ e.Inner reading := fun hin => by cases hin _ hc
  cases h with
  | taken hin => exact absurd hin houter
  | revived hc' => simp [hc] at hc'
  | failed hfailed => simp [hfailed, Draft.take_failed hc hfailed]
  | dropped _ _ hfailed => simp [hfailed]
  | committed _ hok => simp [hok]
  | discarded _ hok => simp [hok]
  | undone hc' => simp [hc] at hc'
  | strayed hc' _ hplace =>
    obtain rfl := Option.some.inj (hc.symm.trans hc')
    simp [Control.isInner] at hplace

/-- ROLLBACK commits nothing, however it ends. -/
theorem Answers.of_rollback (h : Answers reading e σ σ' done)
    (hc : reading.control? e.request.sql = some .rollback) : done = [] := by
  cases h with
  | alone hnone => simp [hc] at hnone
  | committed hc' => simp [hc] at hc'
  | strayed hc' _ hplace =>
    obtain rfl := Option.some.inj (hc.symm.trans hc')
    simp [Control.isInner] at hplace
  | _ => rfl

end Session

end Vault

/-! ## Vaults -/

/-- A database as its sessions see it: the replies whose effects are committed, in the order in which
they were, and how each connection stands. -/
structure Vault where
  committed : List Reply
  session : Nat → Vault.Session

namespace Migrator

/-- The request that creates the tracking table. -/
def creating (d : Dialect) (table : String) : Request := .script (createTable d table)

/-- The request for the latest recorded id. -/
def asking (table : String) : Request := .statement (selectLatest table) []

/-- The request that records a migration. -/
def recording (d : Dialect) (table : String) (row : Int64 × String) : Request :=
  .statement (insertApplied d table) [.int row.1, .text row.2]

/-- The statements by which a migrator prepares and reads its tracking table. -/
inductive Prepares (d : Dialect) (table : String) : Request → Prop
  | creating : Prepares d table (creating d table)
  | asking : Prepares d table (asking table)
  | locking {text : String} : lockTable? d table = some text → Prepares d table (.script text)

end Migrator

open Migrator in
/-- What a database makes of the statements of a migrator: `rows` are the ids and names in the
tracking table after some replies. None of the statements is transaction control, those that prepare
and read the table leave its rows alone, and recording a migration adds its row. -/
structure Bookkeeping (reading : sql.Reading) (d : Dialect) (table : String) where
  rows : List Reply → List (Int64 × String)
  plain : ∀ {r : Request}, Prepares d table r → reading.control? r.sql = none
  plain_insert : reading.control? (insertApplied d table) = none
  keeps : ∀ {r : Request}, Prepares d table r → ∀ past o, rows (past ++ [⟨r, o⟩]) = rows past
  records : ∀ past row done,
    rows (past ++ [⟨recording d table row, .ok done⟩]) = rows past ++ [row]

namespace Bookkeeping

variable {reading : sql.Reading} {d : Dialect} {table : String} {books : Bookkeeping reading d table}

/-- The recorded ids. -/
def ids (books : Bookkeeping reading d table) (past : List Reply) : List Int64 :=
  (books.rows past).map (·.1)

/-- A request has nothing to do with the rows of the tracking table. -/
def Spares (books : Bookkeeping reading d table) (r : Request) : Prop :=
  ∀ past o, books.rows (past ++ [⟨r, o⟩]) = books.rows past

theorem rows_spared {past word : List Reply} (h : ∀ e ∈ word, books.Spares e.request) :
    books.rows (past ++ word) = books.rows past := by
  induction word generalizing past with
  | nil => rw [List.append_nil]
  | cons e word ih =>
    rw [List.append_cons, ih fun e he => h e (.tail _ he)]
    exact h e (.head _) past e.outcome

end Bookkeeping

namespace Vault

variable {reading : sql.Reading} {dialect : Dialect} {table : String}
  {books : Bookkeeping reading dialect table} {n : Nat} {v v₁ v' : Vault} {e : Reply}
  {word word' : List Reply}

/-- Nothing has happened, but connections may have been lost. -/
structure Fades (v v' : Vault) : Prop where
  committed : v'.committed = v.committed
  session : ∀ m, (v.session m).Fades (v'.session m)

/-- A connection has been made: no transaction is open on it. -/
structure Connects (v : Vault) (n : Nat) (v' : Vault) : Prop where
  committed : v'.committed = v.committed
  own : v'.session n = .idle ∨ v'.session n = .lost
  others : ∀ m, m ≠ n → (v.session m).Fades (v'.session m)

/-- **How a vault may take a reply over a connection.** What the session commits is put behind what is
committed already. Who asks for the latest recorded id is told what is committed by then, and what
its own transaction has done. -/
structure Answers (books : Bookkeeping reading dialect table) (n : Nat) (v : Vault) (e : Reply)
    (v' : Vault) : Prop where
  own : ∃ σ done, Session.Answers reading e (v.session n) σ done ∧
    v'.committed = v.committed ++ done ∧ σ.Fades (v'.session n)
  others : ∀ m, m ≠ n → (v.session m).Fades (v'.session m)
  latest : ∀ {found : ResultSet} {id : Int64}, e = ⟨Migrator.asking table, .ok found⟩ →
    Migrator.latestOf found = .ok id → IsLatest (books.ids (v.committed ++ (v.session n).replies)) id

/-- One reply after another over a connection. -/
inductive Follows (books : Bookkeeping reading dialect table) (n : Nat) :
    Vault → List Reply → Vault → Prop
  | none {v : Vault} : Follows books n v [] v
  | more {v v₁ v' : Vault} {e : Reply} {word : List Reply} :
      v.Answers books n e v₁ → Follows books n v₁ word v' → Follows books n v (e :: word) v'

/-- A word of two parts has a vault between them. -/
theorem Follows.split (h : v.Follows books n (word ++ word') v') :
    ∃ v₁, v.Follows books n word v₁ ∧ v₁.Follows books n word' v' := by
  induction word generalizing v with
  | nil => exact ⟨v, .none, h⟩
  | cons e word ih =>
    cases h with
    | more hanswer hrest =>
      obtain ⟨v₁, hword, hword'⟩ := ih hrest
      exact ⟨v₁, .more hanswer hword, hword'⟩

theorem Follows.first (h : v.Follows books n (e :: word) v') :
    ∃ v₁, v.Answers books n e v₁ ∧ v₁.Follows books n word v' := by
  cases h with
  | more hanswer hrest => exact ⟨_, hanswer, hrest⟩

theorem Follows.single (h : v.Follows books n [e] v') : v.Answers books n e v' := by
  cases h with
  | more hanswer hrest =>
    cases hrest
    exact hanswer

/-- A transaction is open on a connection with this draft, if the connection is not lost. -/
def Drafts (v : Vault) (n : Nat) (d : Draft) : Prop :=
  (∃ aborted, v.session n = .inside d aborted) ∨ v.session n = .lost

/-- The transaction of a connection is open with this draft, and not aborted, if the connection is
not lost. -/
def Sound (v : Vault) (n : Nat) (d : Draft) : Prop :=
  v.session n = .inside d false ∨ v.session n = .lost

/-- No transaction is open on a connection. -/
def Closed (v : Vault) (n : Nat) : Prop := v.session n = .idle ∨ v.session n = .lost

variable {d : Draft}

theorem Sound.drafts (h : v.Sound n d) : v.Drafts n d :=
  h.imp_left fun h => ⟨_, h⟩

/-- **Within a transaction nothing is committed**, whatever a statement that leaves it open comes to.
After one that succeeds the transaction is sound. -/
theorem Answers.drafts (h : v.Answers books n e v') (hd : v.Drafts n d) (hin : e.Inner reading) :
    v'.committed = v.committed ∧ v'.Drafts n (d.take reading e) ∧
      (e.outcome.isOk = true → v'.Sound n (d.take reading e)) := by
  obtain ⟨σ, done, hsession, hcommitted, hfades⟩ := h.own
  rcases hd with ⟨aborted, hd⟩ | hd
  · rw [hd] at hsession
    obtain ⟨rfl, aborted', rfl, hsound⟩ := hsession.of_inner hin
    refine ⟨by rw [hcommitted, List.append_nil], ?_, fun hok => ?_⟩
    · exact hfades.imp_left fun hσ => ⟨_, hσ⟩
    · rw [hsound hok] at hfades
      exact hfades
  · rw [hd] at hsession
    obtain ⟨rfl, rfl, hfailed⟩ := hsession.of_lost
    refine ⟨by rw [hcommitted, List.append_nil], .inr ?_, by simp [hfailed]⟩
    rcases hfades with hσ | hσ <;> exact hσ

/-- A word of statements that leave the transaction open: by induction, the draft of the transaction
is what the word makes of it. -/
theorem Follows.drafts (h : v.Follows books n word v') (hd : v.Drafts n d)
    (hin : ∀ e ∈ word, e.Inner reading) :
    v'.committed = v.committed ∧ v'.Drafts n (d.after reading word) := by
  induction h generalizing d with
  | none => exact ⟨rfl, hd⟩
  | more hanswer _ ih =>
    obtain ⟨hcommitted, hd₁, -⟩ := hanswer.drafts hd (hin _ (.head _))
    obtain ⟨hcommitted', hd'⟩ := ih hd₁ fun e he => hin e (.tail _ he)
    exact ⟨hcommitted'.trans hcommitted, hd'⟩

/-- A statement outside transactions is all that is committed by it, unless the connection is lost. -/
theorem Answers.alone (h : v.Answers books n e v') (hv : v.Closed n) (he : e.Plain reading) :
    v'.committed = v.committed ++ [e] ∨ (v'.committed = v.committed ∧ e.outcome.isOk = false) := by
  obtain ⟨σ, done, hsession, hcommitted, -⟩ := h.own
  rcases hv with hv | hv
  · rw [hv] at hsession
    obtain ⟨-, rfl⟩ := hsession.of_plain he
    exact .inl hcommitted
  · rw [hv] at hsession
    obtain ⟨-, rfl, hfailed⟩ := hsession.of_lost
    exact .inr ⟨by rw [hcommitted, List.append_nil], hfailed⟩

/-- BEGIN commits nothing; if it succeeds, an empty transaction is open. -/
theorem Answers.begin (h : v.Answers books n e v') (hv : v.Closed n)
    (hc : reading.control? e.request.sql = some .begin) :
    v'.committed = v.committed ∧ (e.outcome.isOk = true → v'.Sound n .empty) := by
  obtain ⟨σ, done, hsession, hcommitted, hfades⟩ := h.own
  rcases hv with hv | hv
  · rw [hv] at hsession
    obtain ⟨rfl, hσ⟩ := hsession.of_begin hc
    refine ⟨by rw [hcommitted, List.append_nil], fun hok => ?_⟩
    rw [if_pos hok] at hσ
    rw [hσ] at hfades
    exact hfades
  · rw [hv] at hsession
    obtain ⟨-, rfl, hfailed⟩ := hsession.of_lost
    exact ⟨by rw [hcommitted, List.append_nil], by simp [hfailed]⟩

/-- A COMMIT that fails commits nothing. -/
theorem Answers.uncommitted (h : v.Answers books n e v') (hd : v.Drafts n d)
    (hc : reading.control? e.request.sql = some .commit) (hfailed : e.outcome.isOk = false) :
    v'.committed = v.committed := by
  obtain ⟨σ, done, hsession, hcommitted, -⟩ := h.own
  rcases hd with ⟨aborted, hd⟩ | hd
  · rw [hd] at hsession
    have hcommit := hsession.of_commit hc
    rw [if_neg (by simp [hfailed])] at hcommit
    rw [hcommitted, hcommit.1, List.append_nil]
  · rw [hd] at hsession
    rw [hcommitted, hsession.of_lost.2.1, List.append_nil]

/-- **A COMMIT that succeeds commits all of a sound transaction.** -/
theorem Answers.committed (h : v.Answers books n e v') (hd : v.Sound n d)
    (hc : reading.control? e.request.sql = some .commit) (hok : e.outcome.isOk = true) :
    v'.committed = v.committed ++ d.replies := by
  obtain ⟨σ, done, hsession, hcommitted, -⟩ := h.own
  rcases hd with hd | hd
  · rw [hd] at hsession
    have hcommit := hsession.of_commit hc
    rw [if_pos hok] at hcommit
    rw [hcommitted, hcommit.2]
    rfl
  · rw [hd] at hsession
    simp [hsession.of_lost.2.2] at hok

/-- ROLLBACK commits nothing, however it ends. -/
theorem Answers.undone (h : v.Answers books n e v')
    (hc : reading.control? e.request.sql = some .rollback) : v'.committed = v.committed := by
  obtain ⟨σ, done, hsession, hcommitted, -⟩ := h.own
  rw [hcommitted, hsession.of_rollback hc, List.append_nil]

end Vault

/-! ## Backends -/

/-- **A database with atomic transactions**: there is a vault to be seen in it, and it takes every
reply that it gives as a vault may. -/
structure Backend.Atomic {reading : sql.Reading} {dialect : Dialect} {table : String}
    (books : Bookkeeping reading dialect table) {β : Type} [Backend β] (view : β → Vault) : Prop where
  connect : ∀ n b, (view b).Connects n (view (Backend.connect n b).2)
  respond : ∀ {n r b o b'}, Backend.respond n r b = (.answer o, b') →
    (view b).Answers books n ⟨r, o⟩ (view b')
  never : ∀ {n r b b'}, Backend.respond n r b = (.never, b') → (view b).Fades (view b')

/-- The transaction that is open in a session has got a lock. -/
def Vault.Session.Has (lock : Request) (σ : Vault.Session) : Prop :=
  ∃ done, ⟨lock, .ok done⟩ ∈ σ.replies

/-- **A lock that one transaction has at a time**: it is given to a connection only while no other one
has it, and whoever has got it has it until the transaction ends. -/
def Backend.Excludes {β : Type} [Backend β] (lock : Request) (view : β → Vault) : Prop :=
  ∀ n b done b', Backend.respond n lock b = (.answer (.ok done), b') →
    ∀ m, m ≠ n → ¬ ((view b).session m).Has lock

namespace Backend

variable {reading : sql.Reading} {dialect : Dialect} {table : String}
  {books : Bookkeeping reading dialect table} {β : Type} [Backend β] {view : β → Vault} {n : Nat}
  {b b' : β} {word : List Reply}

/-- What a database with atomic transactions replies, its vault takes. -/
theorem Atomic.follows (h : Atomic books view) (hreplies : Replies n b word b') :
    (view b).Follows books n word (view b') := by
  induction hreplies with
  | none => exact .none
  | more hresponse _ ih => exact .more (h.respond hresponse) ih

end Backend

end SqlClient
