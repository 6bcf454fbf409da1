import SqlClient.Proofs.Migration.Words
/-!
# Migrations — the effects of a run

What the words of a run make of a database with atomic transactions. A body leaves its transaction
open whatever its statements come to, and takes back nothing that was there before it
(`Leaves.after`). So what is committed by the transaction of a run is what its word makes of an empty
draft, all of it or nothing (`Follows.enclosed`): the last statement before COMMIT has succeeded,
which shows that the database had not aborted the transaction.
-/

namespace SqlClient

open Coroutine

variable {sql : TransactionSql} {reading : sql.Reading}

/-! ## Drafts -/

/-- **A draft has been extended in a scope of a depth**: what was in it is still there, with replies to
requests as `Q` says behind it and stale savepoints of deeper scopes before the older ones. -/
structure Draft.Extends (depth : Nat) (Q : Request → Prop) (d d' : Draft) : Prop where
  replies : ∃ kept, d'.replies = d.replies ++ kept ∧ ∀ e ∈ kept, Q e.request
  savepoints : ∃ stale, d'.savepoints = stale ++ d.savepoints ∧
    ∀ s ∈ stale, ∃ deeper, depth < deeper ∧ s.1 = TransactionSql.savepointName deeper

namespace Draft.Extends

variable {depth : Nat} {Q : Request → Prop} {d d₁ d' : Draft}

theorem refl : d.Extends depth Q d :=
  ⟨⟨[], by simp⟩, ⟨[], by simp⟩⟩

theorem trans (h : d.Extends depth Q d₁) (h' : d₁.Extends depth Q d') : d.Extends depth Q d' := by
  obtain ⟨⟨kept, hkept, hQ⟩, stale, hstale, hdeeper⟩ := h
  obtain ⟨⟨kept', hkept', hQ'⟩, stale', hstale', hdeeper'⟩ := h'
  refine ⟨⟨kept ++ kept', ?_, List.forall_mem_append.2 ⟨hQ, hQ'⟩⟩,
    stale' ++ stale, ?_, List.forall_mem_append.2 ⟨hdeeper', hdeeper⟩⟩
  · rw [hkept', hkept, List.append_assoc]
  · rw [hstale', hstale, List.append_assoc]

theorem add {e : Reply} (h : Q e.request) :
    d.Extends depth Q { d with replies := d.replies ++ [e] } :=
  ⟨⟨[e], rfl, List.forall_mem_singleton.2 h⟩, [], rfl, List.forall_mem_nil _⟩

/-- The savepoint of a scope that is not rolled back stays behind. -/
theorem returned (h : (d.control (.savepoint (TransactionSql.savepointName (depth + 1)))).Extends
    (depth + 1) Q d') : d.Extends depth Q d' := by
  obtain ⟨hreplies, stale, hstale, hdeeper⟩ := h
  refine ⟨hreplies, stale ++ [(TransactionSql.savepointName (depth + 1), d.replies)], ?_, ?_⟩
  · rw [hstale, List.append_assoc]
    rfl
  · refine List.forall_mem_append.2 ⟨fun s hs => ?_, ?_⟩
    · obtain ⟨deeper, hlt, hname⟩ := hdeeper s hs
      exact ⟨deeper, Nat.lt_of_succ_lt hlt, hname⟩
    · exact List.forall_mem_singleton.2 ⟨_, Nat.lt_succ_self _, rfl⟩

/-- A scope that is rolled back takes back all that it did, but for its savepoint. -/
theorem failed (h : (d.control (.savepoint (TransactionSql.savepointName (depth + 1)))).Extends
    (depth + 1) Q d') :
    d.Extends depth Q (d'.control (.rollbackTo (TransactionSql.savepointName (depth + 1)))) := by
  obtain ⟨-, stale, hstale, hdeeper⟩ := h
  have hother : ∀ s ∈ stale, s.1 ≠ TransactionSql.savepointName (depth + 1) := by
    intro s hs hname
    obtain ⟨deeper, hlt, hname'⟩ := hdeeper s hs
    have := TransactionSql.savepointName_injective (hname'.symm.trans hname)
    omega
  have hback : d'.control (.rollbackTo (TransactionSql.savepointName (depth + 1))) =
      ⟨d.replies, (TransactionSql.savepointName (depth + 1), d.replies) :: d.savepoints⟩ := by
    obtain ⟨replies, savepoints⟩ := d'
    obtain rfl : savepoints = _ := hstale
    exact Draft.rollBackTo_stale hother
  rw [hback]
  exact ⟨⟨[], by simp⟩, [_], rfl, List.forall_mem_singleton.2 ⟨_, Nat.lt_succ_self _, rfl⟩⟩

end Draft.Extends

/-! ## Bodies -/

namespace Program

variable {α : Type} {depth : Nat} {p : Program α} {word : List Reply} {o : Outcome α} {t : Course}

/-- A body of statements that are no transaction control leaves the transaction open. -/
theorem Leaves.inner (h : p.Leaves sql depth word o t)
    (hp : p.Sends fun r => reading.control? r.sql = none) : ∀ e ∈ word, e.Inner reading := by
  induction h with
  | finish => exact List.forall_mem_nil _
  | send _ ih => exact List.forall_mem_cons.2 ⟨Reply.Plain.inner hp.1, ih (hp.2 _)⟩
  | refused _ ih =>
    exact List.forall_mem_cons.2 ⟨Reply.inner_of_control (reading.openSavepoint _) rfl, ih (hp.2 _)⟩
  | returned _ _ ihbody ih =>
    refine List.forall_mem_cons.2 ⟨Reply.inner_of_control (reading.openSavepoint _) rfl, ?_⟩
    exact List.forall_mem_append.2 ⟨ihbody hp.1, ih (hp.2 _)⟩
  | failed _ _ ihbody ih =>
    refine List.forall_mem_cons.2 ⟨Reply.inner_of_control (reading.openSavepoint _) rfl, ?_⟩
    refine List.forall_mem_append.2 ⟨ihbody hp.1, ?_⟩
    exact List.forall_mem_cons.2
      ⟨Reply.inner_of_control (reading.undoSavepoint _) rfl, ih (hp.2 _)⟩

/-- **What a body does to the draft of its transaction**, by induction on what it leaves: it extends
the draft. A scope that goes back finds its own savepoint before all older ones. -/
theorem Leaves.extends {Q : Request → Prop} (h : p.Leaves sql depth word o t)
    (hp : p.Sends fun r => reading.control? r.sql = none) (hQ : p.Sends Q) (d : Draft) :
    d.Extends depth Q (d.after reading word) := by
  induction h generalizing d with
  | finish => exact .refl
  | send _ ih =>
    rw [Draft.after_cons, Draft.take_plain hp.1]
    exact (Draft.Extends.add hQ.1).trans (ih (hp.2 _) (hQ.2 _) _)
  | refused _ ih =>
    rw [Draft.after_cons, Draft.take_failed (reading.openSavepoint _) rfl]
    exact ih (hp.2 _) (hQ.2 _) d
  | returned _ _ ihbody ih =>
    rw [Draft.after_cons, Draft.take_control (reading.openSavepoint _) rfl, Draft.after_append]
    exact (ihbody hp.1 hQ.1 _).returned.trans (ih (hp.2 _) (hQ.2 _) _)
  | @failed _ _ _ _ _ _ undone _ _ _ _ _ _ _ _ ihbody ih =>
    rw [Draft.after_cons, Draft.take_control (reading.openSavepoint _) rfl, Draft.after_append,
      Draft.after_cons]
    refine .trans ?_ (ih (hp.2 _) (hQ.2 _) _)
    cases undone with
    | ok =>
      rw [Draft.take_control (reading.undoSavepoint _) rfl]
      exact (ihbody hp.1 hQ.1 _).failed
    | error =>
      rw [Draft.take_failed (reading.undoSavepoint _) rfl]
      exact (ihbody hp.1 hQ.1 _).returned

end Program

/-! ## Runs -/

namespace Migrator

variable {β : Type} {dialect : Dialect} {table : String} {books : Bookkeeping reading dialect table}
  {body : Migration β → Program Unit} {list : List (Migration β)} {m : Migrator β}
  {word before : List Reply} {o : Outcome (List (Int64 × String))} {rows : List (Int64 × String)}

theorem Applies.inner (h : Applies sql dialect table body list word o)
    (books : Bookkeeping reading dialect table)
    (hp : ∀ one ∈ list, (body one).Sends fun r => reading.control? r.sql = none) :
    ∀ e ∈ word, e.Inner reading := by
  have hrecording : ∀ row o, Reply.Inner reading ⟨recording dialect table row, o⟩ :=
    fun _ _ => Reply.Plain.inner books.plain_insert
  induction h with
  | done => exact List.forall_mem_nil _
  | failed hbody => exact hbody.leaves.choose_spec.inner (hp _ (.head _))
  | unrecorded hbody =>
    refine List.forall_mem_append.2 ⟨hbody.leaves.choose_spec.inner (hp _ (.head _)), ?_⟩
    exact List.forall_mem_singleton.2 (hrecording _ _)
  | applied hbody _ ih =>
    refine List.forall_mem_append.2 ⟨hbody.leaves.choose_spec.inner (hp _ (.head _)), ?_⟩
    exact List.forall_mem_cons.2 ⟨hrecording _ _, ih fun one hone => hp one (.tail _ hone)⟩

/-- Migrations that have all been applied are handed back, each with its name. -/
theorem Applies.rows_eq (h : Applies sql dialect table body list word (.ok rows)) :
    rows = list.map Migration.row := by
  generalize ho : (.ok rows : Outcome (List (Int64 × String))) = o at h
  induction h generalizing rows with
  | done =>
    cases ho
    rfl
  | failed => cases ho
  | unrecorded => cases ho
  | @applied _ _ _ _ _ o _ _ ih =>
    cases o with
    | error => cases ho
    | ok rest =>
      cases ho
      rw [List.map_cons, ih rfl]

/-- **Migrations that have all been applied are recorded**, by induction on them, if none of them has
to do with the rows of the tracking table itself. -/
theorem Applies.rows_after (h : Applies sql dialect table body list word (.ok rows))
    (hp : ∀ one ∈ list, (body one).Sends fun r => reading.control? r.sql = none)
    (hspares : ∀ one ∈ list, (body one).Sends books.Spares) (past : List Reply) (d : Draft) :
    books.rows (past ++ (d.after reading word).replies) = books.rows (past ++ d.replies) ++ rows := by
  generalize ho : (.ok rows : Outcome (List (Int64 × String))) = o at h
  induction h generalizing rows d with
  | done =>
    cases ho
    rw [Draft.after_nil, List.append_nil]
  | failed => cases ho
  | unrecorded => cases ho
  | @applied one _ inner _ done o hbody _ ih =>
    cases o with
    | error => cases ho
    | ok rest =>
      cases ho
      obtain ⟨_, hleaves⟩ := hbody.leaves
      obtain ⟨kept, hkept, hspared⟩ :=
        (hleaves.extends (hp _ (.head _)) (hspares _ (.head _)) d).replies
      rw [Draft.after_append, Draft.after_cons, Draft.take_plain books.plain_insert,
        ih (fun one hone => hp one (.tail _ hone)) (fun one hone => hspares one (.tail _ hone)) _ rfl,
        hkept, ← List.append_assoc, ← List.append_assoc, books.records,
        Bookkeeping.rows_spared hspared, List.append_assoc]
      rfl

theorem Locks.prepares (h : Locks dialect table before) :
    ∀ e ∈ before, Prepares dialect table e.request := by
  cases h with
  | none => exact List.forall_mem_nil _
  | locked hlock => exact List.forall_mem_singleton.2 (.locking hlock)

/-- Keeping others out is all that is in a transaction that has just begun. -/
theorem Locks.after (h : Locks dialect table before) (books : Bookkeeping reading dialect table) :
    (Draft.empty.after reading before).replies = before := by
  cases h with
  | none => rfl
  | locked hlock =>
    rw [Draft.after_cons, Draft.take_plain (books.plain (.locking hlock))]
    rfl

theorem Undertakes.inner (h : Undertakes sql dialect table m body word o)
    (books : Bookkeeping reading dialect table)
    (hp : ∀ one ∈ m.migrations, (body one).Sends fun r => reading.control? r.sql = none) :
    ∀ e ∈ word, e.Inner reading := by
  have hplain : ∀ {e : Reply}, Prepares dialect table e.request → e.Inner reading :=
    fun he => Reply.Plain.inner (books.plain he)
  cases h with
  | unlocked hlock => exact List.forall_mem_singleton.2 (hplain (.locking hlock))
  | unread hlocks | malformed hlocks =>
    refine List.forall_mem_append.2 ⟨fun e he => hplain (hlocks.prepares e he), ?_⟩
    exact List.forall_mem_singleton.2 (hplain .asking)
  | read hlocks _ happlies =>
    refine List.forall_mem_append.2 ⟨fun e he => hplain (hlocks.prepares e he), ?_⟩
    refine List.forall_mem_cons.2 ⟨hplain .asking, happlies.inner books fun one hone => ?_⟩
    exact hp one (mem_pending.1 hone).1

/-- The last statement of migrations that have all been applied has recorded one of them. -/
theorem Applies.last (h : Applies sql dialect table body list word (.ok rows)) :
    word = [] ∨ ∃ front row done, word = front ++ [⟨recording dialect table row, .ok done⟩] := by
  generalize ho : (.ok rows : Outcome (List (Int64 × String))) = o at h
  induction h generalizing rows with
  | done => exact .inl rfl
  | failed => cases ho
  | unrecorded => cases ho
  | @applied one _ inner _ done o _ _ ih =>
    cases o with
    | error => cases ho
    | ok rest =>
      rcases ih rfl with rfl | ⟨front, row, done', rfl⟩
      · exact .inr ⟨inner, one.row, done, rfl⟩
      · exact .inr ⟨inner ++ ⟨recording dialect table one.row, .ok done⟩ :: front, row, done', by simp⟩

/-- **The last statement before COMMIT has succeeded**: it is the question for the latest recorded id
or the record of a migration. -/
theorem Undertakes.last (h : Undertakes sql dialect table m body word (.ok rows))
    (books : Bookkeeping reading dialect table) :
    ∃ front e, word = front ++ [e] ∧ e.Plain reading ∧ e.outcome.isOk = true := by
  cases h with
  | @read before word found latest _ _ _ happlies =>
    rcases happlies.last with rfl | ⟨front, row, done, rfl⟩
    · exact ⟨before, _, rfl, books.plain .asking, rfl⟩
    · exact ⟨before ++ ⟨asking table, .ok found⟩ :: front, ⟨recording dialect table row, .ok done⟩,
        by simp, books.plain_insert, rfl⟩

/-- What the transaction of a run that returns a result leaves in the tracking table. -/
theorem rows_of_applies {before word : List Reply} {list : List (Migration β)}
    {rows : List (Int64 × String)} (past : List Reply) (found : ResultSet)
    (hlocks : Locks dialect table before) (happlies : Applies sql dialect table body list word (.ok rows))
    (hplain : ∀ one ∈ list, (body one).Sends fun r => reading.control? r.sql = none)
    (hspares : ∀ one ∈ list, (body one).Sends books.Spares) :
    books.rows (past ++
      (Draft.empty.after reading (before ++ ⟨asking table, .ok found⟩ :: word)).replies) =
      books.rows past ++ rows := by
  have hbefore : ∀ e ∈ before ++ [⟨asking table, .ok found⟩], books.Spares e.request :=
    List.forall_mem_append.2 ⟨fun e he => books.keeps (hlocks.prepares e he),
      List.forall_mem_singleton.2 (books.keeps .asking)⟩
  rw [Draft.after_append, Draft.after_cons, Draft.take_plain (books.plain .asking),
    happlies.rows_after hplain hspares, hlocks.after books, Bookkeeping.rows_spared hbefore]

end Migrator

/-! ## Transactions -/

namespace Vault

variable {α : Type} {dialect : Dialect} {table : String} {books : Bookkeeping reading dialect table}
  {n : Nat} {v v' : Vault} {P : List Reply → Outcome α → Prop} {word : List Reply} {o : Outcome α}

/-- A word of statements that leave the transaction open, the last of which has succeeded, leaves the
transaction sound. -/
theorem Follows.sound {d : Draft} {front : List Reply} {e : Reply}
    (h : v.Follows books n (front ++ [e]) v') (hd : v.Drafts n d)
    (hin : ∀ e' ∈ front ++ [e], e'.Inner reading) (hok : e.outcome.isOk = true) :
    v'.Sound n (d.after reading (front ++ [e])) := by
  obtain ⟨v₁, hfront, hlast⟩ := h.split
  obtain ⟨-, hd₁⟩ := hfront.drafts hd (List.forall_mem_append.1 hin).1
  rw [Draft.after_append]
  exact (hlast.single.drafts hd₁ (hin e (by simp))).2.2 hok

/-- **All or nothing.** A root transaction that fails has committed nothing, wherever it failed. One
that returns a result has committed all that its operation made of an empty draft, if the database
had not aborted the transaction before COMMIT, as it shows by answering the last statement. -/
theorem Follows.enclosed (h : v.Follows books n word v') (hv : v.Closed n)
    (hword : Transaction.Encloses sql P word o)
    (hin : ∀ inner o, P inner o → ∀ e ∈ inner, e.Inner reading) :
    match o with
    | .error _ => v'.committed = v.committed
    | .ok a => ∃ (begun done : ResultSet) (inner : List Reply) (v₁ v₂ : Vault),
        word = ⟨.script sql.begin, .ok begun⟩ :: (inner ++ [⟨.script sql.commit, .ok done⟩]) ∧
        P inner (.ok a) ∧ v₁.committed = v.committed ∧ v₁.Sound n .empty ∧
        v₁.Follows books n inner v₂ ∧
        (v₂.Sound n (Draft.empty.after reading inner) →
          v'.committed = v.committed ++ (Draft.empty.after reading inner).replies) := by
  cases hword with
  | refused => exact (h.single.begin hv reading.begin).1
  | @committed inner a begun done hinner =>
    obtain ⟨v₁, hbegin, hrest⟩ := h.first
    obtain ⟨v₂, hfollows, hcommit⟩ := hrest.split
    obtain ⟨hcommitted, hsound⟩ := hbegin.begin hv reading.begin
    -- what COMMIT makes of the draft depends on whether the database has kept it until then
    refine ⟨begun, done, inner, v₁, v₂, rfl, hinner, hcommitted, hsound rfl, hfollows, fun hd => ?_⟩
    obtain ⟨hcommitted', -⟩ := hfollows.drafts (hsound rfl).drafts (hin _ _ hinner)
    rw [hcommit.single.committed hd reading.commit rfl, hcommitted', hcommitted]
  | uncommitted hinner =>
    obtain ⟨v₁, hbegin, hrest⟩ := h.first
    obtain ⟨v₂, hfollows, hend⟩ := hrest.split
    obtain ⟨v₃, hcommit, hundo⟩ := hend.first
    obtain ⟨hcommitted, hsound⟩ := hbegin.begin hv reading.begin
    obtain ⟨hcommitted', hd⟩ := hfollows.drafts (hsound rfl).drafts (hin _ _ hinner)
    -- neither the failed COMMIT nor the ROLLBACK behind it commits anything
    exact (hundo.single.undone reading.rollback).trans
      ((hcommit.uncommitted hd reading.commit rfl).trans (hcommitted'.trans hcommitted))
  | undone hinner =>
    obtain ⟨v₁, hbegin, hrest⟩ := h.first
    obtain ⟨v₂, hfollows, hundo⟩ := hrest.split
    obtain ⟨hcommitted, hsound⟩ := hbegin.begin hv reading.begin
    obtain ⟨hcommitted', -⟩ := hfollows.drafts (hsound rfl).drafts (hin _ _ hinner)
    exact (hundo.single.undone reading.rollback).trans (hcommitted'.trans hcommitted)

end Vault

end SqlClient
