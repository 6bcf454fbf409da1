import SqlClient.Proofs.Migration.Database
/-!
# Migrations — ideal databases

A database that keeps what it is told and fails nothing, but for a lock that another transaction
holds. It answers as a database with atomic transactions may, whatever the dialect.
-/

namespace SqlClient

/-! ## The bookkeeping of a dialect -/

namespace TransactionSql

theorem toList_of_nameAfter? {lead text name : String} (h : nameAfter? lead text = some name) :
    ∃ rest, text.toList = lead.toList ++ ' ' :: rest := by
  rw [nameAfter?] at h
  split at h
  · obtain ⟨rest, hrest⟩ := List.isPrefixOf_iff_prefix.1 ‹_›
    exact ⟨rest, by simpa using hrest.symm⟩
  · cases h

/-- The first two letters of transaction control, in every dialect. -/
def controlLetters : List (List Char) := [['B', 'E'], ['C', 'O'], ['R', 'O'], ['S', 'A']]

theorem take_of_control? {d : Dialect} {text : String} {c : Control}
    (h : (ofDialect d).control? text = some c) : text.toList.take 2 ∈ controlLetters := by
  rw [control?] at h
  split at h
  · subst text
    cases d <;> decide
  split at h
  · subst text
    cases d <;> decide
  split at h
  · subst text
    cases d <;> decide
  split at h
  · obtain ⟨rest, hrest⟩ := toList_of_nameAfter? ‹_›
    rw [hrest]
    cases d <;> simp [ofDialect, controlLetters]
  · obtain ⟨name, hname, -⟩ := Option.map_eq_some_iff.1 h
    obtain ⟨rest, hrest⟩ := toList_of_nameAfter? hname
    rw [hrest]
    cases d <;> simp [ofDialect, controlLetters]

/-- A text with other letters at its front is no transaction control, whatever follows. -/
theorem Reading.ofDialect_eq_none {d : Dialect} {lead rest : String} (hlength : 2 ≤ lead.toList.length)
    (h : lead.toList.take 2 ∉ controlLetters) : (Reading.ofDialect d).control? (lead ++ rest) = none := by
  cases hc : (Reading.ofDialect d).control? (lead ++ rest) with
  | none => rfl
  | some =>
    have hletters := take_of_control? hc
    rw [String.toList_append, List.take_append_of_le_length hlength] at hletters
    exact absurd hletters h

end TransactionSql

namespace Migrator

/-- The row that a reply has added to the tracking table. -/
def rowOf? (d : Dialect) (table : String) (e : Reply) : Option (Int64 × String) :=
  match e with
  | ⟨.statement text [.int id, .text name], .ok _⟩ =>
    if text = insertApplied d table then some (id, name) else none
  | _ => none

theorem plain_createTable (d : Dialect) (table : String) :
    (TransactionSql.Reading.ofDialect d).control? (createTable d table) = none := by
  delta createTable
  cases d <;> simp only [String.append_assoc] <;>
    exact TransactionSql.Reading.ofDialect_eq_none (by decide) (by decide)

theorem plain_selectLatest (d : Dialect) (table : String) :
    (TransactionSql.Reading.ofDialect d).control? (selectLatest table) = none :=
  TransactionSql.Reading.ofDialect_eq_none (by decide) (by decide)

theorem plain_lockTable? {d : Dialect} {table text : String} (h : lockTable? d table = some text) :
    (TransactionSql.Reading.ofDialect d).control? text = none := by
  cases d <;> cases h <;> simp only [String.append_assoc] <;>
    exact TransactionSql.Reading.ofDialect_eq_none (by decide) (by decide)

theorem plain_insertApplied (d : Dialect) (table : String) :
    (TransactionSql.Reading.ofDialect d).control? (insertApplied d table) = none := by
  simp only [insertApplied, String.append_assoc]
  exact TransactionSql.Reading.ofDialect_eq_none (by decide) (by decide)

/-- The bookkeeping of a dialect, when nobody else writes to the tracking table. -/
def bookkeeping (d : Dialect) (table : String) : Bookkeeping (.ofDialect d) d table where
  rows past := past.filterMap (rowOf? d table)
  plain := by
    rintro r (_ | _ | hlock)
    · exact plain_createTable d table
    · exact plain_selectLatest d table
    · exact plain_lockTable? hlock
  plain_insert := plain_insertApplied d table
  keeps := by
    rintro r (_ | _ | _) past o
    · simp [creating, rowOf?]
    · simp [asking, rowOf?]
    · simp [rowOf?]
  records past row done := by simp [recording, rowOf?]

end Migrator

/-! ## The database -/

/-- The greatest of some ids. -/
def greatest? : List Int64 → Option Int64
  | [] => none
  | id :: rest => some (match greatest? rest with
    | some id' => if id ≤ id' then id' else id
    | none => id)

theorem isLatest_greatest? (ids : List Int64) : IsLatest ids ((greatest? ids).getD 0) := by
  induction ids with
  | nil => exact .inl ⟨rfl, rfl⟩
  | cons id rest ih =>
    rw [greatest?]
    cases hrest : greatest? rest with
    | none =>
      have hnil : rest = [] := by
        cases rest with
        | nil => rfl
        | cons => cases hrest
      subst hnil
      exact .inr ⟨.head _, List.forall_mem_singleton.2 (Int64.le_refl _)⟩
    | some id' =>
      rw [hrest] at ih
      obtain ⟨rfl, -⟩ | ⟨hmem, hle⟩ := ih
      · cases hrest
      refine .inr ?_
      by_cases h : id ≤ id'
      · simp only [if_pos h]
        exact ⟨.tail _ hmem, List.forall_mem_cons.2 ⟨h, hle⟩⟩
      · have hge : id' ≤ id := (Int64.le_total id id').resolve_left h
        simp only [if_neg h]
        exact ⟨.head _, List.forall_mem_cons.2 ⟨Int64.le_refl _, fun i hi => Int64.le_trans (hle i hi) hge⟩⟩

variable {sql : TransactionSql} {reading : sql.Reading} {dialect : Dialect} {table : String}

/-- **A database that fails nothing**, but for a lock that another transaction holds: what is
committed, and the open transaction of each connection that has one, the latest entry first. -/
structure IdealDatabase (books : Bookkeeping reading dialect table) where
  committed : List Reply
  drafts : List (Nat × Option Draft)

namespace IdealDatabase

variable {books : Bookkeeping reading dialect table} {b b' : IdealDatabase books} {n m : Nat}
  {r : Request} {e : Reply} {o : Outcome ResultSet}

/-- The open transaction of a connection. -/
def draft? (b : IdealDatabase books) (n : Nat) : Option Draft := (b.drafts.lookup n).join

/-- Opens, changes or closes the transaction of a connection. -/
def put (b : IdealDatabase books) (n : Nat) (d : Option Draft) : IdealDatabase books :=
  { b with drafts := (n, d) :: b.drafts }

@[simp] theorem draft?_put (b : IdealDatabase books) (n m : Nat) (d : Option Draft) :
    (b.put n d).draft? m = if m = n then d else b.draft? m := by
  by_cases h : m = n
  · simp [draft?, put, h]
  · have hne : (m == n) = false := by simpa using h
    simp [draft?, put, List.lookup_cons, hne, h]

@[simp] theorem committed_put (b : IdealDatabase books) (n : Nat) (d : Option Draft) :
    (b.put n d).committed = b.committed := rfl

/-- What a connection sees in the database: what is committed, and its own transaction. -/
def seen (b : IdealDatabase books) (n : Nat) : List Reply :=
  b.committed ++ ((b.draft? n).map (·.replies)).getD []

/-- Whether another connection holds the lock of the tracking table. -/
def isLockedOut (b : IdealDatabase books) (n : Nat) : Bool :=
  b.drafts.any fun entry => entry.1 ≠ n && (b.draft? entry.1).any fun d =>
    d.replies.any fun e => some e.request = (Migrator.lockTable? dialect table).map .script

/-- The rows that answer a request. -/
def rowsFor (b : IdealDatabase books) (n : Nat) (r : Request) : ResultSet :=
  if r = Migrator.asking table then
    .ofRows ["latest"] [[((greatest? (books.ids (b.seen n))).map Value.int).getD .null]]
  else .ofAffected 0

/-- What a request comes to. -/
def outcome (b : IdealDatabase books) (n : Nat) (r : Request) : Outcome ResultSet :=
  if some r = (Migrator.lockTable? dialect table).map .script ∧ b.isLockedOut n then
    .error (.ofMessage "the table is locked")
  else .ok (b.rowsFor n r)

end IdealDatabase

/-- What a reply makes of the transaction of its connection, and what it commits. -/
def Draft.step (reading : sql.Reading) (e : Reply) : Option Draft → Option Draft × List Reply
  | none =>
    match reading.control? e.request.sql with
    | none => (none, [e])
    | some .begin => (some .empty, [])
    | some _ => (none, [])
  | some d =>
    match reading.control? e.request.sql with
    | none | some (.savepoint _) | some (.rollbackTo _) => (some (d.take reading e), [])
    | some .begin => (some d, [])
    | some .commit => (none, d.replies)
    | some .rollback => (none, [])

/-- How a connection stands that is never lost, and whose transaction is never aborted. -/
def Vault.Session.ofDraft : Option Draft → Vault.Session
  | some d => .inside d false
  | none => .idle

namespace IdealDatabase

variable {books : Bookkeeping reading dialect table} {b b' : IdealDatabase books} {n m : Nat}
  {r : Request} {e : Reply} {o : Outcome ResultSet}

/-- What becomes of the database with a reply. -/
def take (b : IdealDatabase books) (n : Nat) (e : Reply) : IdealDatabase books :=
  { b with committed := b.committed ++ (Draft.step reading e (b.draft? n)).2 }.put n
    (Draft.step reading e (b.draft? n)).1

instance : Backend (IdealDatabase books) where
  connect n b := (none, b.put n none)
  respond n r b := (.answer (b.outcome n r), b.take n ⟨r, b.outcome n r⟩)

/-- An ideal database as its sessions see it. -/
def view (b : IdealDatabase books) : Vault where
  committed := b.committed
  session n := .ofDraft (b.draft? n)

@[simp] theorem draft?_take : (b.take n e).draft? m =
    if m = n then (Draft.step reading e (b.draft? n)).1 else b.draft? m :=
  draft?_put _ _ _ _

theorem seen_eq : b.seen n = b.view.committed ++ (b.view.session n).replies := by
  cases h : b.draft? n <;> simp [seen, view, Vault.Session.ofDraft, Vault.Session.replies, h]

/-- Control of transactions never fails. -/
theorem isOk_of_control {c : Control} (hc : reading.control? r.sql = some c) :
    (b.outcome n r).isOk = true := by
  rw [outcome, if_neg]
  · rfl
  · rintro ⟨hlock, -⟩
    obtain ⟨text, htext, rfl⟩ := Option.map_eq_some_iff.1 hlock.symm
    rw [books.plain (.locking htext)] at hc
    cases hc

omit books in
/-- A connection goes on as sessions may. -/
theorem answers_step (hok : ∀ c, reading.control? e.request.sql = some c → e.outcome.isOk = true)
    (d : Option Draft) :
    Vault.Session.Answers reading e (.ofDraft d) (.ofDraft (Draft.step reading e d).1)
      (Draft.step reading e d).2 := by
  -- what is no control statement stands alone or goes into the draft
  cases hc : reading.control? e.request.sql with
  | none =>
    cases d with
    | none => simpa [Draft.step, hc] using .alone hc
    | some d =>
      have hplain : e.Plain reading := hc
      cases he : e.outcome.isOk with
      | true => simpa [Draft.step, hc] using .taken hplain.inner he
      | false => simpa [Draft.step, hc] using .failed he
  | some c =>
    have he := hok c hc
    cases d with
    | none =>
      cases c with
      | begin => simpa [Draft.step, hc] using .begun hc he
      | savepoint name => simpa [Draft.step, hc] using .strayed hc he (.inr ⟨rfl, rfl⟩)
      | _ => simpa [Draft.step, hc] using .unmoved hc fun _ => ⟨by simp, by simp⟩
    | some d =>
      cases c with
      | begin => simpa [Draft.step, hc] using .strayed hc he (.inl ⟨rfl, _, _, rfl⟩)
      | commit => simpa [Draft.step, hc] using .committed hc he
      | rollback => simpa [Draft.step, hc] using .undone hc he
      | savepoint name =>
        simpa [Draft.step, hc] using .taken (Reply.inner_of_control hc rfl) he
      | rollbackTo name => simpa [Draft.step, hc] using .revived hc he

/-- Who asks for the latest recorded id is told it. -/
theorem latestOf_rowsFor :
    Migrator.latestOf (b.rowsFor n (Migrator.asking table)) =
      .ok ((greatest? (books.ids (b.seen n))).getD 0) := by
  rw [rowsFor, if_pos rfl]
  cases greatest? (books.ids (b.seen n)) <;> rfl

/-- **An ideal database has atomic transactions.** -/
theorem atomic (books : Bookkeeping reading dialect table) :
    Backend.Atomic books (view : IdealDatabase books → Vault) where
  connect n b := by
    refine ⟨rfl, .inl ?_, fun m hm => .inl ?_⟩
    · simp [Backend.connect, view, Vault.Session.ofDraft]
    · simp [Backend.connect, view, hm]
  respond := by
    rintro n r b o b' hresponse
    obtain ⟨rfl, rfl⟩ : b.outcome n r = o ∧ b.take n ⟨r, b.outcome n r⟩ = b' := by
      simpa [Backend.respond] using hresponse
    refine ⟨⟨_, _, answers_step (fun c => isOk_of_control) (b.draft? n), rfl, .inl ?_⟩,
      fun m hm => .inl ?_, ?_⟩
    · simp [view]
    · simp [view, hm]
    · rintro found id heq hfound
      obtain ⟨rfl, hanswer⟩ := Reply.mk.inj heq
      -- asking for the latest id is not asking for the lock, so it is never locked out
      have hplain : ¬ (some (Migrator.asking table) =
          (Migrator.lockTable? dialect table).map .script ∧ b.isLockedOut n = true) := by
        rintro ⟨hlock, -⟩
        obtain ⟨_, -, ⟨⟩⟩ := Option.map_eq_some_iff.1 hlock.symm
      rw [outcome, if_neg hplain] at hanswer
      obtain rfl := Except.ok.inj hanswer
      obtain rfl := Except.ok.inj (latestOf_rowsFor.symm.trans hfound)
      rw [← seen_eq]
      exact isLatest_greatest? _
  never := by
    rintro n r b b' hresponse
    cases congrArg Prod.fst hresponse

/-- **An ideal database gives the lock of the tracking table to one transaction at a time.** -/
theorem excludes {text : String} (hlock : Migrator.lockTable? dialect table = some text) :
    Backend.Excludes (.script text) (view : IdealDatabase books → Vault) := by
  rintro n b done b' hresponse m hm ⟨given, hgiven⟩
  have hanswer : b.outcome n (.script text) = .ok done :=
    Response.answer.inj (congrArg Prod.fst hresponse)
  have hout : b.isLockedOut n = true := by
    replace hgiven : _ ∈ (Vault.Session.ofDraft (b.draft? m)).replies := hgiven
    cases hd : b.draft? m with
    | none =>
      rw [hd] at hgiven
      cases hgiven
    | some d =>
      rw [hd] at hgiven
      obtain ⟨_, _, hsplit, -⟩ := List.lookup_eq_some_iff.1 (Option.join_eq_some_iff.1 hd)
      refine List.any_eq_true.2 ⟨(m, some d), by rw [hsplit]; simp, ?_⟩
      simp only [hd, hlock, Option.any_some, Bool.and_eq_true, List.any_eq_true]
      exact ⟨by simpa using hm, _, hgiven, by simp⟩
  rw [outcome, if_pos ⟨by rw [hlock]; rfl, hout⟩] at hanswer
  cases hanswer

/-- An ideal database answers whatever it is sent. -/
theorem answers (b : IdealDatabase books) : Backend.Answers b :=
  fun _ _ _ => ⟨_, rfl⟩

end IdealDatabase

end SqlClient
