import SqlClient.Proofs.Migration.Effects
import SqlClient.Proofs.Migration.Ideal
/-!
# Migrations — series of runs

Runs one after another on one database with atomic transactions, each with a list of its own, over
any choice of the statements that fail. `Fulfils` is the specification of one run: refused for a
repeated id before anything is sent, or failed with nothing left behind but the tracking table, or
through with exactly what was newer than the latest recorded id. `applied_once` says that every run of
a series keeps to it, so that no id is ever recorded twice.
-/

namespace SqlClient

open Coroutine

variable {sql : TransactionSql} {reading : sql.Reading} {dialect : Dialect} {table : String}
  {books : Bookkeeping reading dialect table} {β : Type} [Backend β] {view : β → Vault}

/-! ## Work on a connection of its own -/

namespace Store

variable {α : Type} {s s' : Store β} {acquirer : Acquirer} {P : List Reply → Outcome α → Prop}
  {o : Outcome α}

/-- **Work on a connection of its own, as the vault sees it**: without a connection nothing is
committed; with one, no transaction is open at first, and all that is sent is a word as `P` says. -/
theorem Leased.follows (h : s.Leased acquirer P o s') (hatomic : Backend.Atomic books view) :
    (∃ e, o = .error e ∧ (view s'.backend).committed = (view s.backend).committed) ∨
    ∃ (n : Nat) (v : Vault) (word : List Reply) (events : List Event),
      v.committed = (view s.backend).committed ∧ v.Closed n ∧
      v.Follows books n word (view s'.backend) ∧ P word o ∧ s'.log = s.log ++ events ∧
      events.filter Event.isSent = word.map fun e => e.request.event n := by
  have hconnect := hatomic.connect (s.attempts + 1) s.backend
  rw [← backend_acquire s acquirer] at hconnect
  cases h with
  | @refused e _ => exact .inl ⟨e, rfl, hconnect.committed⟩
  | given hgiven hrelays hP =>
    obtain ⟨rfl, -⟩ := acquire_ok hgiven
    obtain ⟨word, events, hlog, hsent, hreplies, hword⟩ := (Leased.given hgiven hrelays hP).of_given hgiven
    exact .inr ⟨_, _, word, .acquired acquirer (s.attempts + 1) :: events, hconnect.committed,
      hconnect.own, hatomic.follows hreplies, hword, hlog, hsent⟩

end Store

/-! ## One run -/

namespace Migrator

variable {body : Migration β → Program Unit} {m : Migrator β} {c : Client} {s s' : Store β}
  {o : Outcome (List (Int64 × String))}

/-- How a run goes from a store: it is refused, or the tracking table cannot be created, or its
transaction comes to something. -/
inductive Goes (sql : TransactionSql) (dialect : Dialect) (table : String) (acquirer : Acquirer)
    (body : Migration β → Program Unit) (m : Migrator β) (s : Store β) :
    Outcome (List (Int64 × String)) → Store β → Prop
  | refused {e : Error} : m.checkIds = .error e → Goes sql dialect table acquirer body m s (.error e) s
  | uncreated {e : Error} {s' : Store β} : m.checkIds = .ok () →
      s.Leased .general (fun word o => word = [⟨creating dialect table, o⟩]) (.error e) s' →
      Goes sql dialect table acquirer body m s (.error e) s'
  | transacted {created : ResultSet} {s₁ s' : Store β} {o : Outcome (List (Int64 × String))} :
      m.checkIds = .ok () →
      s.Leased .general (fun word o => word = [⟨creating dialect table, o⟩]) (.ok created) s₁ →
      s₁.Leased acquirer (Transaction.Encloses sql (Undertakes sql dialect table m body)) o s' →
      Goes sql dialect table acquirer body m s o s'

/-- **A run alone finishes**, and goes as runs do. -/
theorem goes_run (h : m.Fits reading dialect table body c) (hanswers : ∀ b : β, Backend.Answers b)
    (s : Store β) :
    ∃ o s', Completes (m.run c).run s o s' ∧
      Goes sql dialect table c.settings.transactionAcquirer body m s o s' := by
  obtain ⟨hscope, rfl, rfl, hquoted, hbodies, -⟩ := h
  simp only [run, hquoted]
  -- a run ends before anything is sent, after the tracking table, or with its transaction
  cases hids : m.checkIds with
  | error e =>
    exact ⟨_, s, Work.completes_bind_error Completes.pure, .refused hids⟩
  | ok =>
    obtain ⟨created, s₁, hcreate, hs₁⟩ := Client.leased_run (s := s)
      (creating c.settings.compiler.dialect table) hscope (hanswers _)
    cases created with
    | error e =>
      have hscript : Completes (c.runScript (createTable c.settings.compiler.dialect table)).run s
          (.error e) s₁ :=
        Work.completes_bind_error hcreate
      exact ⟨_, s₁, Work.completes_bind Completes.pure (Work.completes_bind_error hscript),
        .uncreated hids hs₁⟩
    | ok created =>
      have hscript : Completes (c.runScript (createTable c.settings.compiler.dialect table)).run s
          (.ok ()) s₁ :=
        Work.completes_bind hcreate Completes.pure
      obtain ⟨o, s', hrun, hs'⟩ := Client.leased_transact (s := s₁) (m.applyPending table)
        (Undertakes c.settings.transactionSql c.settings.compiler.dialect table m body)
        hscope (hanswers _) fun scope _ hdepth hready => words_applyPending rfl hdepth hbodies hready
      exact ⟨o, s', Work.completes_bind Completes.pure (Work.completes_bind hscript hrun),
        .transacted hids hs₁ hs'⟩

/-- **What a run has done that returns a result.** `latest` is the latest recorded id before the run,
`applied` are the migrations that are newer, and `inner` is what the transaction of the run sent
between BEGIN and COMMIT. -/
structure Accomplishes (books : Bookkeeping reading dialect table) (view : β → Vault)
    (body : Migration β → Program Unit) (m : Migrator β) (s : Store β)
    (list : List (Int64 × String)) (s' : Store β) (latest : Int64) (applied : List (Migration β))
    (inner : List Reply) : Prop where
  greatest : IsLatest (books.ids (view s.backend).committed) latest
  newer : ∀ one, one ∈ applied ↔ one ∈ m.migrations ∧ latest < one.id
  ascending : applied.Pairwise fun a b => a.id < b.id
  handed : list = applied.map Migration.row
  /-- The body of each of them has run from its start to its end, in this order, and was recorded. -/
  word : ∃ before found word, inner = before ++ ⟨asking table, .ok found⟩ :: word ∧
    Locks dialect table before ∧ Applies sql dialect table body applied word (.ok list)
  /-- Nothing else was sent but what creates the table, opens the transaction and commits it. -/
  sent : ∃ n₁ n₂ events, s'.log = s.log ++ events ∧ events.filter Event.isSent =
    (creating dialect table).event n₁ :: (Request.script sql.begin).event n₂ ::
      (inner.map (fun e => e.request.event n₂) ++ [(Request.script sql.commit).event n₂])
  committed : ∃ created, (view s'.backend).committed = (view s.backend).committed ++
    ⟨creating dialect table, .ok created⟩ :: (Draft.empty.after reading inner).replies
  /-- Exactly these are recorded if they leave the rows of the tracking table alone themselves. -/
  recorded : (∀ one ∈ m.migrations, (body one).Sends books.Spares) →
    books.rows (view s'.backend).committed = books.rows (view s.backend).committed ++ list

/-- **The specification of a run** from one store to another. -/
structure Fulfils (books : Bookkeeping reading dialect table) (view : β → Vault)
    (body : Migration β → Program Unit) (m : Migrator β) (s : Store β)
    (o : Outcome (List (Int64 × String))) (s' : Store β) : Prop where
  /-- A list with a repeated id is refused, and nothing has happened. -/
  refused : ¬ (m.migrations.map (·.id)).Nodup →
    (∃ message, o = .error (.migration .duplicates message)) ∧ s' = s
  /-- A run that fails has committed nothing but, it may be, the creation of the tracking table. -/
  failed : ∀ e, o = .error e →
    books.rows (view s'.backend).committed = books.rows (view s.backend).committed ∧
      ((view s'.backend).committed = (view s.backend).committed ∨ ∃ created,
        (view s'.backend).committed =
          (view s.backend).committed ++ [⟨creating dialect table, created⟩])
  returned : ∀ list, o = .ok list → (m.migrations.map (·.id)).Nodup ∧
    ∃ latest applied inner, Accomplishes books view body m s list s' latest applied inner

/-- What a run does before its transaction: the tracking table is created, or nothing happens. -/
theorem created_of_leased (hatomic : Backend.Atomic books view) {created : Outcome ResultSet}
    (h : s.Leased .general (fun word o => word = [⟨creating dialect table, o⟩]) created s') :
    ((view s'.backend).committed = (view s.backend).committed ++ [⟨creating dialect table, created⟩] ∧
      ∃ n events, s'.log = s.log ++ events ∧
        events.filter Event.isSent = [(creating dialect table).event n]) ∨
    (created.isOk = false ∧ (view s'.backend).committed = (view s.backend).committed) := by
  rcases h.follows hatomic with ⟨e, rfl, hsame⟩ | ⟨n, v, _, events, hsame, hclosed, hfollows, rfl, hlog, hsent⟩
  · exact .inr ⟨rfl, hsame⟩
  · rcases hfollows.single.alone hclosed (books.plain .creating) with hmore | ⟨hnone, hfailed⟩
    · exact .inl ⟨hsame ▸ hmore, n, events, hlog, hsent⟩
    · exact .inr ⟨hfailed, hnone.trans hsame⟩

/-- Who asks for the latest recorded id behind the lock is told that of all that is committed. -/
theorem isLatest_of_follows {n : Nat} {v v' : Vault} {before word : List Reply} {found : ResultSet}
    {latest : Int64} (h : v.Follows books n (before ++ ⟨asking table, .ok found⟩ :: word) v')
    (hd : v.Drafts n .empty) (hlocks : Locks dialect table before)
    (hlatest : latestOf found = .ok latest) : IsLatest (books.ids v.committed) latest := by
  obtain ⟨v₁, hbefore, hrest⟩ := h.split
  obtain ⟨v₂, hask, -⟩ := hrest.first
  obtain ⟨hcommitted, hd₁⟩ := hbefore.drafts hd fun e he =>
    Reply.Plain.inner (books.plain (hlocks.prepares e he))
  have hfound := hask.latest rfl hlatest
  have hown : ∀ e ∈ (v₁.session n).replies, books.Spares e.request := by
    rcases hd₁ with ⟨_, hinside⟩ | hlost
    · rw [hinside, Vault.Session.replies, hlocks.after books]
      exact fun e he => books.keeps (hlocks.prepares e he)
    · rw [hlost]
      exact List.forall_mem_nil _
  rwa [Bookkeeping.ids, Bookkeeping.rows_spared hown, hcommitted] at hfound

/-- The transaction of a run, as the vault sees it: all of it is committed, or nothing. -/
theorem enclosed_of_leased {acquirer : Acquirer} (hatomic : Backend.Atomic books view)
    (hplain : ∀ one ∈ m.migrations, (body one).Sends fun r => reading.control? r.sql = none)
    (h : s.Leased acquirer (Transaction.Encloses sql (Undertakes sql dialect table m body)) o s') :
    match o with
    | .error _ => (view s'.backend).committed = (view s.backend).committed
    | .ok list => ∃ (inner : List Reply) (n : Nat) (v v' : Vault) (events : List Event),
        Undertakes sql dialect table m body inner (.ok list) ∧
        v.committed = (view s.backend).committed ∧ v.Drafts n .empty ∧ v.Follows books n inner v' ∧
        (view s'.backend).committed =
          (view s.backend).committed ++ (Draft.empty.after reading inner).replies ∧
        s'.log = s.log ++ events ∧ events.filter Event.isSent = (Request.script sql.begin).event n ::
          (inner.map (fun e => e.request.event n) ++ [(Request.script sql.commit).event n]) := by
  rcases h.follows hatomic with ⟨e, rfl, hsame⟩ | ⟨n, v, word, events, hsame, hclosed, hfollows, hword, hlog, hsent⟩
  · exact hsame
  · have hall := hfollows.enclosed hclosed hword fun inner o hinner => hinner.inner books hplain
    cases o with
    | error e => exact hall.trans hsame
    | ok list =>
      obtain ⟨begun, done, inner, v₁, v₂, rfl, hinner, hv₁, hsound, hinside, hcommit⟩ := hall
      obtain ⟨front, e, rfl, -, hok⟩ := hinner.last books
      have hcommitted := hcommit (hinside.sound hsound.drafts (hinner.inner books hplain) hok)
      rw [hsame] at hcommitted hv₁
      exact ⟨_, n, v₁, v₂, events, hinner, hv₁, hsound.drafts, hinside, hcommitted, hlog, by simpa using hsent⟩

/-- **A run keeps to its specification**, wherever it fails. -/
theorem Goes.fulfils {acquirer : Acquirer} (h : Goes sql dialect table acquirer body m s o s')
    (hatomic : Backend.Atomic books view)
    (hplain : ∀ one ∈ m.migrations, (body one).Sends fun r => reading.control? r.sql = none) :
    Fulfils books view body m s o s' := by
  have hcreating : ∀ past o, books.rows (past ++ [⟨creating dialect table, o⟩]) = books.rows past :=
    books.keeps .creating
  cases h with
  | @refused e hids =>
    refine ⟨fun hrepeated => ?_, fun _ _ => ⟨rfl, .inl rfl⟩, fun list hlist => by cases hlist⟩
    obtain ⟨message, herror⟩ := checkIds_error hrepeated
    obtain rfl := Except.error.inj (hids.symm.trans herror)
    exact ⟨⟨message, rfl⟩, rfl⟩
  | uncreated hids hcreate =>
    refine ⟨fun hrepeated => absurd (nodup_of_checkIds hids) hrepeated, fun _ _ => ?_,
      fun list hlist => by cases hlist⟩
    rcases created_of_leased hatomic hcreate with ⟨hmore, -⟩ | ⟨-, hsame⟩
    · rw [hmore]
      exact ⟨hcreating _ _, .inr ⟨_, rfl⟩⟩
    · rw [hsame]
      exact ⟨rfl, .inl rfl⟩
  | @transacted created s₁ _ _ hids hcreate htransact =>
    have hnodup := nodup_of_checkIds hids
    have hall := enclosed_of_leased hatomic hplain htransact
    rcases created_of_leased hatomic hcreate with ⟨hmore, n₁, events₁, hlog₁, hsent₁⟩ | ⟨⟨⟩, -⟩
    refine ⟨fun hrepeated => absurd hnodup hrepeated, ?_, ?_⟩
    · rintro e rfl
      rw [hall, hmore]
      exact ⟨hcreating _ _, .inr ⟨_, rfl⟩⟩
    · rintro list rfl
      obtain ⟨_, n, v, v', events, hinner, hv, hd, hfollows, hcommitted, hlog, hsent⟩ := hall
      cases hinner with
      | @read before word found latest _ hlocks hlatest happlies =>
        -- nobody else moves in between, so the id that was asked for is the latest of all
        have hfound := isLatest_of_follows hfollows hd hlocks hlatest
        rw [hv, hmore, Bookkeeping.ids, hcreating] at hfound
        refine ⟨hnodup, latest, m.pending latest, _, hfound, fun one => mem_pending,
          pairwise_pending hnodup, happlies.rows_eq, ⟨before, found, word, rfl, hlocks, happlies⟩,
          ⟨n₁, n, events₁ ++ events, ?_, ?_⟩, ⟨created, ?_⟩, fun hspares => ?_⟩
        · rw [hlog, hlog₁, List.append_assoc]
        · rw [List.filter_append, hsent₁, hsent]
          rfl
        · rw [hcommitted, hmore, List.append_assoc]
          rfl
        · have hrows := rows_of_applies (view s₁.backend).committed found hlocks happlies
            (fun one hone => hplain one (mem_pending.1 hone).1)
            fun one hone => hspares one (mem_pending.1 hone).1
          rw [hcommitted, hrows, hmore, hcreating]

/-! ## Runs one after another -/

section After

variable {list : List (Int64 × String)} {latest latest' : Int64} {applied : List (Migration β)}
  {inner : List Reply}

omit [Backend β] in
/-- What a run has recorded is newer than what was recorded before. -/
theorem Accomplishes.newer_ids (h : Accomplishes books view body m s list s' latest applied inner) :
    ∀ id ∈ list.map (·.1), latest < id := by
  rw [h.handed, List.map_map]
  refine List.forall_mem_map.2 fun one hone => ?_
  exact ((h.newer one).1 hone).2

omit [Backend β] in
theorem Accomplishes.ids_eq (h : Accomplishes books view body m s list s' latest applied inner)
    (hspares : ∀ one ∈ m.migrations, (body one).Sends books.Spares) :
    books.ids (view s'.backend).committed =
      books.ids (view s.backend).committed ++ list.map (·.1) := by
  rw [Bookkeeping.ids, h.recorded hspares, List.map_append, Bookkeeping.ids]

omit [Backend β] in
/-- What is applied is known by its members, as it stands in ascending order. -/
theorem Accomplishes.applied_eq {newer : List (Migration β)}
    (h : Accomplishes books view body m s list s' latest applied inner)
    (hnewer : ∀ one, one ∈ newer ↔ one ∈ m.migrations ∧ latest < one.id)
    (hascending : newer.Pairwise fun a b => a.id < b.id) : applied = newer := by
  have hsame : applied.Perm newer := by
    refine (List.perm_ext_iff_of_nodup (nodup_of_ascending h.ascending)
      (nodup_of_ascending hascending)).2 fun one => ?_
    rw [h.newer, hnewer]
  refine List.Perm.eq_of_pairwise (fun a b _ _ hab hba => ?_) h.ascending hascending hsame
  exact absurd (Int64.lt_trans hab hba) Int64.lt_irrefl

omit [Backend β] in
/-- All of a list are applied exactly if all of it are newer than what is recorded. -/
theorem Accomplishes.perm_iff (h : Accomplishes books view body m s list s' latest applied inner)
    (hids : (m.migrations.map (·.id)).Nodup) :
    applied.Perm m.migrations ↔ ∀ one ∈ m.migrations, latest < one.id := by
  have hlist : m.migrations.Nodup :=
    (List.pairwise_map.1 hids).imp fun hne hsame => hne (congrArg Migration.id hsame)
  rw [List.perm_ext_iff_of_nodup (nodup_of_ascending h.ascending) hlist]
  refine forall_congr' fun one => ?_
  rw [h.newer]
  exact ⟨fun hall hone => (hall.2 hone).2, fun hall => ⟨And.left, fun hone => ⟨hone, hall hone⟩⟩⟩

omit [Backend β] in
/-- Nothing is applied where no migration is newer than what is recorded. -/
theorem Accomplishes.eq_nil (h : Accomplishes books view body m s list s' latest applied inner)
    (hle : ∀ one ∈ m.migrations, one.id ≤ latest) : list = [] := by
  have hnone : applied = [] := by
    refine List.eq_nil_iff_forall_not_mem.2 fun one hone => ?_
    obtain ⟨hmem, hnewer⟩ := (h.newer one).1 hone
    exact Int64.lt_irrefl (Int64.lt_of_lt_of_le hnewer (hle one hmem))
  rw [h.handed, hnone, List.map_nil]

omit [Backend β] in
/-- Once a run has returned a result, no migration of its list is newer than what is recorded. -/
theorem Accomplishes.caught_up (h : Accomplishes books view body m s list s' latest applied inner)
    (hspares : ∀ one ∈ m.migrations, (body one).Sends books.Spares)
    (h' : IsLatest (books.ids (view s'.backend).committed) latest') :
    ∀ one ∈ m.migrations, one.id ≤ latest' := by
  rw [h.ids_eq hspares] at h'
  intro one hone
  rcases Int64.le_total one.id latest with hle | hle
  · exact Int64.le_trans hle (h.greatest.le_of_append h.newer_ids h')
  by_cases heq : one.id = latest
  · rw [heq]
    exact h.greatest.le_of_append h.newer_ids h'
  -- what was newer has been recorded by now
  have hmem : one ∈ applied := (h.newer one).2 ⟨hone, Int64.lt_of_le_of_ne hle (Ne.symm heq)⟩
  refine h'.le _ (List.mem_append_right _ ?_)
  rw [h.handed, List.map_map]
  exact List.mem_map.2 ⟨one, hmem, rfl⟩

end After

omit [Backend β] in
/-- **No id is recorded twice** by a run. -/
theorem Fulfils.nodup (h : Fulfils books view body m s o s')
    (hspares : ∀ one ∈ m.migrations, (body one).Sends books.Spares)
    (hids : (books.ids (view s.backend).committed).Nodup) :
    (books.ids (view s'.backend).committed).Nodup := by
  cases o with
  | error e => rwa [Bookkeeping.ids, (h.failed e rfl).1]
  | ok list =>
    obtain ⟨-, latest, applied, inner, hdone⟩ := h.returned list rfl
    rw [hdone.ids_eq hspares]
    refine List.nodup_append.2 ⟨hids, ?_, ?_⟩
    · rw [hdone.handed, List.map_map]
      exact List.pairwise_map.2 (hdone.ascending.imp Int64.ne_of_lt)
    · rintro id hid _ hid' rfl
      have hle := hdone.greatest.le _ hid
      exact Int64.lt_irrefl (Int64.lt_of_lt_of_le (hdone.newer_ids _ hid') hle)

omit [Backend β] in
/-- **A run after one that has returned a result for the same list applies nothing.** -/
theorem Fulfils.again {m' : Migrator β} {s₁ : Store β} {list : List (Int64 × String)}
    (h : Fulfils books view body m s (.ok list) s₁)
    (hspares : ∀ one ∈ m.migrations, (body one).Sends books.Spares)
    (hsame : m'.migrations = m.migrations) (h' : Fulfils books view body m' s₁ o s') :
    (∀ list', o = .ok list' → list' = []) ∧
      books.rows (view s'.backend).committed = books.rows (view s₁.backend).committed := by
  cases o with
  | error e => exact ⟨fun _ hlist => (by cases hlist), (h'.failed e rfl).1⟩
  | ok list' =>
  obtain ⟨-, latest, applied, inner, hdone⟩ := h.returned _ rfl
  obtain ⟨-, latest', applied', inner', hdone'⟩ := h'.returned _ rfl
  obtain rfl : list' = [] :=
    hdone'.eq_nil (hsame ▸ hdone.caught_up hspares hdone'.greatest)
  refine ⟨fun _ hlist => (Except.ok.inj hlist).symm, ?_⟩
  rw [hdone'.recorded (hsame ▸ hspares), List.append_nil]

/-- A call of `run`: what it was called with and came to, and the stores before and after it. -/
structure Call (β : Type) where
  migrator : Migrator β
  client : Client
  before : Store β
  outcome : Outcome (List (Int64 × String))
  after : Store β

/-- Calls one after another, each alone from the store that the one before it has left. -/
inductive Series : Store β → List (Call β) → Store β → Prop
  | none {s : Store β} : Series s [] s
  | next {call : Call β} {rest : List (Call β)} {s s' : Store β} : call.before = s →
      FinishesAlone (call.migrator.run call.client).run call.before call.outcome call.after →
      Series call.after rest s' → Series s (call :: rest) s'

/-- What a run that is as runs are meant to be comes to keeps to the specification. -/
theorem Fits.fulfils (h : m.Fits reading dialect table body c) (hatomic : Backend.Atomic books view)
    (hanswers : ∀ b : β, Backend.Answers b) (hrun : FinishesAlone (m.run c).run s o s') :
    Fulfils books view body m s o s' := by
  obtain ⟨o', s'', hrun', hgoes⟩ := goes_run h hanswers s
  obtain ⟨rfl, rfl⟩ := (finishesAlone_of_completes hrun').unique hrun
  exact hgoes.fulfils hatomic h.plain

namespace Series

variable {calls earlier later : List (Call β)} {first second : Call β}

theorem fulfils (h : Series s calls s') (hatomic : Backend.Atomic books view)
    (hanswers : ∀ b : β, Backend.Answers b)
    (hfits : ∀ call ∈ calls, call.migrator.Fits reading dialect table body call.client) :
    ∀ call ∈ calls, Fulfils books view body call.migrator call.before call.outcome call.after := by
  induction h with
  | none => exact List.forall_mem_nil _
  | next _ hrun _ ih =>
    refine List.forall_mem_cons.2 ⟨(hfits _ (.head _)).fulfils hatomic hanswers hrun, ?_⟩
    exact ih fun call hcall => hfits call (.tail _ hcall)

/-- No id is recorded twice by a series, by induction on its calls. -/
theorem nodup (h : Series s calls s')
    (hfulfils : ∀ call ∈ calls,
      Fulfils books view body call.migrator call.before call.outcome call.after)
    (hspares : ∀ call ∈ calls, ∀ one ∈ call.migrator.migrations, (body one).Sends books.Spares)
    (hids : (books.ids (view s.backend).committed).Nodup) :
    (books.ids (view s'.backend).committed).Nodup := by
  induction h with
  | none => exact hids
  | next hbefore _ _ ih =>
    subst hbefore
    exact ih (fun call hcall => hfulfils call (.tail _ hcall))
      (fun call hcall => hspares call (.tail _ hcall))
      ((hfulfils _ (.head _)).nodup (hspares _ (.head _)) hids)

/-- A call begins where the one before it has ended. -/
theorem adjacent (h : Series s (earlier ++ first :: second :: later) s') :
    second.before = first.after := by
  induction earlier generalizing s with
  | nil =>
    cases h with
    | next _ _ hrest =>
      cases hrest with
      | next hbefore => exact hbefore
  | cons _ _ ih =>
    cases h with
    | next _ _ hrest => exact ih hrest

end Series

end Migrator

/-! ## On an ideal database -/

namespace IdealDatabase

variable {n : Nat} {b b' : IdealDatabase books} {word : List Reply}

/-- No transaction is open. -/
def Idle (b : IdealDatabase books) : Prop := ∀ m, b.draft? m = none

/-- Nobody holds the lock of the tracking table if no other transaction is open. -/
theorem isLockedOut_eq_false (h : ∀ m, m ≠ n → b.draft? m = none) : b.isLockedOut n = false := by
  rw [isLockedOut, List.any_eq_false]
  intro entry _
  by_cases hentry : entry.1 = n
  · simp [hentry]
  · simp [h _ hentry]

/-- While no other transaction is open, an ideal database fails nothing, and tells the latest recorded
id. -/
theorem ok_of_replies (h : Backend.Replies n b word b') (hidle : ∀ m, m ≠ n → b.draft? m = none) :
    (∀ e ∈ word, e.outcome.isOk = true) ∧
      (∀ found, ⟨Migrator.asking table, .ok found⟩ ∈ word → (Migrator.latestOf found).isOk = true) ∧
      ∀ m, m ≠ n → b'.draft? m = none := by
  induction h with
  | none => exact ⟨List.forall_mem_nil _, fun _ => List.not_mem_nil.elim, hidle⟩
  | @more b b₁ _ r o _ hresponse _ ih =>
    have hanswer : o = .ok (b.rowsFor n r) := by
      have hoftype : b.outcome n r = o := Response.answer.inj (congrArg Prod.fst hresponse)
      rw [← hoftype, outcome, isLockedOut_eq_false hidle, if_neg (by simp)]
    obtain rfl : b.take n ⟨r, b.outcome n r⟩ = b₁ := congrArg Prod.snd hresponse
    obtain ⟨hrest, hread, hidle'⟩ := ih fun m hm => by rw [draft?_take, if_neg hm, hidle m hm]
    subst hanswer
    refine ⟨List.forall_mem_cons.2 ⟨rfl, hrest⟩, fun found hfound => ?_, hidle'⟩
    rcases List.mem_cons.1 hfound with heq | hfound
    · obtain ⟨rfl, hrows⟩ := Reply.mk.inj heq
      rw [Except.ok.inj hrows, latestOf_rowsFor]
      rfl
    · exact hread found hfound

/-- Everyone gets a connection of an ideal database. -/
theorem word_of_leased {α : Type} {acquirer : Acquirer} {P : List Reply → Outcome α → Prop}
    {s s' : Store (IdealDatabase books)} {o : Outcome α} (h : s.Leased acquirer P o s')
    (hidle : s.backend.Idle) :
    ∃ n b word, Idle b ∧ Backend.Replies n b word s'.backend ∧ P word o := by
  cases h with
  | refused hrefused => cases hrefused
  | @given n word _ s₁ hgiven hrelays hP =>
    refine ⟨n, _, word, fun m => ?_, by rw [Store.backend_letGo]; exact hrelays.replies, hP⟩
    rw [Store.backend_acquire]
    change (s.backend.put (s.attempts + 1) none).draft? m = none
    rw [draft?_put, hidle m]
    split <;> rfl

/-- What replies make of the transaction of their connection. -/
theorem draft?_of_replies (h : Backend.Replies n b word b') :
    b'.draft? n = word.foldl (fun d e => (Draft.step reading e d).1) (b.draft? n) := by
  induction h with
  | none => rfl
  | @more b b₁ _ r o _ hresponse _ ih =>
    have hoftype : b.outcome n r = o := Response.answer.inj (congrArg Prod.fst hresponse)
    obtain rfl : b.take n ⟨r, b.outcome n r⟩ = b₁ := congrArg Prod.snd hresponse
    rw [ih, draft?_take, if_pos rfl, hoftype]
    rfl

/-- **A run on an ideal database returns a result** while nobody else has a transaction open, if no id
is repeated and the bodies come to a result when all their statements succeed. It leaves none open. -/
theorem isOk_of_goes {acquirer : Acquirer} {body : Migration (IdealDatabase books) → Program Unit}
    {m : Migrator (IdealDatabase books)} {s s' : Store (IdealDatabase books)}
    {o : Outcome (List (Int64 × String))}
    (h : Migrator.Goes sql dialect table acquirer body m s o s') (hidle : s.backend.Idle)
    (hids : (m.migrations.map (·.id)).Nodup)
    (hbody : ∀ one ∈ m.migrations, (body one).Dependable sql) :
    o.isOk = true ∧ s'.backend.Idle := by
  have hleaves : ∀ {n : Nat} {b b' : IdealDatabase books} {word : List Reply}, b.Idle →
      Backend.Replies n b word b' → b'.draft? n = none → b'.Idle := by
    intro n b b' word hb hreplies hn m
    by_cases hm : m = n
    · rw [hm, hn]
    · exact (ok_of_replies hreplies fun m _ => hb m).2.2 m hm
  cases h with
  | refused hrefused =>
    rw [Migrator.checkIds_ok hids] at hrefused
    cases hrefused
  | uncreated _ hcreate =>
    obtain ⟨_, _, _, hb, hreplies, rfl⟩ := word_of_leased hcreate hidle
    cases (ok_of_replies hreplies fun m _ => hb m).1 _ (.head _)
  | transacted _ hcreate htransact =>
    obtain ⟨n, _, _, hb, hreplies, rfl⟩ := word_of_leased hcreate hidle
    have hidle₁ := hleaves hb hreplies (by
      rw [draft?_of_replies hreplies, hb]
      simp [Draft.step, books.plain .creating])
    obtain ⟨n, _, _, hb, hreplies, hword⟩ := word_of_leased htransact hidle₁
    obtain ⟨hall, hread, -⟩ := ok_of_replies hreplies fun m _ => hb m
    obtain ⟨hok, begun, done, inner, rfl⟩ := Migrator.Undertakes.committed hword hall hread hbody
    refine ⟨hok, hleaves hb hreplies ?_⟩
    rw [draft?_of_replies hreplies, List.foldl_cons, List.foldl_append, List.foldl_cons, List.foldl_nil]
    have hcommit : ∀ o (d : Option Draft),
        (Draft.step reading ⟨.script sql.commit, o⟩ d).1 = none := by
      intro o d
      cases d <;> simp [Draft.step, Request.sql, reading.commit]
    exact hcommit _ _

end IdealDatabase

namespace Migrator

/-! ### Two scripts -/

section TwoScripts

/-- The tracking table of a dialect, under its default name. -/
abbrev tableOf (d : Dialect) : String := (Compiler.ofDialect d).quoteIdentifier defaultTable

abbrev booksOf (d : Dialect) : Bookkeeping (.ofDialect d) d (tableOf d) := bookkeeping d (tableOf d)

/-- A client outside transactions. -/
def clientOf (d : Dialect) : Client := ⟨⟨.ofDialect d, .ofDialect d, .general, none⟩, none, 0⟩

/-- Two scripts. -/
def people : Migration β := ⟨1, "people", .script "CREATE TABLE people"⟩

def pets : Migration β := ⟨2, "pets", .script "CREATE TABLE pets"⟩

/-- The later one comes first. -/
def twoScripts : Migrator β := ⟨[pets, people], defaultTable⟩

/-- The programs of scripts. -/
def scriptOf (one : Migration β) : Program Unit :=
  match one.source with
  | .script text => Migration.script text
  | .code _ => .finish (.ok ())

variable {d : Dialect}

theorem twoScripts_fits :
    (twoScripts : Migrator β).Fits (.ofDialect d) d (tableOf d) scriptOf (clientOf d) where
  scope := rfl
  transactionSql := rfl
  compiler := by cases d <;> rfl
  quoted := rfl
  bodies := by
    rintro one (_ | ⟨_, _ | ⟨_, ⟨⟩⟩⟩) <;> exact Migration.change_script rfl
  plain := by
    rintro one (_ | ⟨_, _ | ⟨_, ⟨⟩⟩⟩) <;> exact ⟨by cases d <;> decide, fun _ => trivial⟩

omit [Backend β] in
/-- A script leaves the rows of the tracking table alone. -/
theorem scriptOf_spares (one : Migration β) : (scriptOf one).Sends (booksOf d).Spares := by
  obtain ⟨id, name, source⟩ := one
  cases source with
  | code => trivial
  | script => exact ⟨fun past o => by simp [bookkeeping, rowOf?], fun _ => trivial⟩

omit [Backend β] in
theorem twoScripts_spares :
    ∀ one ∈ (twoScripts : Migrator β).migrations, (scriptOf one).Sends (booksOf d).Spares :=
  fun one _ => scriptOf_spares one

omit [Backend β] in
theorem dependable_scriptOf (one : Migration β) : (scriptOf one).Dependable sql := by
  obtain ⟨id, name, source⟩ := one
  intro inner o h hinner
  cases source with
  | code =>
    cases h
    rfl
  | script text =>
    obtain _ | @⟨_, _, _, _, done, _, _, ⟨⟩⟩ := h
    have hdone := hinner _ (.head _)
    cases done with
    | error => cases hdone
    | ok => rfl

/-- What two scripts have accomplished that were run on an ideal database. -/
def TwoScripts (s : Store (IdealDatabase (booksOf d))) (list : List (Int64 × String))
    (s' : Store (IdealDatabase (booksOf d))) : Prop :=
  ∃ latest applied inner,
    Accomplishes (booksOf d) IdealDatabase.view scriptOf twoScripts s list s' latest applied inner

/-- While nobody else has a transaction open, two scripts return a result. -/
theorem twoScripts_returns {s : Store (IdealDatabase (booksOf d))} (hidle : s.backend.Idle) :
    ∃ list s', Completes (twoScripts.run (clientOf d)).run s (.ok list) s' ∧ s'.backend.Idle ∧
      TwoScripts s list s' := by
  have hids : ((twoScripts : Migrator (IdealDatabase (booksOf d))).migrations.map (·.id)).Nodup := by
    change ([2, 1] : List Int64).Nodup
    decide
  obtain ⟨o, s', hrun, hgoes⟩ := goes_run twoScripts_fits IdealDatabase.answers s
  obtain ⟨hok, hidle'⟩ := IdealDatabase.isOk_of_goes hgoes hidle hids
    fun one _ => dependable_scriptOf one
  cases o with
  | error => cases hok
  | ok list =>
    have hfulfils := hgoes.fulfils (IdealDatabase.atomic (booksOf d)) twoScripts_fits.plain
    exact ⟨list, s', hrun, hidle', (hfulfils.returned list rfl).2⟩

variable {s s' : Store (IdealDatabase (booksOf d))} {list : List (Int64 × String)}

/-- If nothing is recorded, both are applied, in the order of their ids. -/
theorem TwoScripts.first (h : TwoScripts s list s')
    (hnone : (booksOf d).rows (IdealDatabase.view s.backend).committed = []) :
    list = [(1, "people"), (2, "pets")] ∧
      (booksOf d).rows (IdealDatabase.view s'.backend).committed = [(1, "people"), (2, "pets")] := by
  obtain ⟨latest, applied, inner, hdone⟩ := h
  obtain rfl : latest = 0 := by
    rcases hdone.greatest with ⟨-, hzero⟩ | ⟨hmem, -⟩
    · exact hzero
    · rw [Bookkeeping.ids, hnone] at hmem
      cases hmem
  have happlied : applied = [people, pets] := by
    have hpositive : (0 : Int64) < 1 ∧ (0 : Int64) < 2 := by decide
    refine hdone.applied_eq (fun one => ?_) (by simp [people, pets])
    constructor
    · rintro (_ | ⟨_, _ | ⟨_, ⟨⟩⟩⟩)
      · exact ⟨by simp [twoScripts], hpositive.1⟩
      · exact ⟨by simp [twoScripts], hpositive.2⟩
    · rintro ⟨_ | ⟨_, _ | ⟨_, ⟨⟩⟩⟩, -⟩ <;> simp
  obtain rfl : list = [(1, "people"), (2, "pets")] := by rw [hdone.handed, happlied]; rfl
  exact ⟨rfl, by rw [hdone.recorded twoScripts_spares, hnone, List.nil_append]⟩

/-- If both are recorded, nothing is applied. -/
theorem TwoScripts.again (h : TwoScripts s list s') (hboth :
    (booksOf d).rows (IdealDatabase.view s.backend).committed = [(1, "people"), (2, "pets")]) :
    list = [] ∧
      (booksOf d).rows (IdealDatabase.view s'.backend).committed = [(1, "people"), (2, "pets")] := by
  obtain ⟨latest, applied, inner, hdone⟩ := h
  obtain rfl : list = [] := by
    refine hdone.eq_nil fun one hmem => hdone.greatest.le _ ?_
    rw [Bookkeeping.ids, hboth]
    rcases hmem with _ | ⟨_, _ | ⟨_, ⟨⟩⟩⟩ <;> simp [people, pets]
  exact ⟨rfl, by rw [hdone.recorded twoScripts_spares, hboth, List.append_nil]⟩

end TwoScripts

end Migrator

end SqlClient
