import SqlClient.Proofs.Client.Tracking
import SqlClient.Proofs.Migration.Effects
import SqlClient.Proofs.Transaction.Stages
/-!
# Migrations — the phases of a run

How far a run has come that has others beside it: whether it has a connection, what is in its
transaction, and what it has been told of the recorded ids. `Phase.Turns` says once which replies a run
gets in a phase and which phase it is in afterwards, and `Deed` what it may do in one move. The code of
a run keeps to both (`tracks_run`): it asks for the latest recorded id only when it has got the lock,
and commits only rows that are newer than what it was told.
-/

namespace SqlClient

open Coroutine

variable {sql : TransactionSql} {reading : sql.Reading} {dialect : Dialect} {table : String}
  {books : Bookkeeping reading dialect table}

/-! ## Locks -/

/-- A transaction has got a lock. -/
def Draft.Has (lock : Request) (d : Draft) : Prop := ∃ done, ⟨lock, .ok done⟩ ∈ d.replies

theorem Draft.Extends.has {depth : Nat} {Q : Request → Prop} {lock : Request} {d d' : Draft}
    (h : d.Extends depth Q d') (hd : d.Has lock) : d'.Has lock := by
  obtain ⟨kept, hkept, -⟩ := h.replies
  obtain ⟨done, hdone⟩ := hd
  exact ⟨done, hkept ▸ List.mem_append_left _ hdone⟩

/-- A statement that is no transaction control takes nothing back. -/
theorem Draft.Has.plain {lock : Request} {d : Draft} {e : Reply} (hd : d.Has lock)
    (he : e.Plain reading) : (d.take reading e).Has lock := by
  obtain ⟨done, hdone⟩ := hd
  rw [Draft.take_plain he]
  exact ⟨done, List.mem_append_left _ hdone⟩

/-! ## Rows -/

namespace Bookkeeping

variable {word word' : List Reply} {rows rows' : List (Int64 × String)}

/-- Some replies add rows to the tracking table, whatever was replied before them. -/
def Adds (books : Bookkeeping reading dialect table) (word : List Reply)
    (rows : List (Int64 × String)) : Prop :=
  ∀ past, books.rows (past ++ word) = books.rows past ++ rows

theorem Adds.append (h : books.Adds word rows) (h' : books.Adds word' rows') :
    books.Adds (word ++ word') (rows ++ rows') := by
  intro past
  rw [← List.append_assoc, h', h, List.append_assoc]

theorem adds_of_spares (h : ∀ e ∈ word, books.Spares e.request) : books.Adds word [] := by
  intro past
  rw [rows_spared h, List.append_nil]

/-- What leaves the table alone may come behind. -/
theorem Adds.extends {depth : Nat} {d d' : Draft} (h : books.Adds d.replies rows)
    (hextends : d.Extends depth books.Spares d') : books.Adds d'.replies rows := by
  obtain ⟨kept, hkept, hspares⟩ := hextends.replies
  rw [hkept, ← List.append_nil rows]
  exact h.append (adds_of_spares hspares)

/-- So may one more reply. -/
theorem Adds.take {d : Draft} {e : Reply} (h : books.Adds d.replies rows) (he : e.Plain reading)
    (h' : books.Adds [e] rows') : books.Adds (d.take reading e).replies (rows ++ rows') := by
  rw [Draft.take_plain he]
  exact h.append h'

theorem adds_recording (books : Bookkeeping reading dialect table) (row : Int64 × String)
    (done : ResultSet) : books.Adds [⟨Migrator.recording dialect table row, .ok done⟩] [row] :=
  fun past => books.records past row done

end Bookkeeping

/-! ## Phases -/

namespace Migrator

/-- How far a run has come. -/
inductive Phase
  /-- It has no connection, and has committed these rows. -/
  | away (share : List (Int64 × String))
  /-- It has a connection on which no transaction is open. -/
  | waiting (n : Nat)
  /-- Its transaction is open. `sound` says whether the last statement has succeeded, and `latest` is
  what it was told is the latest recorded id. -/
  | working (n : Nat) (d : Draft) (sound : Bool) (latest : Option Int64)
  /-- It has closed its transaction, which has committed these rows. -/
  | closing (n : Nat) (share : List (Int64 × String))

namespace Phase

/-- The rows that a run has committed. -/
def share : Phase → List (Int64 × String)
  | away share | closing _ share => share
  | waiting _ | working _ _ _ _ => []

/-- The connection of a run. -/
def connection? : Phase → Option Nat
  | away _ => none
  | waiting n | working n _ _ _ | closing n _ => some n

/-- **The replies that a run gets**, and the phase that it is in after each. -/
inductive Turns (books : Bookkeeping reading dialect table) (lock : Request) (n : Nat) (e : Reply) :
    Phase → Phase → Prop
  | alone : e.Plain reading → books.Spares e.request → Turns books lock n e (.waiting n) (.waiting n)
  | begun : reading.control? e.request.sql = some .begin →
      Turns books lock n e (.waiting n)
        (if e.outcome.isOk then .working n .empty true none else .closing n [])
  /-- Nothing comes before the lock. -/
  | locked : e.request = lock → e.Plain reading →
      Turns books lock n e (.working n .empty true none)
        (.working n (Draft.empty.take reading e) e.outcome.isOk none)
  /-- All else is done behind the lock, and keeps it. -/
  | worked {d : Draft} {sound : Bool} {latest : Option Int64} : e.Inner reading → d.Has lock →
      (d.take reading e).Has lock →
      Turns books lock n e (.working n d sound latest)
        (.working n (d.take reading e) e.outcome.isOk latest)
  /-- The latest recorded id is asked for before anything is recorded. -/
  | asked {d : Draft} {sound : Bool} {found : ResultSet} {id : Int64} : e = ⟨asking table, .ok found⟩ →
      latestOf found = .ok id → d.Has lock → books.Adds d.replies [] →
      Turns books lock n e (.working n d sound none) (.working n (d.take reading e) true (some id))
  /-- Rows are committed that are newer than that. -/
  | committed {d : Draft} {id : Int64} {share : List (Int64 × String)} :
      reading.control? e.request.sql = some .commit → e.outcome.isOk = true →
      books.Adds d.replies share → (share.map (·.1)).Pairwise (· < ·) → (∀ row ∈ share, id < row.1) →
      Turns books lock n e (.working n d true (some id)) (.closing n share)
  | uncommitted {d : Draft} {sound : Bool} {latest : Option Int64} :
      reading.control? e.request.sql = some .commit → e.outcome.isOk = false →
      Turns books lock n e (.working n d sound latest) (.closing n [])
  | undone {d : Draft} {sound : Bool} {latest : Option Int64} :
      reading.control? e.request.sql = some .rollback →
      Turns books lock n e (.working n d sound latest) (.closing n [])
  /-- A ROLLBACK may follow a COMMIT that has failed. -/
  | undoneAgain {share : List (Int64 × String)} :
      reading.control? e.request.sql = some .rollback →
      Turns books lock n e (.closing n share) (.closing n share)

end Phase

end Migrator

/-! ## Deeds -/

variable {β : Type} {view : β → Vault} {lock : Request}

/-- A change that no connection is concerned in, but that some may be lost. -/
structure Store.Aside (view : β → Vault) (s s' : Store β) : Prop where
  attempts : s'.attempts = s.attempts
  fades : (view s.backend).Fades (view s'.backend)

namespace Store

variable {s s' : Store β} {n : Nat}

theorem aside_of_backend (hbackend : s'.backend = s.backend) (hattempts : s'.attempts = s.attempts) :
    s.Aside view s' :=
  ⟨hattempts, hbackend ▸ ⟨rfl, fun _ => .inl rfl⟩⟩

theorem aside_letGo (n : Nat) (s : Store β) : s.Aside view (s.letGo n) := by
  refine aside_of_backend (s.backend_letGo n) ?_
  rw [letGo]
  split <;> rfl

theorem aside_endScope (scope : Scope) (s : Store β) : s.Aside view (s.endScope scope) := by
  refine aside_of_backend ?_ (s.attempts_endScope scope)
  rw [endScope]
  split <;> rfl

end Store

namespace Migrator

/-- **What a run may do in a move.** -/
inductive Deed (books : Bookkeeping reading dialect table) (lock : Request) (view : β → Vault) :
    Acts (Store β) Phase
  | aside {γ : Phase} {s s' : Store β} : s.Aside view s' → Deed books lock view γ s γ s'
  /-- Asks for a connection, which may be refused. -/
  | connects {γ : Phase} {s s' : Store β} : γ = .away [] ∨ γ = .waiting (s.attempts + 1) →
      (view s.backend).Connects (s.attempts + 1) (view s'.backend) → s'.attempts = s.attempts + 1 →
      Deed books lock view (.away []) s γ s'
  | leaves {n : Nat} {s s' : Store β} : s.Aside view s' →
      Deed books lock view (.waiting n) s (.away []) s'
  | leavesClosed {n : Nat} {share : List (Int64 × String)} {s s' : Store β} : s.Aside view s' →
      Deed books lock view (.closing n share) s (.away share) s'
  /-- Gets a reply. If that is the lock, no other connection has it. -/
  | answered {n : Nat} {e : Reply} {γ γ' : Phase} {s s' : Store β} :
      (view s.backend).Answers books n e (view s'.backend) → s'.attempts = s.attempts →
      (e.request = lock → e.outcome.isOk = true →
        ∀ m, m ≠ n → ¬ ((view s.backend).session m).Has lock) →
      γ.Turns books lock n e γ' → Deed books lock view γ s γ' s'

/-- The rules of a run, which is not given up. -/
abbrev tracking (books : Bookkeeping reading dialect table) (lock : Request) (view : β → Vault) :
    Tracking (Store β) Phase :=
  ⟨Deed books lock view, fun _ _ _ _ => True⟩

/-- What a run hands back, if it returns a result. -/
def handed : Outcome (List (Int64 × String)) → List (Int64 × String)
  | .ok list => list
  | .error _ => []

/-- **What the operation of a run has come to**: its transaction is open, and if it has a result it is
sound and adds just that to the tracking table, all of it newer than what is recorded. -/
def Phase.Due (books : Bookkeeping reading dialect table) (n : Nat) (γ : Phase)
    (o : Outcome (List (Int64 × String))) : Prop :=
  ∃ d sound latest, γ = .working n d sound latest ∧ ∀ list, o = .ok list → sound = true ∧
    ∃ id, latest = some id ∧ books.Adds d.replies list ∧ (list.map (·.1)).Pairwise (· < ·) ∧
      ∀ row ∈ list, id < row.1

/-! ## Requests -/

section Code

variable [Backend β] {guards : List (Guard (Store β))} {γ : Phase} {n : Nat} {d : Draft}
  {sound : Bool} {latest : Option Int64} {α : Type}
  (hatomic : Backend.Atomic books view) (hexcludes : Backend.Excludes lock view)

include hatomic

/-- What concerns no connection is overlooked. -/
theorem overlooks_aside : (tracking books lock view).Overlooks (Store.Aside view) where
  does := .aside
  quits _ _ := trivial
  takeTicket _ _ := Store.aside_of_backend rfl rfl
  returnTicket _ _ _ := Store.aside_of_backend rfl rfl
  stalled _ := Store.aside_of_backend rfl rfl
  never := by
    intro n r s h
    exact ⟨rfl, hatomic.never (Prod.ext h rfl)⟩

include hexcludes

/-- The answer to a request is a deed, if the run is in a phase for it. -/
theorem deed_receive {r : Request} {o : Outcome ResultSet} {γ' : Phase} {s : Store β}
    (h : (s.receive n r).1 = .answer o) (hturns : γ.Turns books lock n ⟨r, o⟩ γ') :
    Deed books lock view γ s γ' (s.receive n r).2 := by
  have hresponse : Backend.respond n r s.backend = (.answer o, (s.receive n r).2.backend) :=
    Prod.ext h rfl
  refine .answered (hatomic.respond hresponse) rfl ?_ hturns
  rintro rfl hok
  cases o with
  | error => cases hok
  | ok => exact hexcludes _ _ _ _ hresponse

/-- A request over a connection that the run has for itself. -/
theorem tracks_exchange {r : Request} {Q : Phase → Outcome ResultSet → Prop}
    (h : ∀ o, ∃ γ', γ.Turns books lock n ⟨r, o⟩ γ' ∧ Q γ' o) :
    (Connection.exchange n r).Tracks (tracking books lock view) guards γ Q := by
  refine (overlooks_aside hatomic).exchange (fun _ => trivial)
    (fun s => .aside (Store.aside_of_backend rfl rfl)) (fun s o hanswer => ?_)
    fun _ _ _ s => .aside (Store.aside_of_backend rfl rfl)
  obtain ⟨γ', hturns, ho⟩ := h o
  exact ⟨γ', deed_receive hatomic hexcludes hanswer hturns, ho⟩

/-- A request in a line. -/
theorem tracks_share {r : Request} {Q : Phase → Outcome ResultSet → Prop}
    (h : ∀ o, ∃ γ', γ.Turns books lock n ⟨r, o⟩ γ' ∧ Q γ' o) :
    (Connection.share n r).Tracks (tracking books lock view) guards γ Q :=
  (overlooks_aside hatomic).inTurn (fun _ => trivial) fun _ => tracks_exchange hatomic hexcludes h

theorem tracks_shareScript {text : String} {Q : Phase → Outcome Unit → Prop}
    (h : ∀ o, ∃ γ', γ.Turns books lock n ⟨.script text, o⟩ γ' ∧ Q γ' (o.map fun _ => ())) :
    (Connection.shareScript n text).Tracks (tracking books lock view) guards γ Q :=
  (tracks_share hatomic hexcludes (Q := fun γ' o => Q γ' (o.map fun _ => ())) h).bind
    fun _ _ ho => ho

/-- A request through a client of a scope. -/
theorem tracks_runScoped {tx : Client} {scope : Scope} (hscope : tx.scope = some scope)
    (hn : scope.connection = n) {r : Request} {Q : Phase → Outcome ResultSet → Prop}
    (hended : Q γ (.error .scopeEnded))
    (h : ∀ o, ∃ γ', γ.Turns books lock n ⟨r, o⟩ γ' ∧ Q γ' o) :
    (tx.run r : Work β ResultSet).run.Tracks (tracking books lock view) guards γ Q := by
  subst hn
  rw [run_scoped hscope]
  intro s
  refine ⟨γ, .aside (Store.aside_of_backend rfl rfl), ?_⟩
  dsimp only
  cases s.isOpen scope with
  | false => exact hended
  | true => exact tracks_share hatomic hexcludes h

theorem tracks_scriptScoped {tx : Client} {scope : Scope} (hscope : tx.scope = some scope)
    (hn : scope.connection = n) {text : String} {Q : Phase → Outcome Unit → Prop}
    (hended : Q γ (.error .scopeEnded))
    (h : ∀ o, ∃ γ', γ.Turns books lock n ⟨.script text, o⟩ γ' ∧ Q γ' (o.map fun _ => ())) :
    (tx.runScript text : Work β Unit).run.Tracks (tracking books lock view) guards γ Q := by
  refine Work.tracks_bind (tracks_runScoped hatomic hexcludes hscope hn
    (Q := fun γ' o => Q γ' (o.map fun _ => ())) hended h) ?_ ?_
  · exact fun _ _ hdone => hdone
  · exact fun _ _ hfailed => hfailed

omit hexcludes in
/-- Someone without a connection asks for one. -/
theorem tracks_acquire {ρ : Type} {acquirer : Acquirer} {k : Outcome Nat → Coroutine (Store β) ρ}
    {Q : Phase → ρ → Prop}
    (hrefused : ∀ e, (k (.error e)).Tracks (tracking books lock view) guards (.away []) Q)
    (hgiven : ∀ n, (k (.ok n)).Tracks (tracking books lock view) guards (.waiting n) Q) :
    (Coroutine.step (Store.acquire acquirer) k).Tracks (tracking books lock view) guards (.away []) Q := by
  intro s
  have hconnect := hatomic.connect (s.attempts + 1) s.backend
  rw [← Store.backend_acquire s acquirer] at hconnect
  have hattempts := s.attempts_acquire acquirer
  cases hacquired : (s.acquire acquirer).1 with
  | error e => exact ⟨_, .connects (.inl rfl) hconnect hattempts, hrefused e⟩
  | ok n =>
    obtain rfl := (Store.acquire_ok hacquired).1
    exact ⟨_, .connects (.inr rfl) hconnect hattempts, hgiven _⟩

/-- A request through a client outside transactions. -/
theorem tracks_runAlone {c : Client} (hscope : c.scope = none) {r : Request}
    (hplain : reading.control? r.sql = none) (hspares : books.Spares r) :
    (c.run r : Work β ResultSet).run.Tracks (tracking books lock view) guards (.away [])
      fun γ' _ => γ' = .away [] := by
  rw [Client.run, hscope]
  refine tracks_acquire hatomic (fun _ => rfl) fun n => ?_
  refine tracks_holding (tracks_exchange hatomic hexcludes
    (Q := fun γ' _ => γ' = .waiting n) fun o => ⟨_, .alone hplain hspares, rfl⟩) ?_
  rintro _ _ rfl s
  exact ⟨_, .leaves (s.aside_letGo n), rfl⟩

/-! ## Transactions -/

/-- Rolling back closes a transaction, and may be tried again. -/
theorem tracks_rollBack (h : ∀ o, γ.Turns books lock n ⟨.script sql.rollback, o⟩ (.closing n [])) :
    (Transaction.rollBack n sql.rollback).Tracks (tracking books lock view) guards γ
      fun γ' _ => γ' = .closing n [] := by
  refine (tracks_shareScript hatomic hexcludes (Q := fun γ' _ => γ' = .closing n [])
    fun o => ⟨_, h o, rfl⟩).bind ?_
  rintro _ (e | _) rfl
  · exact (overlooks_aside hatomic).markBroken (fun _ => trivial)
      fun _ => .aside (Store.aside_of_backend rfl rfl)
  · rfl

/-- **A transaction is closed with what it is due**: what it returns is what it has committed. -/
theorem tracks_closeRoot {o : Outcome (List (Int64 × String))} (h : γ.Due books n o) :
    (Transaction.closeRoot sql n o).Tracks (tracking books lock view) guards γ
      fun γ' o' => γ' = .closing n (handed o') := by
  obtain ⟨d, sound, latest, rfl, hdue⟩ := h
  cases o with
  | error e =>
    exact (tracks_rollBack hatomic hexcludes fun _ => .undone reading.rollback).bind fun _ _ h => h
  | ok list =>
    obtain ⟨rfl, id, rfl, hadds, hascending, hnewer⟩ := hdue list rfl
    refine (tracks_shareScript hatomic hexcludes
      (Q := fun γ' u => γ' = .closing n (if u.isOk then list else [])) fun o => ?_).bind ?_
    · cases o with
      | error e => exact ⟨_, .uncommitted reading.commit rfl, rfl⟩
      | ok => exact ⟨_, .committed reading.commit rfl hadds hascending hnewer, rfl⟩
    · rintro _ (e | _) rfl
      · exact (tracks_rollBack hatomic hexcludes fun _ => .undoneAgain reading.rollback).bind
          fun _ _ h => h
      · rfl

/-- A root transaction, from the request for its connection on. -/
theorem tracks_transactRoot {c : Client} {operation : Client → Work β (List (Int64 × String))}
    (hsql : c.settings.transactionSql = sql)
    (hop : ∀ (scope : Scope) n, scope.connection = n → ∀ guards,
      (operation (c.inScope scope)).run.Tracks (tracking books lock view) guards
        (.working n .empty true none) fun γ' o => γ'.Due books n o) :
    (c.transactRoot operation).run.Tracks (tracking books lock view) guards (.away [])
      fun γ' o => γ' = .away (handed o) := by
  subst hsql
  rw [transactRoot_eq]
  refine tracks_acquire hatomic (fun _ => rfl) fun n => ?_
  refine tracks_holding (Q := fun γ' o => γ' = .closing n (handed o)) ?_ ?_
  · refine (tracks_shareScript hatomic hexcludes (Q := fun γ' u =>
      γ' = if u.isOk then .working n .empty true none else .closing n []) fun o => ?_).bind ?_
    · exact ⟨_, .begun reading.begin, by cases o <;> rfl⟩
    · rintro _ (e | _) rfl
      · rfl
      · intro s
        refine ⟨_, .aside (Store.aside_of_backend rfl rfl), ?_⟩
        exact tracks_closing (hop _ n rfl _) (fun _ s' => .aside (s'.aside_endScope _))
          fun _ _ hdue => tracks_closeRoot hatomic hexcludes hdue
  · rintro _ o rfl s
    exact ⟨_, .leavesClosed (s.aside_letGo n), rfl⟩

/-! ## Bodies -/

/-- A savepoint is set, or gone back to, if the statement succeeds. -/
theorem tracks_control {text : String} {ctl : Control} (hctl : reading.control? text = some ctl)
    (hinner : ctl.isInner = true) (hd : d.Has lock) (hd' : (d.control ctl).Has lock) :
    (Connection.shareScript n text).Tracks (tracking books lock view) guards (.working n d sound latest)
      fun γ' u => ∃ sound', γ' = .working n (if u.isOk then d.control ctl else d) sound' latest := by
  refine tracks_shareScript hatomic hexcludes fun o => ?_
  cases o with
  | error e =>
    have hstays : d.take reading ⟨.script text, .error e⟩ = d := Draft.take_failed hctl rfl
    refine ⟨_, .worked (Reply.inner_of_control hctl hinner) hd (by rwa [hstays]), false, ?_⟩
    rw [hstays]
    rfl
  | ok done =>
    have hmoves : d.take reading ⟨.script text, .ok done⟩ = d.control ctl := Draft.take_control hctl rfl
    refine ⟨_, .worked (Reply.inner_of_control hctl hinner) hd (by rwa [hmoves]), true, ?_⟩
    rw [hmoves]
    rfl

/-- The draft of an open transaction has been extended in a scope of a depth, if the code is through
with it. -/
def Extended (books : Bookkeeping reading dialect table) (n : Nat) (latest : Option Int64) (depth : Nat)
    (d : Draft) (γ : Phase) : Prop :=
  ∃ d' sound', γ = .working n d' sound' latest ∧ d.Extends depth books.Spares d'

omit [Backend β] hatomic hexcludes in
/-- Code after code that has extended a draft. -/
theorem Extended.tracks {ρ : Type} {code : Coroutine (Store β) ρ} {depth : Nat}
    (h : Extended books n latest depth d γ) (hd : d.Has lock)
    (hcode : ∀ (d' : Draft) sound', d'.Has lock → code.Tracks (tracking books lock view) guards
      (.working n d' sound' latest) fun γ' _ => Extended books n latest depth d' γ') :
    code.Tracks (tracking books lock view) guards γ fun γ' _ => Extended books n latest depth d γ' := by
  obtain ⟨d', sound', rfl, hextends⟩ := h
  refine (hcode d' sound' (hextends.has hd)).mono ?_
  rintro _ _ ⟨d'', sound'', rfl, hextends'⟩
  exact ⟨_, _, rfl, hextends.trans hextends'⟩

/-- **A scope extends the draft of its transaction**, whatever becomes of it, if its operation does. -/
theorem tracks_transactNested {c : Client} {parent : Scope} {operation : Client → Work β α}
    (hsql : c.settings.transactionSql = sql) (hn : parent.connection = n) (hd : d.Has lock)
    (hop : ∀ (scope : Scope), scope.connection = n → scope.depth = parent.depth + 1 →
      ∀ (d₁ : Draft) sound₁ guards, d₁.Has lock →
        (operation (c.inScope scope)).run.Tracks (tracking books lock view) guards
          (.working n d₁ sound₁ latest) fun γ' _ => Extended books n latest scope.depth d₁ γ') :
    (c.transactNested parent operation).run.Tracks (tracking books lock view) guards
      (.working n d sound latest) fun γ' _ => Extended books n latest parent.depth d γ' := by
  subst hsql hn
  have hunchanged : ∀ sound', Extended books parent.connection latest parent.depth d
      (.working parent.connection d sound' latest) := fun sound' => ⟨_, _, rfl, .refl⟩
  rw [transactNested_eq]
  intro s
  refine ⟨_, .aside (Store.aside_of_backend rfl rfl), ?_⟩
  -- the scope checks first whether the one around it is open
  dsimp only
  cases s.isOpen parent with
  | false => exact hunchanged _
  | true =>
  refine (tracks_control hatomic hexcludes (reading.openSavepoint _) rfl hd hd).bind ?_
  rintro _ (e | _) ⟨sound₁, rfl⟩
  · exact hunchanged _
  intro s
  refine ⟨_, .aside (Store.aside_of_backend rfl rfl), ?_⟩
  refine tracks_closing (hop (s.openNested parent).1 rfl rfl _ sound₁ _ hd)
    (fun _ s' => .aside (s'.aside_endScope _)) ?_
  rintro _ (e | a) ⟨d', sound', rfl, hextends⟩
  · -- the scope has failed, and goes back to its savepoint if it can
    refine Tracks.bind (Q := fun γ' _ => Extended books parent.connection latest parent.depth d γ') ?_
      fun _ _ h => h
    refine (tracks_control hatomic hexcludes (reading.undoSavepoint _) rfl (hextends.has hd)
      (hextends.failed.has hd)).bind ?_
    rintro _ (e' | _) ⟨sound₂, rfl⟩
    · refine ((overlooks_aside hatomic).markBroken (fun _ => trivial)
        fun _ => .aside (Store.aside_of_backend rfl rfl)).mono ?_
      rintro _ _ rfl
      exact ⟨_, _, rfl, hextends.returned⟩
    · exact ⟨_, _, rfl, hextends.failed⟩
  · exact ⟨_, _, rfl, hextends.returned⟩

/-- A client of a scope of the transaction that a run has begun, with the settings of the run. -/
structure Enlisted (sql : TransactionSql) (dialect : Dialect) (n : Nat) (tx : Client) (scope : Scope) : Prop where
  inside : tx.scope = some scope
  connection : scope.connection = n
  transactionSql : tx.settings.transactionSql = sql
  dialect : tx.settings.compiler.dialect = dialect

/-- **A body extends the draft of its transaction**, by induction on the body. -/
theorem tracks_through {α : Type} (p : Program α) {tx : Client} {scope : Scope} {d : Draft} {sound : Bool}
    {guards : List (Guard (Store β))} (htx : Enlisted sql dialect n tx scope)
    (hplain : p.Sends fun r => reading.control? r.sql = none) (hspares : p.Sends books.Spares)
    (hd : d.Has lock) :
    (p.through tx).run.Tracks (tracking books lock view) guards (.working n d sound latest)
      fun γ' _ => Extended books n latest scope.depth d γ' := by
  induction p generalizing tx scope d sound guards with
  | finish o => exact ⟨_, _, rfl, .refl⟩
  | send r k ih =>
    -- a statement within a body adds its own reply to the draft
    have hadd (o : Outcome ResultSet) :
        d.Extends scope.depth books.Spares (d.take reading ⟨r, o⟩) := by
      rw [Draft.take_plain hplain.1]
      exact .add hspares.1
    refine Tracks.bind (c := (tx.run r).run) (Q := fun γ' _ => Extended books n latest scope.depth d γ') ?_ ?_
    · refine tracks_runScoped hatomic hexcludes htx.inside htx.connection ⟨_, _, rfl, .refl⟩ fun o => ?_
      exact ⟨_, .worked (Reply.Plain.inner hplain.1) hd ((hadd o).has hd), _, _, rfl, hadd o⟩
    · intro γ' o h
      exact h.tracks hd fun d' sound' hd' => ih o htx (hplain.2 o) (hspares.2 o) hd'
  | nest body k ihbody ih =>
    refine Tracks.bind (c := (tx.transact body.through).run)
      (Q := fun γ' _ => Extended books n latest scope.depth d γ') ?_ ?_
    · rw [Client.transact, htx.inside]
      refine tracks_transactNested hatomic hexcludes htx.transactionSql htx.connection hd ?_
      intro inner hconnection _ d₁ sound₁ guards hd₁
      exact ihbody ⟨rfl, hconnection, htx.transactionSql, htx.dialect⟩ hplain.1 hspares.1 hd₁
    · intro γ' o h
      exact h.tracks hd fun d' sound' hd' => ih o htx (hplain.2 o) (hspares.2 o) hd'

/-! ## Runs -/

variable {body : Migration β → Program Unit} {tx c : Client} {scope : Scope} {one : Migration β}
  {rows : List (Int64 × String)} {id : Int64} {text : String} {m : Migrator β}

/-- What a migration does leaves the transaction and the tracking table to the run. -/
structure Modest (books : Bookkeeping reading dialect table) (body : Migration β → Program Unit)
    (one : Migration β) : Prop where
  change : one.change = (body one).through
  plain : (body one).Sends fun r => reading.control? r.sql = none
  spares : (body one).Sends books.Spares

/-- A migration that has been applied is recorded, if it leaves the tracking table alone itself. -/
theorem tracks_apply (htx : Enlisted sql dialect n tx scope) (hone : Modest books body one)
    (hd : d.Has lock) (hadds : books.Adds d.replies rows) :
    (apply table tx one).run.Tracks (tracking books lock view) guards (.working n d sound latest)
      fun γ' o => ∃ d' sound', γ' = .working n d' sound' latest ∧ ∀ row, o = .ok row →
        row = one.row ∧ sound' = true ∧ d'.Has lock ∧ books.Adds d'.replies (rows ++ [row]) := by
  have hdialect := htx.dialect
  subst hdialect
  have hchange : (tryCatchThe Error (one.change tx) fun e => throw (one.failure e)).run.Tracks
      (tracking books lock view) guards (.working n d sound latest)
      fun γ' _ => Extended books n latest scope.depth d γ' := by
    rw [hone.change]
    refine Tracks.bind (c := ((body one).through tx).run)
      (tracks_through hatomic hexcludes _ htx hone.plain hone.spares hd) ?_
    rintro γ' (e | _) h
    · exact h
    · exact h
  -- the body has come to an end, and the statement that records the migration follows
  refine Work.tracks_bind hchange ?_ ?_
  · rintro _ _ ⟨d', sound', rfl, hextends⟩
    have hd' := hextends.has hd
    refine Work.tracks_bind (tracks_runScoped hatomic hexcludes htx.inside htx.connection
      (Q := fun γ' o => ∃ d'' sound'', γ' = .working n d'' sound'' latest ∧ ∀ done, o = .ok done →
        sound'' = true ∧ d''.Has lock ∧ books.Adds d''.replies (rows ++ [one.row]))
      ⟨_, _, rfl, by simp⟩ fun o => ?_) ?_ ?_
    · refine ⟨_, .worked (Reply.Plain.inner books.plain_insert) hd' (hd'.plain books.plain_insert),
        _, _, rfl, ?_⟩
      rintro done rfl
      exact ⟨rfl, hd'.plain books.plain_insert, (hadds.extends hextends).take books.plain_insert
        (books.adds_recording one.row done)⟩
    · rintro _ done ⟨d'', sound'', rfl, hdone⟩
      obtain ⟨hsound, hhas, hadds'⟩ := hdone done rfl
      refine ⟨d'', sound'', rfl, ?_⟩
      rintro _ ⟨⟩
      exact ⟨rfl, hsound, hhas, hadds'⟩
    · rintro _ _ ⟨d'', sound'', rfl, -⟩
      exact ⟨d'', sound'', rfl, by simp⟩
  · rintro _ _ ⟨d', sound', rfl, -⟩
    exact ⟨_, _, rfl, by simp⟩

/-- **Migrations add just what is handed back to the tracking table**, by induction on those that are
still to be applied. -/
theorem tracks_loop (htx : Enlisted sql dialect n tx scope) (list : List (Migration β))
    (hlist : ∀ one ∈ list, Modest books body one) (before : List (Int64 × String)) (hd : d.Has lock) (hadds : books.Adds d.replies before.reverse) :
    (List.mapM.loop (apply table tx) list before).run.Tracks (tracking books lock view) guards
      (.working n d true latest) fun γ' o => ∃ d' sound', γ' = .working n d' sound' latest ∧
        ∀ rows, o = .ok rows → sound' = true ∧ books.Adds d'.replies rows ∧
          rows = before.reverse ++ list.map Migration.row := by
  induction list generalizing before d with
  | nil =>
    refine ⟨d, true, rfl, ?_⟩
    rintro _ ⟨⟩
    exact ⟨rfl, hadds, (List.append_nil _).symm⟩
  | cons one rest ih =>
    rw [List.mapM.loop]
    refine Work.tracks_bind (tracks_apply hatomic hexcludes htx (hlist one (.head _)) hd hadds) ?_ ?_
    · rintro _ row ⟨d', sound', rfl, hdone⟩
      obtain ⟨rfl, rfl, hd', hadds'⟩ := hdone row rfl
      refine (ih (fun one hone => hlist one (.tail _ hone)) (one.row :: before) hd'
        (by simpa using hadds')).mono ?_
      rintro _ _ ⟨d'', sound'', rfl, hrest⟩
      refine ⟨d'', sound'', rfl, fun rows hrows => ?_⟩
      simpa using hrest rows hrows
    · rintro _ _ ⟨d', sound', rfl, -⟩
      exact ⟨d', sound', rfl, by simp⟩

/-- What follows the lock: the latest recorded id is asked for, and what is newer is applied. -/
theorem tracks_read (htx : Enlisted sql dialect n tx scope)
    (hmodest : ∀ one ∈ m.migrations, Modest books body one)
    (hids : (m.migrations.map (·.id)).Nodup) (hd : d.Has lock) (hadds : books.Adds d.replies []) :
    (do
      let latest ← Work.ofOutcome (latestOf (← tx.runRaw (selectLatest table) []))
      (m.pending latest).mapM (apply table tx) : Work β (List (Int64 × String))).run.Tracks
      (tracking books lock view) guards (.working n d sound none) fun γ' o => γ'.Due books n o := by
  have hdialect := htx.dialect
  subst hdialect
  -- what the run is told counts only if it can be read as an id
  refine Work.tracks_bind (tracks_runScoped hatomic hexcludes htx.inside htx.connection
    (Q := fun γ' o => ∃ d' sound' latest, γ' = .working n d' sound' latest ∧
      ∀ found id, o = .ok found → latestOf found = .ok id → sound' = true ∧ latest = some id ∧
        d'.Has lock ∧ books.Adds d'.replies []) ⟨_, _, _, rfl, by simp⟩ fun o => ?_) ?_ ?_
  · have hasked : books.Adds [⟨asking table, o⟩] [] :=
      Bookkeeping.adds_of_spares (List.forall_mem_singleton.2 (books.keeps .asking))
    have hworked : Phase.Turns books lock n ⟨asking table, o⟩ (.working n d sound none)
        (.working n (d.take reading ⟨asking table, o⟩) o.isOk none) :=
      .worked (Reply.Plain.inner (books.plain .asking)) hd (hd.plain (books.plain .asking))
    cases o with
    | error e => exact ⟨_, hworked, _, _, _, rfl, by simp⟩
    | ok found =>
      cases hlatest : latestOf found with
      | error e =>
        refine ⟨_, hworked, _, _, _, rfl, ?_⟩
        rintro _ id ⟨⟩ hid
        cases hlatest.symm.trans hid
      | ok id =>
        refine ⟨_, .asked rfl hlatest hd hadds, _, _, _, rfl, ?_⟩
        rintro _ id' ⟨⟩ hid
        obtain rfl := Except.ok.inj (hlatest.symm.trans hid)
        exact ⟨rfl, rfl, hd.plain (books.plain .asking), hadds.take (books.plain .asking) hasked⟩
  · rintro _ found ⟨d', sound', latest, rfl, hfound⟩
    cases hlatest : latestOf found with
    | error e => exact ⟨d', sound', latest, rfl, by simp⟩
    | ok id =>
      obtain ⟨rfl, rfl, hd', hadds'⟩ := hfound found id rfl hlatest
      have hpending : ∀ one ∈ m.pending id, one ∈ m.migrations := fun one hone => (mem_pending.1 hone).1
      refine (tracks_loop hatomic hexcludes htx (m.pending id)
        (fun one hone => hmodest one (hpending one hone)) [] hd' hadds').mono ?_
      rintro _ _ ⟨d'', sound'', rfl, hrows⟩
      refine ⟨d'', sound'', _, rfl, fun list hlist => ?_⟩
      obtain ⟨hsound, hadds'', rfl⟩ := hrows list hlist
      refine ⟨hsound, id, rfl, hadds'', ?_, ?_⟩
      · exact List.pairwise_map.2 (List.pairwise_map.2 (pairwise_pending hids))
      · rintro _ hrow
        obtain ⟨one, hone, rfl⟩ := List.mem_map.1 hrow
        exact (mem_pending.1 hone).2
  · rintro _ _ ⟨d', sound', latest, rfl, -⟩
    exact ⟨_, _, _, rfl, by simp⟩

/-- **The operation of a run**, from its BEGIN on, comes to what it is due. -/
theorem tracks_applyPending (hlock : (lockTable? dialect table).map .script = some lock)
    (htx : Enlisted sql dialect n tx scope) (hmodest : ∀ one ∈ m.migrations, Modest books body one)
    (hids : (m.migrations.map (·.id)).Nodup) :
    (m.applyPending table tx).run.Tracks (tracking books lock view) guards
      (.working n .empty true none) fun γ' o => γ'.Due books n o := by
  obtain ⟨text, htext, rfl⟩ := Option.map_eq_some_iff.1 hlock
  have hplainLock : ∀ o, Reply.Plain reading ⟨.script text, o⟩ := fun _ => books.plain (.locking htext)
  have hsparedLock : ∀ o, books.Adds [⟨.script text, o⟩] [] := fun _ =>
    Bookkeeping.adds_of_spares (List.forall_mem_singleton.2 (books.keeps (.locking htext)))
  have hnothing : books.Adds Draft.empty.replies [] := Bookkeeping.adds_of_spares (List.forall_mem_nil _)
  rw [applyPending, htx.dialect, htext]
  refine Work.tracks_bind (tracks_scriptScoped hatomic hexcludes htx.inside htx.connection
    (Q := fun γ' u => ∃ d sound, γ' = .working n d sound none ∧ (u.isOk = true →
      d.Has (.script text) ∧ books.Adds d.replies [])) ⟨_, _, rfl, by rintro ⟨⟩⟩ fun o => ?_) ?_ ?_
  · -- the reply to the lock is the first of the draft
    refine ⟨_, .locked rfl (hplainLock o), _, _, rfl, fun hok => ?_⟩
    cases o with
    | error e => cases hok
    | ok done =>
      refine ⟨⟨done, ?_⟩, hnothing.take (hplainLock _) (hsparedLock _)⟩
      rw [Draft.take_plain (hplainLock _)]
      exact List.mem_append_right _ (.head _)
  · rintro _ _ ⟨d, sound, rfl, hlocked⟩
    obtain ⟨hd, hadds⟩ := hlocked rfl
    exact tracks_read hatomic hexcludes htx hmodest hids hd hadds
  · rintro _ _ ⟨d, sound, rfl, -⟩
    exact ⟨_, _, _, rfl, by rintro _ ⟨⟩⟩

/-- **A run keeps to its phases**: it ends without a connection, and has committed just what it hands
back. -/
theorem tracks_run (hlock : (lockTable? dialect table).map .script = some lock)
    (hfits : m.Fits reading dialect table body c)
    (hspares : ∀ one ∈ m.migrations, (body one).Sends books.Spares) :
    (m.run c).run.Tracks (tracking books lock view) guards (.away [])
      fun γ' o => γ' = .away (handed o) := by
  obtain ⟨hscope, hsql, hdialect, hquoted, hbodies, hplain⟩ := hfits
  simp only [run, hdialect, hquoted]
  cases hids : m.checkIds with
  | error e => exact rfl
  | ok =>
    have hcreate : (c.runScript (createTable dialect table) : Work β Unit).run.Tracks
        (tracking books lock view) guards (.away []) fun γ' _ => γ' = .away [] :=
      Work.tracks_bind (tracks_runAlone hatomic hexcludes hscope (r := creating dialect table)
        (books.plain .creating) (books.keeps .creating)) (fun _ _ h => h) fun _ _ h => h
    change (c.runScript (createTable dialect table) >>= fun _ => c.transact (m.applyPending table)).run.Tracks
      (tracking books lock view) guards (.away []) fun γ' o => γ' = .away (handed o)
    refine Work.tracks_bind hcreate ?_ ?_
    · rintro _ _ rfl
      rw [Client.transact, hscope]
      refine tracks_transactRoot hatomic hexcludes hsql fun scope n hn guards => ?_
      exact tracks_applyPending hatomic hexcludes hlock ⟨rfl, hn, hsql, hdialect⟩
        (fun one hone => ⟨hbodies one hone, hplain one hone, hspares one hone⟩) (nodup_of_checkIds hids)
    · rintro _ _ rfl
      rfl

end Code

end Migrator

end SqlClient
