import SqlClient.Proofs.Client.Tracking
import SqlClient.Proofs.Transaction.Accounts
import SqlClient.Proofs.Transaction.Stages
/-!
# Transactions — who keeps a connection open

What a future has to do with a connection: whether it keeps it open, and whether it is still to see to
it that the transaction is closed. `Deed` says once what may be done in each of these posts, one move at
a time, and `Leaving` what is left behind when a future is given up. The code of statements, transactions
and rescues keeps to both (`tracks_run`, `tracks_transact`, `tracks_rescue`).
-/

namespace SqlClient

open Coroutine

variable {β α : Type} {sql : TransactionSql}

/-! ## Posts -/

/-- What someone has to do with a connection. -/
inductive Post
  /-- Sends over it through a client of a scope, and leaves it to others to keep it open. -/
  | visitor
  /-- Keeps it open and asks for the transaction. -/
  | opening
  /-- Keeps it open and is still to close the transaction; a guard does so if that is given up. -/
  | armed
  /-- Keeps it open, and has nothing to do for the transaction. -/
  | holder
  /-- Keeps it open and is still to say that it must not be used again. -/
  | rescuing
deriving DecidableEq

namespace Post

/-- The handles that someone has. -/
def handles : Post → Nat
  | visitor => 0
  | opening | armed | holder | rescuing => 1

/-- There is still something to do for the transaction. -/
def Guards (post : Post) : Prop := post = armed ∨ post = rescuing

instance (post : Post) : Decidable post.Guards := inferInstanceAs (Decidable (_ ∨ _))

theorem Guards.ne_opening {post : Post} (h : post.Guards) : post ≠ opening := by
  rcases h with rfl | rfl <;> decide

theorem Guards.handles {post : Post} (h : post.Guards) : post.handles = 1 := by
  rcases h with rfl | rfl <;> rfl

end Post

/-- What a future has to do with connections. -/
inductive Tenure
  | away
  | on (connection : Nat) (post : Post)
deriving DecidableEq

/-! ## Deeds -/

namespace Account

/-- Nothing that is known of a connection is taken back, and it is not released. -/
structure Grows (a a' : Account) : Prop where
  broken : a.fitness.broken = true → a'.fitness.broken = true
  record : ∃ later, a'.record = a.record ++ later
  events : ∃ later, a'.events = a.events ++ later ∧ ∀ n, Event.released n ∉ later

theorem Grows.refl {a : Account} : a.Grows a :=
  ⟨id, ⟨[], (List.append_nil _).symm⟩, [], (List.append_nil _).symm, by simp⟩

theorem Grows.held {a : Account} : a.Grows a.held := ⟨id, Grows.refl.record, Grows.refl.events⟩

/-- What becomes of a connection while it is in use: it stays in the same hands. -/
structure Develops (a a' : Account) : Prop extends Grows a a' where
  holders : a'.holders = a.holders

/-- The transaction has just been closed, or the connection is not to be used again. -/
def Settles (sql : TransactionSql) (a a' : Account) : Prop :=
  a'.fitness.broken = true ∨
    ∃ text, (text = sql.commit ∨ text = sql.rollback) ∧ a'.record = a.record ++ [⟨.script text, true⟩]

theorem develops_send (r : Request) (n : Nat) (a : Account) :
    a.Develops ((Account.noted (r.event n) ∘ Account.fits .beginRequest) a) :=
  ⟨⟨id, ⟨[], (List.append_nil _).symm⟩, [r.event n], rfl, by cases r <;> simp [Request.event]⟩, rfl⟩

theorem develops_answered (e : Exchange) (a : Account) : a.Develops (a.answered e) :=
  ⟨⟨id, ⟨[e], rfl⟩, [], (List.append_nil _).symm, by simp⟩, rfl⟩

theorem develops_finish (a : Account) : a.Develops (a.fits .finishRequest) :=
  ⟨⟨id, ⟨[], (List.append_nil _).symm⟩, [], (List.append_nil _).symm, by simp⟩, rfl⟩

theorem develops_markBroken (n : Nat) (a : Account) :
    a.Develops ((Account.noted (.broken n) ∘ Account.fits .markBroken) a) :=
  ⟨⟨fun _ => rfl, ⟨[], (List.append_nil _).symm⟩, [.broken n], rfl, by simp⟩, rfl⟩

end Account

/-- **What may be done in a move.** Whoever asks for a transaction guards it as soon as that has
succeeded, and whoever guards it does so until the transaction is closed or the connection broken. -/
inductive Deed (sql : TransactionSql) : Acts (Store (Watched (Journal β) α)) Tenure
  | aside {γ : Tenure} {s s' : Store (Watched (Journal β) α)} : s.Steady s' → Deed sql γ s γ s'
  /-- Calls an operation. -/
  | enter {m : Nat} {post : Post} {tx : Client} {s s' : Store (Watched (Journal β) α)} :
      post ≠ .opening → tx.connection? = some m → (∀ k, s'.account k = s.account k) →
      s'.attempts = s.attempts → s'.clients = s.clients ++ [tx] →
      Deed sql (.on m post) s (.on m post) s'
  | refused {s s' : Store (Watched (Journal β) α)} :
      s.Draws (fun n => Account.noted (.refused n)) s' → Deed sql .away s .away s'
  | acquire {acquirer : Acquirer} {s s' : Store (Watched (Journal β) α)} :
      s.Draws (fun n => Account.acquired acquirer n) s' →
      Deed sql .away s (.on (s.attempts + 1) .opening) s'
  /-- Asks for the transaction. -/
  | ask {m : Nat} {s s' : Store (Watched (Journal β) α)} :
      s.Alters m (Account.noted (.script m sql.begin) ∘ Account.fits .beginRequest) s' →
      Deed sql (.on m .opening) s (.on m .opening) s'
  /-- Is told whether there is a transaction now. -/
  | begun {m : Nat} {succeeded : Bool} {s s' : Store (Watched (Journal β) α)} :
      s.Alters m (Account.answered ⟨.script sql.begin, succeeded⟩) s' →
      Deed sql (.on m .opening) s (.on m (if succeeded then .armed else .holder)) s'
  | work {m : Nat} {post : Post} {f : Account → Account} {s s' : Store (Watched (Journal β) α)} :
      post ≠ .opening → s.Alters m f s' → (s.account m).Develops (f (s.account m)) →
      Deed sql (.on m post) s (.on m post) s'
  /-- Has nothing more to do for the transaction. -/
  | settle {m : Nat} {post : Post} {f : Account → Account} {s s' : Store (Watched (Journal β) α)} :
      post.Guards → s.Alters m f s' → (s.account m).Develops (f (s.account m)) →
      (s.account m).Settles sql (f (s.account m)) → Deed sql (.on m post) s (.on m .holder) s'
  | letGo {m : Nat} {s s' : Store (Watched (Journal β) α)} :
      s.Alters m (Account.letGo m) s' → Deed sql (.on m .holder) s .away s'

/-- The rules for code that does deeds; `quits` says what giving it up may make of the store. -/
abbrev tracking (sql : TransactionSql)
    (quits : Tenure → Store (Watched (Journal β) α) → Store (Watched (Journal β) α) →
      List (Coroutine (Store (Watched (Journal β) α)) Unit) → Prop) :
    Tracking (Store (Watched (Journal β) α)) Tenure :=
  ⟨Deed sql, quits⟩

/-- The rules for tasks, which run to their end. -/
abbrev taskTracking (sql : TransactionSql) : Tracking (Store (Watched (Journal β) α)) Tenure :=
  tracking sql fun _ _ _ _ => True

/-- A task that begins in a post and keeps to the rules. -/
def Minds (sql : TransactionSql) (task : Coroutine (Store (Watched (Journal β) α)) Unit) (γ : Tenure) :
    Prop :=
  task.Tracks (taskTracking sql) [] γ fun _ _ => True

/-- **What giving up leaves behind.** A guard never goes without a task that takes its place, with a
handle of its own that it has before the other lets go. -/
inductive Leaving (sql : TransactionSql) : Tenure → Store (Watched (Journal β) α) →
    Store (Watched (Journal β) α) → List (Coroutine (Store (Watched (Journal β) α)) Unit) → Prop
  | away {s s' : Store (Watched (Journal β) α)} : s.Steady s' → Leaving sql .away s s' []
  | visitor {m : Nat} {s s' : Store (Watched (Journal β) α)} : s.Steady s' →
      Leaving sql (.on m .visitor) s s' []
  | opening {m : Nat} {s s' : Store (Watched (Journal β) α)} : s.Alters m (Account.letGo m) s' →
      Leaving sql (.on m .opening) s s' []
  | armed {m : Nat} {s s' : Store (Watched (Journal β) α)}
      {task : Coroutine (Store (Watched (Journal β) α)) Unit} :
      s.Alters m (Account.letGo m ∘ Account.held) s' → Minds sql task (.on m .rescuing) →
      Leaving sql (.on m .armed) s s' [task]
  /-- A savepoint is rolled back, which the transaction does not depend on. -/
  | nested {m : Nat} {s s' : Store (Watched (Journal β) α)}
      {task : Coroutine (Store (Watched (Journal β) α)) Unit} :
      s.Alters m Account.held s' → Minds sql task (.on m .holder) →
      Leaving sql (.on m .visitor) s s' [task]

/-- The rules for statements and transactions. -/
abbrev futureTracking (sql : TransactionSql) : Tracking (Store (Watched (Journal β) α)) Tenure :=
  tracking sql (Leaving sql)

/-! ## Code that does deeds -/

/-- A change that no account shows may come before. -/
def Lenient (quits : Tenure → Store (Watched (Journal β) α) → Store (Watched (Journal β) α) →
    List (Coroutine (Store (Watched (Journal β) α)) Unit) → Prop) : Prop :=
  ∀ γ s s₁ s' ts, s.Steady s₁ → quits γ s₁ s' ts → quits γ s s' ts

theorem lenient_leaving : Lenient (β := β) (α := α) (Leaving sql) := by
  intro γ s s₁ s' ts hsteady h
  cases h with
  | away h => exact .away (hsteady.trans h)
  | visitor h => exact .visitor (hsteady.trans h)
  | opening h => exact .opening (.of_steady hsteady h)
  | armed h htask => exact .armed (.of_steady hsteady h) htask
  | nested h htask => exact .nested (.of_steady hsteady h) htask

section Code

variable [Backend β] {quits : Tenure → Store (Watched (Journal β) α) → Store (Watched (Journal β) α) →
  List (Coroutine (Store (Watched (Journal β) α)) Unit) → Prop} (hquits : Lenient quits)
  {guards : List (Guard (Store (Watched (Journal β) α)))} {γ : Tenure} {m : Nat} {post : Post}

include hquits

/-- What no account shows is overlooked. -/
theorem overlooks_steady : (tracking sql quits).Overlooks Store.Steady where
  does := .aside
  quits := hquits _ _ _ _ _
  takeTicket := Store.steady_takeTicket
  returnTicket := Store.steady_returnTicket
  never := Store.steady_receive
  stalled _ := ⟨fun _ => rfl, rfl, rfl⟩

/-- A script, whose success may lead to another post. -/
theorem tracks_shareScript {text : String} (after : Bool → Tenure)
    (hparts : (tracking sql quits).Parts guards γ)
    (hsend : ∀ s : Store (Watched (Journal β) α), Deed sql γ s γ (s.send m (.script text)).2)
    (hanswer : ∀ (s : Store (Watched (Journal β) α)) o, (s.receive m (.script text)).1 = .answer o →
      Deed sql γ s (after o.isOk) (s.receive m (.script text)).2)
    (hfinish : ∀ b (s : Store (Watched (Journal β) α)), Deed sql (after b) s (after b) (s.finish m)) :
    (Connection.shareScript m text).Tracks (tracking sql quits) guards γ
      fun γ' o => γ' = after o.isOk := by
  refine ((overlooks_steady hquits).shareScript (Q := fun γ' o => γ' = after o.isOk) hparts hsend
    (fun s o h => ⟨_, hanswer s o h, rfl⟩) ?_).mono ?_
  · rintro _ o rfl s
    exact hfinish _ s
  · rintro _ _ ⟨_ | _, rfl, rfl⟩
    · rfl
    · rfl

/-! ### Requests in the posts -/

omit hquits [Backend β] in
theorem deed_finish (hpost : post ≠ .opening) (s : Store (Watched (Journal β) α)) :
    Deed sql (.on m post) s (.on m post) (s.finish m) :=
  .work hpost (Store.alters_finish m s) (Account.develops_finish _)

omit hquits in
theorem deed_send (hpost : post ≠ .opening) (r : Request) (s : Store (Watched (Journal β) α)) :
    Deed sql (.on m post) s (.on m post) (s.send m r).2 :=
  .work hpost (Store.alters_send m r s) (Account.develops_send r m _)

omit hquits in
theorem deed_receive (hpost : post ≠ .opening) {r : Request} {o : Outcome ResultSet}
    (s : Store (Watched (Journal β) α)) (h : (s.receive m r).1 = .answer o) :
    Deed sql (.on m post) s (.on m post) (s.receive m r).2 :=
  .work hpost (Store.alters_receive h) (Account.develops_answered _ _)

/-- A request that leaves its sender where it is. -/
theorem tracks_share_work (hpost : post ≠ .opening)
    (hparts : (tracking sql quits).Parts guards (.on m post)) (r : Request) :
    (Connection.share m r).Tracks (tracking sql quits) guards (.on m post)
      fun γ' _ => γ' = .on m post :=
  (overlooks_steady hquits).share hparts (deed_send hpost r)
    (fun s _ h => ⟨_, deed_receive hpost s h, rfl⟩) fun _ _ h => h ▸ deed_finish hpost

theorem tracks_script_work (hpost : post ≠ .opening)
    (hparts : (tracking sql quits).Parts guards (.on m post)) (text : String) :
    (Connection.shareScript m text).Tracks (tracking sql quits) guards (.on m post)
      fun γ' _ => γ' = .on m post :=
  (tracks_share_work hquits hpost hparts (.script text)).bind fun _ _ h => h

/-- The request for the transaction. -/
theorem tracks_begin (hparts : (tracking sql quits).Parts guards (.on m .opening)) :
    (Connection.shareScript m sql.begin).Tracks (tracking sql quits) guards (.on m .opening)
      fun γ' o => γ' = .on m (if o.isOk then .armed else .holder) := by
  have harmed : Post.armed ≠ .opening := by decide
  have hholder : Post.holder ≠ .opening := by decide
  refine tracks_shareScript hquits (fun b => .on m (if b then .armed else .holder)) hparts
    (fun s => .ask (Store.alters_send m (.script sql.begin) s))
    (fun s o h => .begun (Store.alters_receive h)) fun b s => ?_
  cases b with
  | true => exact deed_finish harmed s
  | false => exact deed_finish hholder s

/-- A statement that closes the transaction, if it succeeds. -/
theorem tracks_close {text : String} (htext : text = sql.commit ∨ text = sql.rollback)
    (hpost : post.Guards) (hparts : (tracking sql quits).Parts guards (.on m post)) :
    (Connection.shareScript m text).Tracks (tracking sql quits) guards (.on m post)
      fun γ' o => γ' = .on m (if o.isOk then .holder else post) := by
  have hholder : Post.holder ≠ .opening := by decide
  refine tracks_shareScript hquits (fun b => .on m (if b then .holder else post)) hparts
    (deed_send hpost.ne_opening _) (fun s o h => ?_) fun b s => ?_
  · cases o with
    | error e => exact deed_receive hpost.ne_opening s h
    | ok rs =>
      exact .settle hpost (Store.alters_receive h) (Account.develops_answered _ _)
        (.inr ⟨text, htext, rfl⟩)
  · cases b with
    | true => exact deed_finish hholder s
    | false => exact deed_finish hpost.ne_opening s

omit [Backend β] hquits in
/-- A connection that is not to be used again needs no guard. -/
theorem deed_markBroken (hpost : post.Guards) (s : Store (Watched (Journal β) α)) :
    Deed sql (.on m post) s (.on m .holder) (s.markBroken m) :=
  .settle hpost (Store.alters_markBroken m s) (Account.develops_markBroken m _) (.inl rfl)

/-- Rolling a transaction back after a failure closes it, or the connection is not used again. -/
theorem tracks_rollBack (hpost : post.Guards) (hparts : (tracking sql quits).Parts guards (.on m post)) :
    (Transaction.rollBack m sql.rollback).Tracks (tracking sql quits) guards (.on m post)
      fun γ' _ => γ' = .on m .holder := by
  refine (tracks_close hquits (.inr rfl) hpost hparts).bind ?_
  rintro _ (e | u) rfl
  · exact (overlooks_steady hquits).markBroken hparts (deed_markBroken hpost)
  · rfl

/-- Rolling back to a savepoint. -/
theorem tracks_rollBackTo (text : String)
    (hparts : (tracking sql quits).Parts guards (.on m .visitor)) :
    (Transaction.rollBack m text).Tracks (tracking sql quits) guards (.on m .visitor)
      fun γ' _ => γ' = .on m .visitor := by
  have hvisitor : Post.visitor ≠ .opening := by decide
  refine (tracks_script_work hquits hvisitor hparts text).bind ?_
  rintro _ (e | u) rfl
  · exact (overlooks_steady hquits).markBroken hparts fun s =>
      .work hvisitor (Store.alters_markBroken m s) (Account.develops_markBroken m _)
  · rfl

theorem tracks_closeRoot (hparts : (tracking sql quits).Parts guards (.on m .armed)) (o : Outcome α) :
    (Transaction.closeRoot sql m o).Tracks (tracking sql quits) guards (.on m .armed)
      fun γ' _ => γ' = .on m .holder := by
  have hrollBack (e : Error) : ((Transaction.rollBack m sql.rollback).bind fun _ =>
      .done (.error e : Outcome α)).Tracks (tracking sql quits) guards (.on m .armed)
        fun γ' _ => γ' = .on m .holder :=
    (tracks_rollBack hquits (.inl rfl) hparts).bind fun _ _ h => h
  cases o with
  | error e => exact hrollBack e
  | ok a =>
    refine (tracks_close hquits (.inl rfl) (.inl rfl) hparts).bind ?_
    rintro _ (e | u) rfl
    · exact hrollBack e
    · rfl

theorem tracks_closeNested (undo : String)
    (hparts : (tracking sql quits).Parts guards (.on m .visitor)) (o : Outcome α) :
    (Transaction.closeNested m undo o).Tracks (tracking sql quits) guards (.on m .visitor)
      fun γ' _ => γ' = .on m .visitor := by
  cases o with
  | ok a => rfl
  | error e => exact (tracks_rollBackTo hquits undo hparts).bind fun _ _ h => h

/-! ### Scopes -/

theorem tracks_visit {number : Nat} {tx : Client} (hpost : post ≠ .opening)
    (htx : tx.connection? = some m) (hparts : (tracking sql quits).Parts guards (.on m post)) :
    (visit number tx : Work (Watched (Journal β) α) α).run.Tracks (tracking sql quits) guards
      (.on m post) fun γ' _ => γ' = .on m post := by
  intro s
  refine ⟨.on m post, .enter hpost htx (Store.account_enter number tx s) rfl
    (Store.clients_enter number tx s), ?_⟩
  refine ⟨fun γ' _ => γ' = .on m post, ⟨?_, fun _ _ s₁ => ?_⟩, fun _ _ h => h⟩
  · exact (overlooks_steady hquits).parts_cons (Store.steady_depart _ .givenUp) hparts
  · exact ⟨_, .aside (Store.steady_conclude _ s₁), rfl⟩

end Code

variable [Backend β]

/-! ## Rescues -/

omit [Backend β] in
/-- A task lets go of its connection at the end. -/
theorem minds_holding {m : Nat} {γ : Tenure} {body : Coroutine (Store (Watched (Journal β) α)) Unit}
    (hbody : ∀ guards, body.Tracks (taskTracking sql) guards γ fun γ' _ => γ' = .on m .holder) :
    Minds sql (Connection.holding m body) γ := by
  refine tracks_holding (hbody _) ?_
  rintro _ _ rfl s
  exact ⟨.away, .letGo (Store.alters_letGo m s), trivial⟩

/-- The rescue of a root transaction. -/
theorem minds_rescue (m : Nat) :
    Minds (β := β) (α := α) sql (Transaction.rescue m sql.rollback true) (.on m .rescuing) := by
  have hrescuing : Post.rescuing ≠ .opening := by decide
  refine minds_holding fun guards => ?_
  refine (tracks_script_work (fun _ _ _ _ _ _ _ => trivial) hrescuing (fun _ => trivial) _).bind ?_
  rintro _ _ rfl
  exact (overlooks_steady fun _ _ _ _ _ _ _ => trivial).markBroken (fun _ => trivial)
    (deed_markBroken (.inr rfl))

/-- The rescue of a nested scope. -/
theorem minds_rescue_nested (m : Nat) (text : String) :
    Minds (β := β) (α := α) sql (Transaction.rescue m text false) (.on m .holder) := by
  have hholder : Post.holder ≠ .opening := by decide
  refine minds_holding fun guards => ?_
  refine (tracks_script_work (fun _ _ _ _ _ _ _ => trivial) hholder (fun _ => trivial) text).bind ?_
  rintro _ _ rfl
  rfl

/-! ## Statements and transactions -/

omit [Backend β] in
/-- Whoever has no guard of its own goes without a trace. -/
theorem parts_visitor {m : Nat} : (futureTracking (β := β) (α := α) sql).Parts [] (.on m .visitor) :=
  fun _ => .visitor .refl

/-- A statement through a client of a scope. -/
theorem tracks_run {c : Client} {scope : Scope} (hscope : c.scope = some scope) (r : Request) :
    (c.run r : Work (Watched (Journal β) α) ResultSet).run.Tracks (futureTracking sql) []
      (.on scope.connection .visitor) fun _ _ => True := by
  have hvisitor : Post.visitor ≠ .opening := by decide
  rw [run_scoped hscope]
  intro s
  refine ⟨_, .aside .refl, ?_⟩
  dsimp only
  cases s.isOpen scope with
  | false => trivial
  | true => exact (tracks_share_work lenient_leaving hvisitor parts_visitor r).mono fun _ _ _ => trivial

/-- A transaction through a client of a scope. -/
theorem tracks_transactNested (number : Nat) (c : Client) (parent : Scope) :
    (c.transactNested parent (visit (β := Journal β) (α := α) number)).run.Tracks (futureTracking sql) []
      (.on parent.connection .visitor) fun _ _ => True := by
  have hvisitor : Post.visitor ≠ .opening := by decide
  rw [transactNested_eq]
  intro s
  refine ⟨_, .aside .refl, ?_⟩
  dsimp only
  cases s.isOpen parent with
  | false => trivial
  | true =>
    refine (tracks_script_work lenient_leaving hvisitor parts_visitor _).bind ?_
    rintro _ (e | u) rfl
    · trivial
    · intro s
      refine ⟨_, .aside (Store.steady_openNested parent s), ?_⟩
      have hdepth : ((s.openNested parent).1.depth == 0) = false := by simp [Store.openNested]
      -- the guard of the scope goes back to its savepoint, which leaves the transaction open
      have hparts : (futureTracking (β := β) (α := α) sql).Parts
          [scopeGuard (s.openNested parent).1 (c.settings.transactionSql.undoSavepoint (parent.depth + 1))]
          (.on parent.connection .visitor) := by
        intro s'
        refine .nested (.of_steady (Store.steady_endScope _ s') (Store.alters_hold _ _)) ?_
        rw [hdepth]
        exact minds_rescue_nested _ _
      refine tracks_closing (tracks_visit lenient_leaving hvisitor rfl hparts)
        (fun _ s' => .aside (Store.steady_endScope _ s')) ?_
      rintro _ o rfl
      exact (tracks_closeNested lenient_leaving _ hparts o).mono fun _ _ _ => trivial

/-- A transaction through a client outside transactions: it is with a guard from the moment in which it
has begun to that in which it is closed. -/
theorem tracks_transactRoot (number : Nat) (c : Client) (hsql : c.settings.transactionSql = sql) :
    (c.transactRoot (visit (β := Journal β) (α := α) number)).run.Tracks (futureTracking sql) [] .away
      fun _ _ => True := by
  subst hsql
  have harmed : Post.armed ≠ .opening := by decide
  rw [transactRoot_eq]
  intro s
  rcases Store.draws_acquire c.settings.transactionAcquirer s with ⟨e, hrefused, hdraws⟩ | ⟨hacquired, hdraws⟩
  · refine ⟨.away, .refused hdraws, ?_⟩
    rw [hrefused]
    trivial
  · refine ⟨_, .acquire hdraws, ?_⟩
    rw [hacquired]
    generalize s.attempts + 1 = m
    -- whatever becomes of the transaction, its future has the handle in the end, and lets it go
    refine tracks_holding (Q := fun γ' _ => γ' = .on m .holder)
      ((tracks_begin lenient_leaving fun s => .opening (Store.alters_letGo m s)).bind ?_) ?_
    · rintro _ (e | u) rfl
      · rfl
      · intro s
        refine ⟨_, .aside (Store.steady_openRoot m s), ?_⟩
        have hparts : (futureTracking (β := β) (α := α) c.settings.transactionSql).Parts
            [scopeGuard (s.openRoot m).1 c.settings.transactionSql.rollback, ⟨Store.letGo m, none⟩]
            (.on m .armed) := by
          intro s'
          exact .armed (.of_steady (Store.steady_endScope _ s')
            ((Store.alters_hold m _).trans (Store.alters_letGo m _))) (minds_rescue m)
        refine tracks_closing (tracks_visit lenient_leaving harmed rfl hparts)
          (fun _ s' => .aside (Store.steady_endScope _ s')) ?_
        rintro _ o rfl
        exact tracks_closeRoot lenient_leaving hparts o
    · rintro _ _ rfl s
      exact ⟨.away, .letGo (Store.alters_letGo m s), trivial⟩

/-- The post in which a future begins that comes through a client. -/
def Client.tenure (c : Client) : Tenure :=
  match c.connection? with
  | some n => .on n .visitor
  | none => .away

/-- **A transaction through any client.** -/
theorem tracks_transact (number : Nat) (c : Client) (hsql : c.settings.transactionSql = sql) :
    (c.transact (visit (β := Journal β) (α := α) number)).run.Tracks (futureTracking sql) [] c.tenure
      fun _ _ => True := by
  rw [Client.transact, Client.tenure, Client.connection?]
  cases c.scope with
  | none => exact tracks_transactRoot number c hsql
  | some parent => exact tracks_transactNested number c parent

end SqlClient
