import SqlClient.Proofs.Client.Exchange
import SqlClient.Transaction.Run
/-!
# Transactions — scopes alone

What a scope sends when nobody else uses its connection, over any database that answers whatever it
is sent, well or badly. `Relays` says how far a store has moved on by the replies to what was sent.
`Nests` and `Encloses` are the words of a nested scope and of a root transaction around an operation
of which only the words are known, so they say what happens for each choice of the statements that
fail; `words_transact_nested` and `leased_transact` are the runs that send them.
-/

namespace SqlClient

open Coroutine

@[simp] theorem Outcome.isOk_ok {α : Type} (a : α) : Except.isOk (.ok a : Outcome α) = true := rfl

@[simp] theorem Outcome.isOk_error {α : Type} (e : Error) :
    Except.isOk (.error e : Outcome α) = false := rfl

/-! ## Replies -/

/-- A request and what it came to. -/
structure Reply where
  request : Request
  outcome : Outcome ResultSet

/-- A reply as a ledger takes it. -/
def Reply.exchange (e : Reply) : Exchange := ⟨e.request, e.outcome.isOk⟩

namespace Backend

variable {β : Type} [Backend β] {n : Nat} {b b₁ b' : β} {word word' : List Reply}

/-- A database replies to one request after another over a connection. -/
inductive Replies (n : Nat) : β → List Reply → β → Prop
  | none {b : β} : Replies n b [] b
  | more {b b₁ b' : β} {r : Request} {o : Outcome ResultSet} {word : List Reply} :
      Backend.respond n r b = (.answer o, b₁) → Replies n b₁ word b' → Replies n b (⟨r, o⟩ :: word) b'

theorem Replies.trans (h : Replies n b word b₁) (h' : Replies n b₁ word' b') :
    Replies n b (word ++ word') b' := by
  induction h with
  | none => exact h'
  | more hresponse _ ih => exact .more hresponse (ih h')

/-- What a journal has replied to is what it has written down. -/
theorem Replies.entries {j j' : Journal β} (h : Replies n j word j') :
    j'.entries = j.entries ++ word.map fun e => (n, e.exchange) := by
  induction h with
  | none => simp
  | more hresponse _ ih =>
    rw [ih, entries_of_respond hresponse, List.append_assoc]
    rfl

end Backend

namespace Store

variable {β : Type}

/-- A scope that has just been opened is open. -/
theorem isOpen_openNested {s : Store β} {parent : Scope} (h : s.isOpen parent = true) :
    (s.openNested parent).2.isOpen (s.openNested parent).1 = true := by
  have hparent : (s.openNested parent).2.isOpen parent = true :=
    isOpen_mono (List.prefix_append _ _) h
  simp only [isOpen, openNested, openMark, List.all_append, Bool.and_eq_true] at hparent ⊢
  exact ⟨hparent, by simp⟩

/-- Ending a scope changes nothing about those that were there before it was opened. -/
theorem ended_endScope {s s' : Store β} {scope : Scope} {mark : Nat}
    (hmark : scope.marks.getLast? = some mark) (hlen : s.ended.length ≤ mark)
    (h : s.ended <+: s'.ended) : s.ended <+: (s'.endScope scope).ended := by
  obtain ⟨later, hlater⟩ := h
  simp only [endScope, hmark, ← hlater]
  rw [List.set_append_right _ _ hlen]
  exact List.prefix_append _ _

variable [Backend β] {n : Nat} {word word' : List Reply} {s s₀ s₁ s' : Store β} {scope : Scope}

/-- **The store has moved on by a word**: the database has given exactly these replies, and exactly
their requests, in that order, are what the log says was sent. No scope that was there has changed,
and the connection is idle. -/
structure Relays (s : Store β) (n : Nat) (word : List Reply) (s' : Store β) : Prop where
  replies : Backend.Replies n s.backend word s'.backend
  log : ∃ events, s'.log = s.log ++ events ∧
    events.filter Event.isSent = word.map fun e => e.request.event n
  ended : s.ended <+: s'.ended
  idle : s'.Idle n
  answers : Backend.Answers s'.backend

theorem Relays.refl (hidle : s.Idle n) (ha : Backend.Answers s.backend) : s.Relays n [] s :=
  ⟨.none, ⟨[], by simp⟩, List.prefix_refl _, hidle, ha⟩

/-- **Words are put end to end.** -/
theorem Relays.trans (h : s.Relays n word s₁) (h' : s₁.Relays n word' s') :
    s.Relays n (word ++ word') s' where
  replies := h.replies.trans h'.replies
  log := by
    obtain ⟨events, hlog, hsent⟩ := h.log
    obtain ⟨events', hlog', hsent'⟩ := h'.log
    refine ⟨events ++ events', by rw [hlog', hlog, List.append_assoc], ?_⟩
    rw [List.filter_append, hsent, hsent', List.map_append]
  ended := h.ended.trans h'.ended
  idle := h'.idle
  answers := h'.answers

/-- Ending a scope keeps what was reached before, as long as the scope is a new one. -/
theorem Relays.endScope {mark : Nat} (h : s₀.Relays n word s)
    (hmark : scope.marks.getLast? = some mark) (hlen : s₀.ended.length ≤ mark) :
    s₀.Relays n word (s.endScope scope) where
  replies := by
    rw [Store.endScope, hmark]
    exact h.replies
  log := by
    rw [Store.endScope, hmark]
    exact h.log
  ended := ended_endScope hmark hlen h.ended
  idle := by
    rw [Store.endScope, hmark]
    exact h.idle
  answers := by
    rw [Store.endScope, hmark]
    exact h.answers

/-- Opening a scope sends nothing. -/
theorem relays_openNested (parent : Scope) (h : s.Idle n) (ha : Backend.Answers s.backend) :
    s.Relays n [] (s.openNested parent).2 :=
  ⟨.none, ⟨[], by simp [openNested, openMark]⟩, List.prefix_append _ _, h, ha⟩

theorem relays_openRoot (h : s.Idle n) (ha : Backend.Answers s.backend) :
    s.Relays n [] (s.openRoot n).2 :=
  ⟨.none, ⟨[], by simp [openRoot, openMark]⟩, List.prefix_append _ _, h, ha⟩

/-- Work in a scope can begin: the scope is open, nobody sends over its connection, and the database
answers whatever comes. -/
structure Admits (scope : Scope) (s : Store β) : Prop where
  isOpen : s.isOpen scope = true
  idle : s.Idle scope.connection
  answers : Backend.Answers s.backend

theorem Admits.of_relays (h : s.Admits scope) (h' : s.Relays scope.connection word s') :
    s'.Admits scope :=
  ⟨isOpen_mono h'.ended h.isOpen, h'.idle, h'.answers⟩

theorem admits_openRoot (h : s.Idle n) (ha : Backend.Answers s.backend) :
    (s.openRoot n).2.Admits (s.openRoot n).1 :=
  ⟨by simp [Store.isOpen, openRoot, openMark], h, ha⟩

end Store

/-! ## Single statements -/

namespace Connection

variable {β : Type} [Backend β] {n : Nat} {s : Store β}

/-- A request alone is one reply. -/
theorem relays_share (r : Request) (h : s.Idle n) (ha : Backend.Answers s.backend) :
    ∃ o s', Completes (share n r) s o s' ∧ s.Relays n [⟨r, o⟩] s' := by
  obtain ⟨o, ho⟩ := ha.now n r
  obtain ⟨s', hrun, hs'⟩ := completes_share h ho
  refine ⟨o, s', hrun, .more (Prod.ext ho hs'.backend.symm) .none, ⟨[r.event n], hs'.log, by simp⟩, ?_,
    hs'.idle, ?_⟩
  · exact ⟨[], by rw [List.append_nil, hs'.ended]⟩
  · rw [hs'.backend]
    exact ha.respond n r

/-- A script alone is one reply, of which only success or the error is kept. -/
theorem relays_shareScript (sql : String) (h : s.Idle n) (ha : Backend.Answers s.backend) :
    ∃ o s', Completes (shareScript n sql) s (o.map fun _ => ()) s' ∧
      s.Relays n [⟨.script sql, o⟩] s' := by
  obtain ⟨o, s', hrun, hs'⟩ := relays_share (.script sql) h ha
  exact ⟨o, s', Completes.bind hrun Completes.pure, hs'⟩

end Connection

namespace Transaction

variable {β : Type} [Backend β] {n : Nat} {s : Store β}

/-- Rolling back is one script, however it ends. -/
theorem relays_rollBack (text : String) (h : s.Idle n) (ha : Backend.Answers s.backend) :
    ∃ undone s', Completes (rollBack n text) s () s' ∧ s.Relays n [⟨.script text, undone⟩] s' := by
  obtain ⟨undone, s₁, hrun, hs₁⟩ := Connection.relays_shareScript text h ha
  cases undone with
  | ok => exact ⟨_, s₁, Completes.bind hrun Completes.pure, hs₁⟩
  | error e =>
    obtain ⟨s', hbroken, hbackend, hlog, hended, hidle⟩ := Connection.completes_markBroken hs₁.idle
    refine ⟨.error e, s', Completes.bind hrun hbroken, ?_⟩
    obtain ⟨events, hevents, hsent⟩ := hs₁.log
    refine ⟨by rw [hbackend]; exact hs₁.replies, ⟨events ++ [.broken n], ?_, ?_⟩, ?_, hidle, ?_⟩
    · rw [hlog, hevents, List.append_assoc]
    · rw [List.filter_append, hsent]
      rfl
    · rw [hended]
      exact hs₁.ended
    · rw [hbackend]
      exact hs₁.answers

end Transaction

/-- Alone from a store, the work finishes, and what it sends over a connection is a word that, with
its outcome, is as `P` says. -/
def Work.Words {β α : Type} [Backend β] (w : Work β α) (n : Nat) (s : Store β)
    (P : List Reply → Outcome α → Prop) : Prop :=
  ∃ o s' word, Completes w.run s o s' ∧ s.Relays n word s' ∧ P word o

/-! ## Scopes -/

namespace Transaction

/-- The words of a nested scope of depth `d` around an operation, if `P` says what words the operation
sends and what it comes to with them. -/
inductive Nests (sql : TransactionSql) (d : Nat) {α : Type} (P : List Reply → Outcome α → Prop) :
    List Reply → Outcome α → Prop
  | refused {e : Error} : Nests sql d P [⟨.script (sql.openSavepoint d), .error e⟩] (.error e)
  | returned {inner : List Reply} {a : α} {opened : ResultSet} : P inner (.ok a) →
      Nests sql d P (⟨.script (sql.openSavepoint d), .ok opened⟩ :: inner) (.ok a)
  | failed {inner : List Reply} {e : Error} {opened : ResultSet} {undone : Outcome ResultSet} :
      P inner (.error e) →
      Nests sql d P (⟨.script (sql.openSavepoint d), .ok opened⟩ ::
        (inner ++ [⟨.script (sql.undoSavepoint d), undone⟩])) (.error e)

/-- The words of a root transaction around an operation, if `P` says what words the operation sends
and what it comes to with them. -/
inductive Encloses (sql : TransactionSql) {α : Type} (P : List Reply → Outcome α → Prop) :
    List Reply → Outcome α → Prop
  | refused {e : Error} : Encloses sql P [⟨.script sql.begin, .error e⟩] (.error e)
  | committed {inner : List Reply} {a : α} {begun done : ResultSet} : P inner (.ok a) →
      Encloses sql P (⟨.script sql.begin, .ok begun⟩ :: (inner ++ [⟨.script sql.commit, .ok done⟩])) (.ok a)
  | uncommitted {inner : List Reply} {a : α} {begun : ResultSet} {e : Error}
      {undone : Outcome ResultSet} : P inner (.ok a) →
      Encloses sql P (⟨.script sql.begin, .ok begun⟩ ::
        (inner ++ [⟨.script sql.commit, .error e⟩, ⟨.script sql.rollback, undone⟩])) (.error e)
  | undone {inner : List Reply} {e : Error} {begun : ResultSet} {undone : Outcome ResultSet} :
      P inner (.error e) →
      Encloses sql P (⟨.script sql.begin, .ok begun⟩ :: (inner ++ [⟨.script sql.rollback, undone⟩]))
        (.error e)

variable {β α : Type} [Backend β] {sql : TransactionSql} {n : Nat} {s : Store β}
  {P : List Reply → Outcome α → Prop} {inner : List Reply} {o : Outcome α}

/-- A scope whose operation finishes is ended and then closed with the outcome. -/
theorem completes_closing {scope : Scope} {undo : String} {operation : Coroutine (Store β) (Outcome α)}
    {close : Outcome α → Coroutine (Store β) (Outcome α)} {s s₁ s' : Store β} {o o' : Outcome α}
    (hop : Completes operation s o s₁) (hclose : Completes (close o) (s₁.endScope scope) o' s') :
    Completes (closing scope undo operation close) s o' s' := by
  refine Completes.guarded (Completes.bind hop ?_) Completes.pure
  exact Completes.bind (Completes.change _) hclose

/-- Closing a nested scope completes a word around its operation. -/
theorem words_closeNested {d : Nat} {opened : ResultSet} (hinner : P inner o) (h : s.Idle n)
    (ha : Backend.Answers s.backend) :
    ∃ s' last, Completes (closeNested n (sql.undoSavepoint d) o) s o s' ∧ s.Relays n last s' ∧
      Nests sql d P (⟨.script (sql.openSavepoint d), .ok opened⟩ :: (inner ++ last)) o := by
  cases o with
  | ok a =>
    refine ⟨s, [], Completes.pure, .refl h ha, ?_⟩
    rw [List.append_nil]
    exact .returned hinner
  | error e =>
    obtain ⟨undone, s', hundo, hs'⟩ := relays_rollBack (sql.undoSavepoint d) h ha
    exact ⟨s', _, Completes.bind hundo Completes.pure, hs', .failed hinner⟩

/-- Closing a root transaction completes a word around its operation. -/
theorem words_closeRoot {begun : ResultSet} (hinner : P inner o) (h : s.Idle n)
    (ha : Backend.Answers s.backend) :
    ∃ o' s' last, Completes (closeRoot sql n o) s o' s' ∧ s.Relays n last s' ∧
      Encloses sql P (⟨.script sql.begin, .ok begun⟩ :: (inner ++ last)) o' := by
  cases o with
  | error e =>
    obtain ⟨undone, s', hundo, hs'⟩ := relays_rollBack sql.rollback h ha
    exact ⟨.error e, s', _, Completes.bind hundo Completes.pure, hs', .undone hinner⟩
  | ok a =>
    obtain ⟨commit, s₁, hcommit, hs₁⟩ := Connection.relays_shareScript sql.commit h ha
    cases commit with
    | ok done =>
      exact ⟨.ok a, s₁, _, Completes.bind hcommit Completes.pure, hs₁, .committed hinner⟩
    | error e =>
      obtain ⟨undone, s', hundo, hs'⟩ := relays_rollBack sql.rollback hs₁.idle hs₁.answers
      exact ⟨.error e, s', _, Completes.bind hcommit (Completes.bind hundo Completes.pure),
        hs₁.trans hs', .uncommitted hinner⟩

end Transaction

namespace Client

variable {β α : Type} [Backend β] {c : Client} {scope : Scope} {s : Store β}
  {P : List Reply → Outcome α → Prop} {operation : Client → Work β α}

/-- A request through a client of an open scope is one reply over the scope's connection. -/
theorem relays_run (r : Request) (hc : c.scope = some scope) (h : s.Admits scope) :
    ∃ o s', Completes (c.run r).run s o s' ∧ s.Relays scope.connection [⟨r, o⟩] s' := by
  obtain ⟨o, s', hrun, hs'⟩ := Connection.relays_share r h.idle h.answers
  refine ⟨o, s', ?_, hs'⟩
  rw [Client.run, hc]
  refine Completes.bind (Completes.inspect _) ?_
  rw [h.isOpen]
  exact hrun

/-- **A nested scope sends a word around its operation**, if the operation sends words as `P` says
whenever its scope is open. -/
theorem words_transact_nested (hc : c.scope = some scope) (h : s.Admits scope)
    (hop : ∀ child (s₁ : Store β), child.depth = scope.depth + 1 →
      child.connection = scope.connection → s₁.Admits child →
        Work.Words (operation (c.inScope child)) scope.connection s₁ P) :
    Work.Words (c.transact operation) scope.connection s
      (Transaction.Nests c.settings.transactionSql (scope.depth + 1) P) := by
  obtain ⟨opened, s₁, hset, hs₁⟩ := Connection.relays_shareScript
    (c.settings.transactionSql.openSavepoint (scope.depth + 1)) h.idle h.answers
  rw [transact, hc]
  cases opened with
  | error e =>
    refine ⟨.error e, s₁, _, ?_, hs₁, .refused⟩
    refine Completes.bind (Completes.inspect _) ?_
    rw [h.isOpen]
    exact Completes.bind hset Completes.pure
  | ok =>
    let child := (s₁.openNested scope).1
    have hopened := Store.relays_openNested scope hs₁.idle hs₁.answers
    have hready : Store.Admits child (s₁.openNested scope).2 :=
      ⟨Store.isOpen_openNested (h.of_relays hs₁).isOpen, hopened.idle, hopened.answers⟩
    -- the mark of the new scope is the next one free, so ending it touches no older scope
    obtain ⟨o, s₃, inner, hrun, hs₃, hinner⟩ := hop child _ rfl rfl hready
    have hended : s₁.Relays scope.connection inner (s₃.endScope child) :=
      (hopened.trans hs₃).endScope (by simp [child, Store.openNested, Store.openMark]) (Nat.le_refl _)
    obtain ⟨s', last, hclose, hs', hword⟩ :=
      Transaction.words_closeNested hinner hended.idle hended.answers
    refine ⟨o, s', _, ?_, (hs₁.trans hended).trans hs', hword⟩
    refine Completes.bind (Completes.inspect _) ?_
    rw [h.isOpen]
    refine Completes.bind hset (Completes.bind (Completes.perform _) ?_)
    exact Transaction.completes_closing hrun hclose

end Client

/-! ## Root transactions -/

namespace Transaction

variable {β α : Type} [Backend β] {c : Client} {n : Nat} {s : Store β}

/-- **A root transaction on its connection sends a word around its operation**, if the operation sends
words as `P` says whenever its scope is open. -/
theorem words_enclosing {P : List Reply → Outcome α → Prop} {operation : Client → Work β α}
    (h : s.Idle n) (ha : Backend.Answers s.backend)
    (hop : ∀ scope (s₁ : Store β), scope.depth = 0 → scope.connection = n → s₁.Admits scope →
      Work.Words (operation (c.inScope scope)) n s₁ P) :
    Work.Words (.mk do
        match ← Connection.shareScript n c.settings.transactionSql.begin with
        | .error e => return .error e
        | .ok () => do
          let scope ← Coroutine.perform (Store.openRoot n)
          Transaction.closing scope c.settings.transactionSql.rollback (operation (c.inScope scope)).run
            (Transaction.closeRoot c.settings.transactionSql n)) n s
      (Encloses c.settings.transactionSql P) := by
  obtain ⟨begun, s₁, hbegin, hs₁⟩ :=
    Connection.relays_shareScript c.settings.transactionSql.begin h ha
  -- after a failed BEGIN nothing is sent, not even a rollback
  cases begun with
  | error e => exact ⟨.error e, s₁, _, Completes.bind hbegin Completes.pure, hs₁, .refused⟩
  | ok =>
    let scope := (s₁.openRoot n).1
    have hopened := Store.relays_openRoot hs₁.idle hs₁.answers
    obtain ⟨o, s₃, inner, hrun, hs₃, hinner⟩ :=
      hop scope _ rfl rfl (Store.admits_openRoot hs₁.idle hs₁.answers)
    have hended : s₁.Relays n inner (s₃.endScope scope) :=
      (hopened.trans hs₃).endScope (by simp [scope, Store.openRoot, Store.openMark]) (Nat.le_refl _)
    obtain ⟨o', s', last, hclose, hs', hword⟩ := words_closeRoot hinner hended.idle hended.answers
    refine ⟨o', s', _, ?_, (hs₁.trans hended).trans hs', hword⟩
    refine Completes.bind hbegin (Completes.bind (Completes.perform _) ?_)
    exact completes_closing hrun hclose

end Transaction

namespace Store

variable {β : Type} [Backend β] {s : Store β} {acquirer : Acquirer}

/-- Asking for a connection is all that a backend hears of an acquisition. -/
theorem backend_acquire (s : Store β) (acquirer : Acquirer) :
    (s.acquire acquirer).2.backend = (Backend.connect (s.attempts + 1) s.backend).2 := by
  rw [acquire]
  rcases Backend.connect (s.attempts + 1) s.backend with ⟨_ | _, _⟩ <;> rfl

theorem attempts_acquire (s : Store β) (acquirer : Acquirer) :
    (s.acquire acquirer).2.attempts = s.attempts + 1 := by
  rw [acquire]
  rcases Backend.connect (s.attempts + 1) s.backend with ⟨_ | _, _⟩ <;> rfl

/-- An attempt that gets no connection is noted. -/
theorem log_acquire_error {e : Error} (h : (s.acquire acquirer).1 = .error e) :
    (s.acquire acquirer).2.log = s.log ++ [.refused (s.attempts + 1)] := by
  rw [acquire] at h ⊢
  cases hconnect : (Backend.connect (s.attempts + 1) s.backend).1 with
  | some e => simp [hconnect, note]
  | none => simp [hconnect] at h

/-- A connection that has just been acquired is new, and nobody sends over it. -/
theorem acquire_ok {n : Nat} (h : (s.acquire acquirer).1 = .ok n) :
    n = s.attempts + 1 ∧ (s.acquire acquirer).2.log = s.log ++ [.acquired acquirer n] ∧
      (s.acquire acquirer).2.Idle n := by
  rw [acquire] at h ⊢
  cases hconnect : (Backend.connect (s.attempts + 1) s.backend).1 with
  | some e => simp [hconnect] at h
  | none =>
    obtain rfl : s.attempts + 1 = n := by simpa [hconnect] using h
    simp [hconnect, Idle, ticketsOf, usageOf, setUsage, note, Usage.none]

end Store

/-- Work on a connection of its own: none is given, or one is, and what is sent over it and comes of
it is as `P` says. -/
inductive Store.Leased {β α : Type} [Backend β] (acquirer : Acquirer)
    (P : List Reply → Outcome α → Prop) (s : Store β) : Outcome α → Store β → Prop
  | refused {e : Error} : (s.acquire acquirer).1 = .error e →
      Leased acquirer P s (.error e) (s.acquire acquirer).2
  | given {n : Nat} {word : List Reply} {o : Outcome α} {s₁ : Store β} :
      (s.acquire acquirer).1 = .ok n → (s.acquire acquirer).2.Relays n word s₁ → P word o →
      Leased acquirer P s o (s₁.letGo n)

/-- Without a connection nothing has happened but the attempt to get one. -/
theorem Store.Leased.of_refused {β α : Type} [Backend β] {acquirer : Acquirer}
    {P : List Reply → Outcome α → Prop} {s s' : Store β} {o : Outcome α} {e : Error}
    (h : s.Leased acquirer P o s') (hrefused : (s.acquire acquirer).1 = .error e) :
    o = .error e ∧ s' = (s.acquire acquirer).2 := by
  cases h with
  | refused hrefused' =>
    obtain rfl := Except.error.inj (hrefused'.symm.trans hrefused)
    exact ⟨rfl, rfl⟩
  | given hgiven => cases hgiven.symm.trans hrefused

/-- On the connection that is given, a word has been sent and answered, and nothing else. -/
theorem Store.Leased.of_given {β α : Type} [Backend β] {acquirer : Acquirer}
    {P : List Reply → Outcome α → Prop} {s s' : Store β} {o : Outcome α} {n : Nat}
    (h : s.Leased acquirer P o s') (hgiven : (s.acquire acquirer).1 = .ok n) :
    ∃ word events, s'.log = s.log ++ .acquired acquirer n :: events ∧
      events.filter Event.isSent = word.map (fun e => e.request.event n) ∧
      Backend.Replies n (s.acquire acquirer).2.backend word s'.backend ∧ P word o := by
  cases h with
  | refused hrefused => cases hrefused.symm.trans hgiven
  | @given m word _ s₁ hgiven' hrelays hP =>
    obtain rfl : m = n := Except.ok.inj (hgiven'.symm.trans hgiven)
    obtain ⟨-, hlog, -⟩ := acquire_ok hgiven
    obtain ⟨events, hevents, hsent⟩ := hrelays.log
    obtain ⟨last, hlast, hnone⟩ := s₁.log_letGo m
    refine ⟨word, events ++ last, ?_, ?_, ?_, hP⟩
    · rw [hlast, hevents, hlog]
      simp
    · rw [List.filter_append, hsent, hnone, List.append_nil]
    · rw [backend_letGo]
      exact hrelays.replies

namespace Client

variable {β α : Type} [Backend β] {c : Client} {s : Store β}

/-- Outside transactions a request is one reply over a connection of its own. -/
theorem leased_run (r : Request) (hc : c.scope = none)
    (ha : Backend.Answers (s.acquire .general).2.backend) :
    ∃ o s', Completes (c.run r).run s o s' ∧
      s.Leased .general (fun word o => word = [⟨r, o⟩]) o s' := by
  have hacquire := Completes.perform (Store.acquire .general) (s := s)
  rw [Client.run, hc]
  cases hgiven : (s.acquire .general).1 with
  | error e =>
    rw [hgiven] at hacquire
    exact ⟨_, _, Completes.bind hacquire Completes.pure, .refused hgiven⟩
  | ok n =>
    obtain ⟨-, -, hidle⟩ := Store.acquire_ok hgiven
    obtain ⟨o, ho⟩ := ha.now n r
    rw [hgiven] at hacquire
    refine ⟨o, _, Completes.bind hacquire
      (Completes.ensuring (Connection.completes_exchange ho)), .given hgiven ⟨?_, ?_, ?_, ?_, ?_⟩ rfl⟩
    · exact .more (Prod.ext ho rfl) .none
    · exact ⟨[r.event n], rfl, by simp⟩
    · exact List.prefix_refl _
    · simpa [Store.Idle] using hidle
    · exact ha.respond n r

/-- A root transaction sends a word around its operation over a connection of its own. -/
theorem leased_transact (operation : Client → Work β α) (P : List Reply → Outcome α → Prop)
    (hc : c.scope = none) (ha : Backend.Answers (s.acquire c.settings.transactionAcquirer).2.backend)
    (hop : ∀ scope (s₁ : Store β), scope.depth = 0 → s₁.Admits scope →
      Work.Words (operation (c.inScope scope)) scope.connection s₁ P) :
    ∃ o s', Completes (c.transact operation).run s o s' ∧
      s.Leased c.settings.transactionAcquirer
        (Transaction.Encloses c.settings.transactionSql P) o s' := by
  have hacquire := Completes.perform (Store.acquire c.settings.transactionAcquirer) (s := s)
  rw [Client.transact, hc]
  cases hgiven : (s.acquire c.settings.transactionAcquirer).1 with
  | error e =>
    rw [hgiven] at hacquire
    exact ⟨_, _, Completes.bind hacquire Completes.pure, .refused hgiven⟩
  | ok n =>
    obtain ⟨-, -, hidle⟩ := Store.acquire_ok hgiven
    rw [hgiven] at hacquire
    obtain ⟨o, s₁, word, hrun, hs₁, hword⟩ := Transaction.words_enclosing (c := c) hidle ha
      fun scope s₁ hdepth hconnection hready => hconnection ▸ hop scope s₁ hdepth hready
    exact ⟨o, _, Completes.bind hacquire (Completes.ensuring hrun), .given hgiven hs₁ hword⟩

end Client

end SqlClient
