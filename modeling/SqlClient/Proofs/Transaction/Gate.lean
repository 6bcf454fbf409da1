import SqlClient.Proofs.Transaction.Soundness
import SqlClient.Session.Scripted
/-!
# Transactions — the gate

What is sent through a client of a scope, and when. As long as no operation around it has been left, a
statement through the client, or the savepoint of a transaction inside it, gets in line for the
connection of the transaction and is sent when its turn comes. Afterwards both fail at once, and nothing
changes. So whatever closes a scope is sent after everything that was sent through its clients
(`Assembly.gated_of_steps`).
-/

namespace SqlClient

open Coroutine

variable {β α γ : Type}

/-! ## Getting in line -/

/-- In the first turn in which a ticket is served, the code sends a request before anything else; until
then it does nothing. -/
def Awaits [Backend β] (n ticket : Nat) (r : Request) (code : Coroutine (Store β) γ) : Prop :=
  ∀ w, (w.state.isServed n ticket = false → code.poll w = (code, w)) ∧
    (w.state.isServed n ticket = true →
      ∃ later, w.state.sent (code.poll w).2.state = r.event n :: later)

/-- The code sends a request over a connection, at once if nobody is in line there; otherwise it gets in
line, and sends the request when its turn has come. -/
def Sends [Backend β] (n : Nat) (r : Request) (code : Coroutine (Store β) γ) (s : Store β) : Prop :=
  ∀ w, w.state = s →
    (s.ticketsOf n = [] → ∃ later, s.sent (code.poll w).2.state = r.event n :: later) ∧
      (s.ticketsOf n ≠ [] → (code.poll w).2.state = (s.takeTicket n).2 ∧
        Awaits n (s.takeTicket n).1 r (code.poll w).1)

section Line

variable [Backend β] {scope? : Option Scope} {owner : Option Nat} {stage : Stage}
  {leaves : Stage → Coroutine (Store (Watched β α)) Unit → Prop} {Q : Stage → γ → Prop}
  {D : Stage → Prop} {n ticket : Nat} {r : Request} {ρ : Type}
  {tail : Nat → Coroutine (Store (Watched β α)) ρ} {k : ρ → Coroutine (Store (Watched β α)) γ}

/-- What code does after a request has been sent takes nothing back from the log, as long as the code
keeps to a protocol. -/
theorem sent_of_plays {rest : Coroutine (Store (Watched β α)) γ}
    (hplays : rest.Plays (rules scope? owner leaves) stage Q D) {s : Store (Watched β α)}
    {w : Turn (Store (Watched β α))} (hw : w.state = (s.send n r).2) :
    ∃ later, s.sent (rest.poll w).2.state = r.event n :: later := by
  obtain ⟨stage', hrow, -⟩ := hplays.poll w
  obtain ⟨events, hevents⟩ : w.state.log <+: (rest.poll w).2.state.log := log_of_row hrow
  have hlog : w.state.log = s.log ++ [r.event n] := by rw [hw]; rfl
  rw [hlog, List.append_assoc] at hevents
  refine ⟨events.filter Event.isSent, ?_⟩
  rw [sent_of_log hevents.symm, List.filter_append]
  simp

/-- Code that stands in line sends its request first when its turn has come. -/
theorem awaits_of_plays {cleanup : Store (Watched β α) → Store (Watched β α)}
    (hplays : (Coroutine.guarded cleanup none
      (.await (Store.isServed n ticket) (.step (Store.send n r) tail)) k).Plays
        (rules scope? owner leaves) stage Q D) :
    Awaits n ticket r (.guarded cleanup none
      (.await (Store.isServed n ticket) (.step (Store.send n r) tail)) k) := by
  intro w
  constructor
  · intro hwaits
    simp [Coroutine.poll, hwaits]
  · intro hserved
    obtain ⟨Q', D', ⟨-, -, hbody⟩, hk, hcleanup⟩ := hplays
    obtain ⟨stage₁, -, hsend⟩ := hbody w.state hserved
    obtain ⟨stage₂, -, htail⟩ := hsend w.state
    have hrest : (Coroutine.guarded cleanup none (tail (w.state.send n r).1) k).Plays
        (rules scope? owner leaves) stage₂ Q D := ⟨Q', D', htail, hk, hcleanup⟩
    have hpoll : (Coroutine.guarded cleanup none
        (.await (Store.isServed n ticket) (.step (Store.send n r) tail)) k).poll w =
          (Coroutine.guarded cleanup none (tail (w.state.send n r).1) k).poll
            { w with state := (w.state.send n r).2 } := by
      simp [Coroutine.poll, hserved]
    rw [hpoll]
    exact sent_of_plays hrest rfl

/-- Code that gets in line sends its request. -/
theorem sends_of_plays {s : Store (Watched β α)} {cleanup : Nat → Store (Watched β α) → Store (Watched β α)}
    {k : Nat → ρ → Coroutine (Store (Watched β α)) γ} {code : Coroutine (Store (Watched β α)) γ}
    (hcode : code = .step (Store.takeTicket n) fun ticket => .guarded (cleanup ticket) none
      (.await (Store.isServed n ticket) (.step (Store.send n r) tail)) (k ticket))
    (hplays : code.Plays (rules scope? owner leaves) stage Q D)
    (hnext : ∀ ticket ∈ s.ticketsOf n, ticket < (s.takeTicket n).1) : Sends n r code s := by
  subst hcode
  rintro w rfl
  obtain ⟨stage₁, -, hwaiting⟩ := hplays w.state
  have hawaits := awaits_of_plays hwaiting { w with state := (w.state.takeTicket n).2 }
  constructor
  · exact fun hidle => hawaits.2 (Store.isServed_takeTicket hidle)
  · intro hbusy
    have hwaits : (w.state.takeTicket n).2.isServed n (w.state.takeTicket n).1 = false := by
      rw [Bool.eq_false_iff, Ne, isServed_iff, Store.ticketsOf_takeTicket]
      cases htickets : w.state.ticketsOf n with
      | nil => exact absurd htickets hbusy
      | cons first others =>
        rintro hfirst
        have hlt := hnext first (htickets ▸ List.mem_cons_self)
        exact Nat.lt_irrefl _ (Option.some.inj hfirst ▸ hlt)
    have hpoll := hawaits.1 hwaits
    refine ⟨congrArg (·.2.state) hpoll, ?_⟩
    have hrest : (Coroutine.step (Store.takeTicket n) fun ticket => .guarded (cleanup ticket) none
        (.await (Store.isServed n ticket) (.step (Store.send n r) tail)) (k ticket)).poll w = _ := hpoll
    rw [hrest]
    exact awaits_of_plays hwaiting

end Line

/-! ## The gate -/

/-- The operation of a scope that encloses a client has been left: it has returned, or was given up. -/
def Store.Exited (c : Client) (s : Store (Watched β α)) : Prop :=
  ∃ v ∈ s.backend.visits, Encloses v.client c ∧ v.departure.isSome

namespace Assembly

variable [Backend β] {members : List Member} {A : Assembly β α} {c : Client} {scope : Scope}

/-- A client is refused iff the operation of a scope around it has been left. -/
theorem Orderly.isOpen_iff (h : Orderly members A) (hscope : c.scope = some scope)
    (hc : A.store.AtHand c) : A.store.isOpen scope = true ↔ ¬ A.store.Exited c := by
  obtain ⟨v, hv, hsame, -⟩ := hc
  obtain ⟨place, hplace⟩ := List.mem_iff_getElem?.1 hv
  have hmarks : c.marks = scope.marks := by rw [Client.marks, hscope]; rfl
  rw [h.sound.registered.isOpen_iff trivial hplace (hsame.symm.trans hscope)]
  constructor
  · rintro hall ⟨u, hu, hencloses, hleft⟩
    rw [hall u hu (hmarks ▸ hencloses)] at hleft
    cases hleft
  · intro hnone u hu hwithin
    cases hdeparture : u.departure with
    | none => rfl
    | some departure =>
      exact absurd ⟨u, hu, (hmarks ▸ hwithin : u.client.marks <+: c.marks), by rw [hdeparture]; rfl⟩ hnone

/-- Whoever comes to a line gets a ticket that nobody has. -/
theorem Orderly.next (h : Orderly members A) (n : Nat) :
    ∀ ticket ∈ A.store.ticketsOf n, ticket < (A.store.takeTicket n).1 :=
  h.sound.lined.next n

/-- Code that goes on iff a scope is open: it sends its request, or fails at once. -/
theorem Orderly.gate (h : Orderly members A) (hscope : c.scope = some scope) (hc : A.store.AtHand c)
    {scope? : Option Scope} {owner : Option Nat} {stage : Stage}
    {leaves : Stage → Coroutine (Store (Watched β α)) Unit → Prop} {Q : Stage → Outcome γ → Prop}
    {D : Stage → Prop} {r : Request} {code inside : Coroutine (Store (Watched β α)) (Outcome γ)}
    (hcode : code = .step (fun s => (s.isOpen scope, s)) fun isOpen =>
      if isOpen then inside else .done (.error .scopeEnded))
    (hplays : code.Plays (rules scope? owner leaves) stage Q D)
    (hinside : ∀ {stage}, inside.Plays (rules scope? owner leaves) stage Q D →
      Sends scope.connection r inside A.store) :
    (¬ A.store.Exited c → Sends scope.connection r code A.store) ∧
      (A.store.Exited c → ∀ w, w.state = A.store → code.poll w = (.done (.error .scopeEnded), w)) := by
  subst hcode
  constructor
  · rintro hnone w hw
    have hopen : A.store.isOpen scope = true := (h.isOpen_iff hscope hc).2 hnone
    obtain ⟨stage₁, -, hplaysInside⟩ := hplays A.store
    dsimp only at hplaysInside
    rw [if_pos hopen] at hplaysInside
    have hpoll : (Coroutine.step (fun s => (s.isOpen scope, s)) fun isOpen =>
        if isOpen then inside else .done (.error .scopeEnded)).poll w = inside.poll w := by
      rw [← hw] at hopen
      simp [Coroutine.poll, hopen]
    rw [hpoll]
    exact hinside hplaysInside w hw
  · rintro hexited w hw
    have hclosed : A.store.isOpen scope = false := by
      rw [Bool.eq_false_iff, Ne, h.isOpen_iff hscope hc]
      exact fun hnone => hnone hexited
    rw [← hw] at hclosed
    simp [Coroutine.poll, hclosed]

/-- What goes through the clients of scopes. -/
structure Gated (A : Assembly β α) : Prop where
  /-- A statement that is first polled while no operation around its client has been left is sent over
  the connection of the transaction, when its turn comes. -/
  statement_sent : ∀ (c : Client) (scope : Scope) (r : Request), c.scope = some scope →
    A.store.AtHand c → ¬ A.store.Exited c → Sends scope.connection r (c.run r).run A.store
  /-- Otherwise it fails, and nothing changes. -/
  statement_refused : ∀ (c : Client) (r : Request), A.store.AtHand c → A.store.Exited c →
    ∀ w, w.state = A.store → (c.run r).run.poll w = (.done (.error .scopeEnded), w)
  /-- The same is true of a transaction inside the scope, which first sets a savepoint. -/
  savepoint_sent : ∀ (c : Client) (scope : Scope) (number : Nat), c.scope = some scope →
    A.store.AtHand c → ¬ A.store.Exited c →
      Sends scope.connection (.script (c.settings.transactionSql.openSavepoint (scope.depth + 1)))
        (c.transact (visit number)).run A.store
  savepoint_refused : ∀ (c : Client) (number : Nat), A.store.AtHand c → A.store.Exited c →
    ∀ w, w.state = A.store →
      (c.transact (visit number)).run.poll w = (.done (.error .scopeEnded), w)
  /-- Nothing is sent through a client after what closes a scope around it. -/
  order : A.history.Pairwise fun e e' =>
    ∀ tx c, e.role = .closing tx → e'.role = .through c → ¬ Encloses tx c
  /-- What has been sent is in the log, in this order. -/
  recorded : (A.history.map (·.event)).Sublist (A.store.log.filter Event.isSent)

/-- Statements through a client. -/
theorem Orderly.statement (h : Orderly members A) (hscope : c.scope = some scope)
    (hc : A.store.AtHand c) (r : Request) :
    (¬ A.store.Exited c → Sends scope.connection r (c.run r).run A.store) ∧
      (A.store.Exited c → ∀ w, w.state = A.store →
        (c.run r).run.poll w = (.done (.error .scopeEnded), w)) := by
  have hplays : (c.run r : Work (Watched β α) ResultSet).run.Plays (futureRules (some scope) none)
      (.going (.before (some scope.connection)) .away)
      (fun stage _ => stage = .going (.before (some scope.connection)) .away)
      (fun stage => stage = .going (.before (some scope.connection)) .away) := plays_run hscope r
  exact h.gate hscope hc (run_scoped hscope r) hplays fun hshare =>
    sends_of_plays rfl hshare (h.next scope.connection)

/-- Transactions through a client. -/
theorem Orderly.savepoint (h : Orderly members A) (hscope : c.scope = some scope)
    (hc : A.store.AtHand c) (number : Nat) :
    (¬ A.store.Exited c →
      Sends scope.connection (.script (c.settings.transactionSql.openSavepoint (scope.depth + 1)))
        (c.transact (visit number)).run A.store) ∧
      (A.store.Exited c → ∀ w, w.state = A.store →
        (c.transact (visit number)).run.poll w = (.done (.error .scopeEnded), w)) := by
  have htransact : c.transact (visit (β := β) (α := α) number) = c.transactNested scope (visit number) := by
    rw [Client.transact, hscope]
  rw [htransact]
  exact h.gate hscope hc (transactNested_eq c scope (visit number)) (plays_transactNested number c scope)
    fun hshare => sends_of_plays rfl hshare (h.next scope.connection)

/-- **Nothing goes through a client once a scope around it has ended**, in any assembly that can be
reached: what comes then is refused, and what came before is sent before the scope is closed. -/
theorem gated_of_steps {database : β} {cache : RequestCache CacheKey Nat}
    (hsteps : Relation.ReflTransGen Step (start (Store.start ⟨database, [], []⟩ cache)) A) : A.Gated := by
  obtain ⟨members, h⟩ := orderly_of_steps hsteps
  have hscope {c : Client} (hc : A.store.AtHand c) : ∃ scope, c.scope = some scope := by
    obtain ⟨v, -, -, hsome⟩ := hc
    exact Option.isSome_iff_exists.1 hsome
  constructor
  case statement_sent => exact fun c scope r hscope hc => (h.statement hscope hc r).1
  case statement_refused =>
    intro c r hc
    obtain ⟨scope, hscope⟩ := hscope hc
    exact (h.statement hscope hc r).2
  case savepoint_sent => exact fun c scope number hscope hc => (h.savepoint hscope hc number).1
  case savepoint_refused =>
    intro c number hc
    obtain ⟨scope, hscope⟩ := hscope hc
    exact (h.savepoint hscope hc number).2
  case order => exact h.sound.ordered.order
  case recorded => exact h.recorded

/-! ### A transaction that commits -/

/-- A client outside transactions. -/
def outerClient : Client := ⟨⟨.ofDialect .sqlite, .ofDialect .sqlite, .general, none⟩, none, 0⟩

/-- The client that the first root transaction hands out. -/
def innerClient : Client := outerClient.inScope ⟨1, 1, 0, [0]⟩

/-- Scripted connections on which every statement succeeds. -/
def scripted : Assembly ScriptedDatabase Unit := start (Store.start ⟨⟨[], []⟩, [], []⟩ .default)

/-- A transaction that has begun, and a statement through its client. -/
def working : Assembly ScriptedDatabase Unit :=
  ((((scripted.begin outerClient).poll 0).issue innerClient (.statement "INSERT INTO a" [])).poll 1)

/-- The same transaction after its operation has been told to return. -/
def told : Assembly ScriptedDatabase Unit :=
  { working with
    store := { working.store with
      backend := { working.store.backend with decisions := [some (.ok ())] } } }

/-- The same transaction after its operation has returned. -/
def committed : Assembly ScriptedDatabase Unit := told.poll 0

theorem visits_committed :
    committed.store.backend.visits = [⟨0, innerClient, some (.returned (.ok ()))⟩] := by
  with_unfolding_all rfl

theorem steps_committed : Relation.ReflTransGen Step scripted committed := by
  have hbegun : Relation.ReflTransGen Step scripted ((scripted.begin outerClient).poll 0) :=
    (Relation.ReflTransGen.single (.begin (.inl rfl))).tail (.poll 0)
  have hvisits : ((scripted.begin outerClient).poll 0).store.backend.visits = [⟨0, innerClient, none⟩] := by
    with_unfolding_all rfl
  have hatHand : ((scripted.begin outerClient).poll 0).store.AtHand innerClient :=
    ⟨⟨0, innerClient, none⟩, by rw [hvisits]; exact List.mem_singleton_self _, rfl, rfl⟩
  have hworking : Relation.ReflTransGen Step scripted working :=
    (hbegun.tail (.issue hatHand)).tail (.poll 1)
  have hdecisions : working.store.backend.decisions = [none] := by with_unfolding_all rfl
  have hothers : working.store.Elsewhere told.store :=
    ⟨rfl, rfl, by rw [hdecisions]; rfl, List.prefix_refl _, Nat.le_refl _, fun _ => .inl rfl⟩
  have htold : Relation.ReflTransGen Step scripted told := hworking.tail (.others hothers)
  exact htold.tail (.poll 0)

/-- After its COMMIT nothing goes through the client of a transaction, and what went through it stands
before the COMMIT. -/
theorem gated_committed :
    Relation.ReflTransGen Step scripted committed ∧
    committed.history.map (fun e => e.event) =
      [.script 1 "BEGIN", .statement 1 "INSERT INTO a" [], .script 1 "COMMIT"] ∧
    committed.store.AtHand innerClient ∧ committed.store.Exited innerClient ∧ committed.Gated ∧
    ∀ r w, w.state = committed.store →
      (innerClient.run r).run.poll w = (.done (.error .scopeEnded), w) := by
  have hatHand : committed.store.AtHand innerClient :=
    ⟨_, by rw [visits_committed]; exact List.mem_singleton_self _, rfl, rfl⟩
  have hself : Encloses innerClient innerClient := List.prefix_refl _
  have hexited : committed.store.Exited innerClient :=
    ⟨_, by rw [visits_committed]; exact List.mem_singleton_self _, hself, rfl⟩
  have hgated : committed.Gated := gated_of_steps steps_committed
  refine ⟨steps_committed, ?_, hatHand, hexited, hgated, fun r w hw => ?_⟩
  · with_unfolding_all rfl
  · exact hgated.statement_refused innerClient r hatHand hexited w hw

end Assembly

end SqlClient
