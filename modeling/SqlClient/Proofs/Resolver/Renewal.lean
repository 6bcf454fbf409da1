import SqlClient.Proofs.Resolver.Departures
import SqlClient.Proofs.Resolver.Expiry
/-!
# Resolvers — requests that begin later

A request is answered from the slot that it found or opened when it began (`answered_of_runs`). Once a
caller has returned with the answer in a slot, that slot answers no request that begins later if the answer
is a failure, or if the time to live has passed since: the request starts work of its own or shares newer
work (`renewed_of_runs`). But the delivery of a batch alone changes nothing in the cache. When the callers who
waited for it have been given up, the entry is still pending, and the next request gets the old answer
(`uncollected_failure_is_returned`).
-/

namespace SqlClient

namespace Resolver

open Coroutine Ensemble

variable {β : Type} {r : Resolver (Observed β)} {T : Terms β} {A A' : Traffic β}
  {s s' s₁ : Store (Observed β)} {calls : List Call}
  {p p' q : Ensemble (Store (Observed β)) (Outcome (Option Json))} {asked es : List PendingRequest}

/-! ## What lasts -/

/-- What a step leaves of what was known before: answers stay in their slots, what is settled or stale stays
so, and the clock runs on. -/
structure Lasts (r : Resolver (Observed β)) (s s' : Store (Observed β)) : Prop where
  stays : Stays s s'
  settled : ∀ place slot a moment, Settled r s place slot a moment → Settled r s' place slot a moment
  stale : ∀ slot, Stale r s slot → Stale r s' slot
  clock : s.now ≤ s'.now

theorem Lasts.refl : Lasts r s s := ⟨fun _ _ h => h, fun _ _ _ _ h => h, fun _ h => h, Nat.le_refl _⟩

theorem Lasts.trans (h : Lasts r s s₁) (h' : Lasts r s₁ s') : Lasts r s s' :=
  ⟨fun n o hn => h'.stays n o (h.stays n o hn),
    fun place slot a moment hs => h'.settled place slot a moment (h.settled place slot a moment hs),
    fun slot hs => h'.stale slot (h.stale slot hs), h.clock.trans h'.clock⟩

/-- What is kept for a resolver and the entries under its tag. -/
structure Filing (r : Resolver (Observed β)) (T : Terms β) (calls : List Call) (asked : List PendingRequest)
    (p : Ensemble (Store (Observed β)) (Outcome (Option Json))) (A : Traffic β) : Prop where
  books : Books r T asked p A
  sourced : Sourced r A
  filed : Filed r A.world.store
  tasks : ∀ t ∈ A.tasks, t.Thinning r
  files : ∀ call stage, (call, stage) ∈ A.calls → CallStage.Files r A.world.store call stage
  calls : A.calls.map Prod.fst = calls

theorem filing_outset (hfresh : Fresh r s) (hrelies : T.relies s.backend.database)
    (hserves : ∀ call ∈ calls, T.serves call.client) :
    Filing r T calls [] (r.outset s calls) (.outset s calls) := by
  refine ⟨books_outset hfresh hrelies hserves, sourced_outset hfresh calls, filed_of_fresh hfresh,
    List.forall_mem_nil _, fun call stage hmem => ?_, ?_⟩
  · obtain ⟨call, -, heq⟩ := List.mem_map.1 hmem
    cases heq
    trivial
  · simp [Traffic.outset, Function.comp_def]

variable (hkeeps : r.Keeps T)
  (hbatch : ∀ client inputs, (r.batch client inputs).Obeys r.thinning fun _ => True)

include hkeeps hbatch

/-- Every step keeps what is kept. -/
theorem Filing.goes (h : Filing r T calls asked p A) (hgo : Goes (r.Apart T) p q) :
    ∃ A', Filing r T calls (asked ++ r.joined p.state q.state) q A' ∧ Lasts r p.state q.state := by
  obtain ⟨A', hstep, hshows⟩ := h.books.shows.goes hgo
  have hbeyond : Traffic.Steps r (r.Beyond T) A A' := hstep.mono fun _ _ hothers => hothers.1
  obtain ⟨he, -⟩ := h.books.effect hkeeps hbeyond
  have hstays := he.stays h.books.scheduled h.books.unanswered
  obtain ⟨⟨n₀, key₀, hre⟩, htasks⟩ := hstep.refiles hbatch he h.tasks
  have hlasts : Lasts r A.world.store A'.world.store :=
    ⟨hstays, fun _ _ _ _ => hre.settled, fun _ => hre.stale, hre.clock⟩
  refine ⟨A', ⟨h.books.step hkeeps hbeyond hshows,
    hstep.sourced he h.books.scheduled h.books.unanswered h.sourced, hre.filed h.filed, htasks, ?_,
    hstep.calls.1.trans h.calls⟩, ?_⟩
  · intro call stage' hmem
    rcases hstep.calls.2 call stage' hmem with hmem | ⟨stage, ts, hmem, hcall⟩
    · exact (h.files call stage' hmem).later hre hstays
    · exact hcall.files hre hstays h.filed (h.sourced.calls call stage hmem) (h.files call stage hmem)
  · rwa [h.books.shows.store, hshows.store]

/-- **What every interleaving keeps**, also with callers that are given up. -/
theorem filing_of_runs (h : Filing r T calls asked p' A) (hmirrors : Mirrors p p')
    (hrun : Runs (Proceeds (r.Apart T)) r.joined p es q) :
    ∃ q' A', Mirrors q q' ∧ Filing r T calls (asked ++ es) q' A' ∧ Lasts r p.state q.state := by
  obtain ⟨q', -, hmirrors', hruns, -⟩ := runs_of_departing h.books.shows hmirrors hrun
  obtain ⟨A', hkept, hlasts⟩ := hruns.keeps
    (I := fun es q => ∃ A, Filing r T calls es q A ∧ Lasts r p'.state q.state) ⟨A, h, .refl⟩
    fun es q₁ q₂ ⟨A, h, hlasts⟩ hgo => by
      obtain ⟨A', h', hlasts'⟩ := h.goes hkeeps hbatch hgo
      exact ⟨A', h', hlasts.trans hlasts'⟩
  refine ⟨q', A', hmirrors', hkept, ?_⟩
  rwa [← hmirrors.state, ← hmirrors'.state]

omit hkeeps hbatch

/-! ## Requests that begin -/

/-- A call begins: it looks its key up and has a ticket. -/
def enter (r : Resolver (Observed β)) (p : Ensemble (Store (Observed β)) (Outcome (Option Json))) (i : Nat)
    (client : Client) (input : Input) (key : CacheKey) : Ensemble (Store (Observed β)) (Outcome (Option Json)) :=
  ⟨(r.lookupOrEnqueue client input key p.state).2,
    p.callers.set i ((CallStage.ofTicket client key (r.lookupOrEnqueue client input key p.state).1).code
      r.observed (.resolve client input)), p.tasks⟩

/-- This is the first step of a call. -/
theorem goes_enter {others : Store (Observed β) → Store (Observed β) → Prop} {i : Nat} {client : Client}
    {input : Input} {key : CacheKey} (hkey : r.key client input = .ok key)
    (hi : p.callers[i]? = some (Call.run r.observed (.resolve client input))) :
    Goes others p (r.enter p i client input key) := by
  obtain ⟨s, callers, tasks⟩ := p
  dsimp only at hi
  obtain ⟨hlt, hget⟩ := List.getElem?_eq_some_iff.1 hi
  have hcallers : callers =
      callers.take i ++ Call.run r.observed (.resolve client input) :: callers.drop (i + 1) := by
    rw [← hget, List.getElem_cons_drop, List.take_append_drop]
  have hmoves : Moves (Call.run r.observed (.resolve client input)) s
      ((CallStage.ofTicket client key (r.lookupOrEnqueue client input key s).1).code r.observed
        (.resolve client input)) (r.lookupOrEnqueue client input key s).2 [] := by
    have hrun : Call.run r.observed (.resolve client input) = _ := run_resolve hkey
    rw [hrun]
    exact .step
  have hgoes : Goes others ⟨s, callers.take i ++ _ :: callers.drop (i + 1), tasks⟩
      ⟨_, callers.take i ++ _ :: callers.drop (i + 1), tasks ++ []⟩ := goes_caller (.inl hmoves)
  rw [enter, List.set_eq_take_append_cons_drop, if_pos hlt]
  rwa [← hcallers, List.append_nil] at hgoes

/-- What is left of a request that has its ticket: it waits for its slot and reads it. -/
def Reads (r : Resolver (Observed β)) (client : Client) (key : CacheKey) (ticket : Ticket)
    (s : Store (Observed β)) (c : Coroutine (Store (Observed β)) (Outcome (Option Json))) : Prop :=
  (∃ d, c = givenUp d) ∨ c = .spawn r.observed.flush (CallStage.wait r.observed client key ticket) ∨
    c = CallStage.wait r.observed client key ticket ∨
    ∃ a, s.slots[ticket.slot]? = some (some a) ∧
      (c = CallStage.collect r.observed client key ticket ∨ c = .done (CallStage.conclude r a))

theorem Reads.shifts {client : Client} {key : CacheKey} {ticket : Ticket}
    {c c' : Coroutine (Store (Observed β)) (Outcome (Option Json))}
    {ts : List (Coroutine (Store (Observed β)) Unit)} (h : Reads r client key ticket s c)
    (hshift : Shifts c s c' s' ts) (hstays : Stays s s') : Reads r client key ticket s' c' := by
  rcases h with ⟨d, rfl⟩ | rfl | rfl | ⟨a, ha, rfl | rfl⟩
  · exact .inl ⟨d, (shifts_givenUp hshift).1⟩
  · obtain ⟨-, ⟨rfl, -⟩ | ⟨rfl, -⟩⟩ := shifts_spawn hshift
    · exact .inr (.inl rfl)
    · exact .inr (.inr (.inl rfl))
  · obtain ⟨-, rfl, rfl | ⟨rfl, hready⟩⟩ := shifts_await hshift
    · exact .inr (.inr (.inl rfl))
    · obtain ⟨a, ha⟩ := Option.isSome_iff_exists.1 hready
      exact .inr (.inr (.inr ⟨a, Option.join_eq_some_iff.1 ha, .inl rfl⟩))
  · obtain ⟨-, ⟨rfl, -⟩ | ⟨rfl, -⟩⟩ := shifts_step hshift
    · exact .inr (.inr (.inr ⟨a, hstays _ _ ha, .inl rfl⟩))
    · exact .inr (.inr (.inr ⟨a, hstays _ _ ha, .inr (by rw [collect_eq ha]; rfl)⟩))
  · obtain ⟨rfl, -, -⟩ := shifts_done hshift
    exact .inr (.inr (.inr ⟨a, hstays _ _ ha, .inr rfl⟩))

theorem Reads.mono {client : Client} {key : CacheKey} {ticket : Ticket}
    {c : Coroutine (Store (Observed β)) (Outcome (Option Json))} (h : Reads r client key ticket s c)
    (hstays : Stays s s') : Reads r client key ticket s' c :=
  h.imp_right fun h => h.imp_right fun h => h.imp_right fun ⟨a, ha, hc⟩ => ⟨a, hstays _ _ ha, hc⟩

include hkeeps hbatch

/-- **A request is answered from the slot of its ticket.** -/
theorem answered_of_runs (h : Filing r T calls asked p' A) (hmirrors : Mirrors p p') {i : Nat}
    {client : Client} {input : Input} {key : CacheKey} (hkey : r.key client input = .ok key)
    (hi : p.callers[i]? = some (Call.run r.observed (.resolve client input)))
    (hrun : Runs (Proceeds (r.Apart T)) r.joined (r.enter p i client input key) es q)
    {o : Outcome (Option Json)} (hdone : q.callers[i]? = some (.done o)) :
    ∃ a, q.state.slots[(r.lookupOrEnqueue client input key p.state).1.slot]? = some (some a) ∧
      o = CallStage.conclude r a := by
  obtain ⟨q', A', hmirrors', h', -⟩ := filing_of_runs hkeeps hbatch h hmirrors
    (Runs.refl.tail (.inl (goes_enter hkey hi)))
  have hentered : ∃ c, (r.enter p i client input key).callers[i]? = some c ∧
      Reads r client key (r.lookupOrEnqueue client input key p.state).1 (r.enter p i client input key).state
        c := by
    refine ⟨_, List.getElem?_set_self (List.getElem?_eq_some_iff.1 hi).1, ?_⟩
    rw [CallStage.ofTicket]
    split
    · exact .inr (.inl rfl)
    · exact .inr (.inr (.inl rfl))
  -- the code of the call is followed along the run, over what is kept of the ensemble
  obtain ⟨-, c, hc, hreads⟩ := hrun.preserves
    (J := fun q => (∃ asked q' A, Mirrors q q' ∧ Filing r T calls asked q' A) ∧ ∃ c, q.callers[i]? = some c ∧
      Reads r client key (r.lookupOrEnqueue client input key p.state).1 q.state c)
    ⟨⟨_, q', A', hmirrors', h'⟩, hentered⟩ (by
      rintro q₁ q₂ ⟨⟨asked, q', A, hmirrors, h⟩, c, hc, hreads⟩ hgo
      obtain ⟨q'', A', hmirrors', h', hlasts⟩ := filing_of_runs hkeeps hbatch h hmirrors (Runs.refl.tail hgo)
      refine ⟨⟨_, q'', A', hmirrors', h'⟩, ?_⟩
      obtain ⟨c', hc', rfl | ⟨ts, hshifts⟩ | ⟨d, rfl⟩⟩ := hgo.caller hc
      · exact ⟨_, hc', hreads.mono hlasts.stays⟩
      · exact ⟨_, hc', hreads.shifts hshifts hlasts.stays⟩
      · exact ⟨_, hc', .inl ⟨d, rfl⟩⟩)
  obtain rfl := Option.some.inj (hc.symm.trans hdone)
  rcases hreads with ⟨d, hd⟩ | hd | hd | ⟨a, ha, hd | hd⟩
  · cases hd
  · cases hd
  · cases hd
  · cases hd
  · cases hd
    exact ⟨a, ha, rfl⟩

omit hkeeps hbatch

/-- A request that has returned has found no key, or its slot is settled. -/
theorem Filing.settled_of_done (h : Filing r T calls asked p A) {i : Nat} {client : Client} {input : Input}
    {o : Outcome (Option Json)} (hcall : calls[i]? = some (.resolve client input))
    (hdone : p.callers[i]? = some (.done o)) :
    (∃ e, r.key client input = .error e ∧ o = .error e) ∨
      ∃ key slot a, r.key client input = .ok key ∧ p.state.slots[slot]? = some (some a) ∧
        o = CallStage.conclude r a ∧ Settled r p.state client.cache slot a p.state.now := by
  rw [← h.calls] at hcall
  rcases h.books.shows.returned_of_done hcall hdone with hnokey | hreturned
  · exact .inl hnokey
  obtain ⟨key, slot, a, hkey, hslot, rfl, hsettled⟩ := h.files _ _ hreturned client input rfl
  rw [h.books.shows.store]
  exact .inr ⟨key, slot, a, hkey, hslot, rfl, hsettled⟩

/-! ## Renewal -/

/-- No request that begins now is answered from a slot: the ticket that it gets has another one, and what
it returns is the answer in that. If the cache has nothing else for its key, it joins the queue. -/
structure Renewed (r : Resolver (Observed β)) (T : Terms β) (slot : Nat)
    (p : Ensemble (Store (Observed β)) (Outcome (Option Json))) : Prop where
  ticket : ∀ client input key, r.key client input = .ok key →
    (r.lookupOrEnqueue client input key p.state).1.slot ≠ slot
  answer : ∀ (i : Nat) client input key, r.key client input = .ok key →
    p.callers[i]? = some (Call.run r.observed (.resolve client input)) →
    ∀ es q o, Runs (Proceeds (r.Apart T)) r.joined (r.enter p i client input key) es q →
      q.callers[i]? = some (.done o) →
      ∃ a, q.state.slots[(r.lookupOrEnqueue client input key p.state).1.slot]? = some (some a) ∧
        o = CallStage.conclude r a
  work : ∀ client input key, r.key client input = .ok key →
    (∀ e, p.state.Files client.cache key e → e.slot = slot) →
    r.joined p.state (r.lookupOrEnqueue client input key p.state).2 =
      [⟨client, input, p.state.slots.length⟩]

/-- **Renewal.** Calls through a resolver in any interleaving with its batches, with callers that are given
up wherever they wait, with the clock and with others. Once a request has returned with the answer in a
slot, no request that begins later is answered from that slot if the answer is a failure, or if the time to
live has passed since the first request returned. -/
theorem renewed_of_runs (hkeeps : r.Keeps T)
    (hbatch : ∀ client inputs, (r.batch client inputs).Obeys r.thinning fun _ => True) (hfresh : Fresh r s)
    (hrelies : T.relies s.backend.database) (calls : List Call)
    (hserves : ∀ call ∈ calls, T.serves call.client)
    (hrun : Runs (Proceeds (r.Apart T)) r.joined (r.outset s calls) es p) {i : Nat} {client : Client}
    {input : Input} {o : Outcome (Option Json)} (hcall : calls[i]? = some (.resolve client input))
    (hdone : p.callers[i]? = some (.done o)) {es' : List PendingRequest}
    (hlater : Runs (Proceeds (r.Apart T)) r.joined p es' q) :
    (∃ e, r.key client input = .error e ∧ o = .error e) ∨
      ∃ key slot a, r.key client input = .ok key ∧ p.state.slots[slot]? = some (some a) ∧
        o = CallStage.conclude r a ∧
        ((∃ e, a = .error e) ∨ p.state.now + (q.state.cache client.cache).ttl ≤ q.state.now →
          Renewed r T slot q) := by
  obtain ⟨p', A, hmirrors, hfiling, -⟩ := filing_of_runs hkeeps hbatch
    (filing_outset hfresh hrelies hserves) (.refl _) hrun
  obtain ⟨q', A', hmirrors', hfiling', hlasts⟩ := filing_of_runs hkeeps hbatch hfiling hmirrors hlater
  rcases hfiling.settled_of_done hcall (hmirrors.done hdone) with hnokey | ⟨key, slot, a, hkey, hslot, ho, hsettled⟩
  · exact .inl hnokey
  rw [hmirrors.state] at hslot hsettled
  refine .inr ⟨key, slot, a, hkey, hslot, ho, fun hold => ?_⟩
  -- whatever is filed under the slot from now on, it is too old or gone
  have hstale : Stale r q.state slot := (hlasts.settled _ _ _ _ hsettled).stale hold
  constructor
  case ticket => exact fun client input key hkey => hstale.slot_ne (tag_of_key hkey).1
  case answer =>
    exact fun i client input key hkey hi es q₁ o hrun hdone =>
      answered_of_runs hkeeps hbatch hfiling' hmirrors' hkey hi hrun hdone
  case work =>
    intro client input key hkey honly
    refine hstale.joined (tag_of_key hkey).1 ?_ honly
    rw [← hmirrors'.state, hfiling'.books.shows.store]
    exact hfiling'.books.scheduled.range

/-! ### A resolver that fails once -/

/-- Fails every input of its first batch, and answers the inputs of the others with themselves. -/
def flaky : Resolver (Observed Bool) :=
  ⟨"flaky", plainClient, 0, none, none, .any, fun _ inputs =>
    .step (fun s => (s.backend.database, { s with backend := { s.backend with database := true } }))
      fun failed => .done (inputs.map fun input =>
        if failed then Schema.write input else .error (.sql "connection reset" none))⟩

/-- A store in which it has failed, or not. -/
def flakyStore (failed : Bool) : Store (Observed Bool) :=
  { Store.start ⟨failed, []⟩ .default with queues := [.empty] }

/-- A request. -/
def askFlaky : Call := .resolve plainClient (.ok (.string "a"))

theorem keeps_flaky : flaky.Keeps .free := fun _ _ _ _ _ =>
  ⟨AtWire.aside ⟨rfl, rfl, rfl, rfl, rfl⟩, trivial, trivial⟩

theorem thinning_flaky (client : Client) (inputs : List Input) :
    (flaky.batch client inputs).Obeys flaky.thinning fun _ => True := fun _ _ =>
  ⟨thins_of_caches rfl, trivial, trivial⟩

theorem run_askFlaky : ((all [askFlaky.run flaky.observed]).run (flakyStore false)).map (·.1) =
    some [.error (.sql "connection reset" none)] := by
  with_unfolding_all rfl

/-- The first request fails, and no request that begins after it is answered from the same slot. -/
theorem renewed_askFlaky : flaky.Keeps .free ∧ Fresh flaky (flakyStore false) ∧ ∃ es q,
    Runs (Proceeds (flaky.Apart .free)) flaky.joined (flaky.outset (flakyStore false) [askFlaky]) es q ∧
    q.callers = [.done (.error (.sql "connection reset" none))] ∧ ∃ slot, Renewed flaky .free slot q := by
  have hfresh : Fresh flaky (flakyStore false) := fresh_start false rfl
  obtain ⟨⟨outcomes, s'⟩, hrun, rfl⟩ := Option.map_eq_some_iff.1 run_askFlaky
  have hall : ∃ es tasks, Runs (Goes (flaky.Apart .free)) flaky.joined
      (flaky.outset (flakyStore false) [askFlaky]) es
        ⟨s', [.done (.error (.sql "connection reset" none))], tasks⟩ := by
    refine runs_of_run_all hrun (fun c hc => ?_) fun s s' hpasses => ?_
    · rw [List.mem_singleton.1 hc]
      exact orderly_run (r := flaky) (fun _ _ _ => trivial) askFlaky
    · obtain ⟨clock, -, rfl⟩ := Option.map_eq_some_iff.1 hpasses
      exact ⟨⟨aside_of_passes hpasses, fun _ => trivial⟩, thins_of_caches rfl⟩
  obtain ⟨es, tasks, hruns⟩ := hall
  refine ⟨keeps_flaky, hfresh, es, _, proceeds_of_runs hruns, rfl, ?_⟩
  rcases renewed_of_runs (i := 0) keeps_flaky thinning_flaky hfresh trivial [askFlaky] (fun _ _ => trivial)
    (proceeds_of_runs hruns) rfl rfl .refl with ⟨e, hkey, -⟩ | ⟨key, slot, a, -, -, ho, hrenewed⟩
  · cases hkey
  · refine ⟨slot, hrenewed (.inl ?_)⟩
    cases a with
    | error e => exact ⟨e, rfl⟩
    | ok answer =>
      -- an answer of another shape would be another error
      rw [CallStage.conclude, unpack] at ho
      split at ho
      · cases ho
      · cases ho

/-- A request that is given up as soon as it waits, and the same request again when its batch has been
delivered and some time has passed. -/
def askAgain (ms : Nat) : Coroutine (Store (Observed Bool)) (Outcome Json) := do
  let _ ← giveUpWhen (fun _ => true) (askFlaky.run flaky.observed)
  quiesce
  Connection.sleep ms
  (flaky.observed.resolveIn plainClient (.ok (.string "a"))).run

/-- **A delivery that nobody has collected does not count**: the next request gets the failure of a batch
that was delivered before it began, or an answer that is older than the time to live. Both times there is
but one batch. -/
theorem uncollected_failure_is_returned :
    ((askAgain 0).run (flakyStore false)).map (fun o => (o.1, o.2.backend.batches.length)) =
      some (.error (.sql "connection reset" none), 1) ∧
    ((askAgain 60001).run (flakyStore true)).map
        (fun o => (o.1, o.2.backend.batches.length, o.2.now, (o.2.cache 0).ttl)) =
      some (.ok (.string "a"), 1, 60001, 60000) := by
  with_unfolding_all exact ⟨rfl, rfl⟩

end Resolver

end SqlClient
