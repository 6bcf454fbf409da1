import SqlClient.Proofs.Resolver.Deliveries
/-!
# Resolvers — the books

`Books` puts together what is kept for a resolver, from its first request on. It holds of every
interleaving of any calls through the resolver with its flushes and with anything that others do beyond
it (`books_of_runs`), and it says who can go on: a flush that has requests to take, a batch that has to
be handed over, and one whose answers are there (`Books.canGo`).
-/

namespace SqlClient

namespace Resolver

open Coroutine Ensemble

variable {β : Type} {r : Resolver (Observed β)} {T : Terms β} {A A' : Traffic β}
  {s s' : Store (Observed β)} {calls : List Call}

/-- The requests that join the queue with a change of the store. -/
def joined (r : Resolver (Observed β)) (s s' : Store (Observed β)) : List PendingRequest :=
  (s'.queue r.queue).items.drop (s.queue r.queue).items.length

theorem joined_of_same (h : s'.queue r.queue = s.queue r.queue) : r.joined s s' = [] := by
  rw [joined, h, List.drop_length]

theorem Effect.asked (he : Effect r T A A') (hs : Scheduled r A) :
    A'.world.ledger.asked = A.world.ledger.asked ++ r.joined A.world.store A'.world.store := by
  cases he with
  | quiet haside hledger _ _ _ => rw [hledger, joined_of_same haside.queue_eq, List.append_nil]
  | @ask client input key _ hstore hledger _ _ _ =>
    rw [hledger, joined, hstore, queue_enqueue hs.range, List.drop_left]
  | give _ hstore hledger _ _ _ =>
    rw [hledger, joined_of_same (by rw [hstore]; rfl), List.append_nil]
  | drain hstore hledger _ _ _ =>
    rw [hledger, joined, hstore, queue_drain hs.range, BatchQueue.empty, List.drop_nil, List.append_nil]
  | hand hstore hledger _ _ _ =>
    rw [hledger, joined_of_same (by rw [hstore]; rfl), List.append_nil]
  | answer _ hstore hledger _ _ _ _ =>
    rw [hledger, joined_of_same (by rw [hstore]; rfl), List.append_nil]
  | deliver hstore hledger _ _ _ =>
    rw [hledger, joined_of_same (by rw [hstore, Store.queue, queues_deliverTo]; rfl), List.append_nil]

/-- A resolver that nobody has used yet. -/
structure Fresh (r : Resolver (Observed β)) (s : Store (Observed β)) : Prop where
  queue : s.queues[r.queue]? = some .empty
  cache : ∀ n key slot, key.tag = r.tag → ¬ s.Serves n key slot
  batches : s.backend.batches = []

/-- Calls through a resolver that are about to begin. -/
def outset (r : Resolver (Observed β)) (s : Store (Observed β)) (calls : List Call) :
    Ensemble (Store (Observed β)) (Outcome (Option Json)) :=
  ⟨s, calls.map (Call.run r.observed), []⟩

/-- What is kept for a resolver: `A` is the traffic that the ensemble `p` shows, and `asked` are the
requests that have joined the queue so far. -/
structure Books (r : Resolver (Observed β)) (T : Terms β) (asked : List PendingRequest)
    (p : Ensemble (Store (Observed β)) (Outcome (Option Json))) (A : Traffic β) : Prop where
  shows : A.Shows r p
  asked : A.world.ledger.asked = asked
  serves : ∀ call ∈ A.calls.map Prod.fst, T.serves call.client
  askers : ∀ x ∈ A.world.ledger.asked, T.serves x.client
  conforms : A.Conforms r T
  scheduled : Scheduled r A
  accounted : Accounted r A
  recorded : Recorded T A
  unanswered : Unanswered r A
  delivered : Delivered r A

variable {p q : Ensemble (Store (Observed β)) (Outcome (Option Json))} {asked : List PendingRequest}

/-- Every step of the traffic has its effect, and is one of the traffic's own. -/
theorem Books.effect (hkeeps : r.Keeps T) (h : Books r T asked p A)
    (hstep : Traffic.Steps r (r.Beyond T) A A') : Effect r T A A' ∧ A'.Conforms r T := by
  refine hstep.effect hkeeps h.conforms fun requests hrequests x hx => h.askers x ?_
  refine h.accounted.requests.mem_iff.2 (List.mem_append_right _ (List.mem_append_left _ ?_))
  exact List.mem_flatten.2 ⟨requests, hrequests, hx⟩

/-- Every step of the traffic keeps the books. -/
theorem Books.step (hkeeps : r.Keeps T) (h : Books r T asked p A)
    (hstep : Traffic.Steps r (r.Beyond T) A A') (hshows : A'.Shows r q) :
    Books r T (asked ++ r.joined p.state q.state) q A' := by
  obtain ⟨he, hconforms⟩ := h.effect hkeeps hstep
  have hserved : ∀ x ∈ A'.world.ledger.asked, T.serves x.client := fun x hx =>
    (hstep.asked hx).elim (h.askers x) (h.serves _)
  have hserves : ∀ call ∈ A'.calls.map Prod.fst, T.serves call.client := by
    rw [hstep.calls.1]
    exact h.serves
  refine ⟨hshows, ?_, hserves, hserved, hconforms, he.scheduled h.scheduled, he.accounted h.scheduled h.accounted,
    he.recorded h.recorded, he.unanswered h.scheduled h.unanswered,
    he.delivered h.scheduled h.recorded h.unanswered h.delivered⟩
  rw [he.asked h.scheduled, h.asked, h.shows.store, hshows.store]

/-- Every step keeps the books, and is a step of the traffic. -/
theorem Books.goes (hkeeps : r.Keeps T) (h : Books r T asked p A) (hgo : Goes (r.Beyond T) p q) :
    ∃ A', Traffic.Steps r (r.Beyond T) A A' ∧ Books r T (asked ++ r.joined p.state q.state) q A' := by
  obtain ⟨A', hstep, hshows⟩ := h.shows.goes hgo
  exact ⟨A', hstep, h.step hkeeps hstep hshows⟩

/-- The traffic of calls that are about to begin. -/
def Traffic.outset (s : Store (Observed β)) (calls : List Call) : Traffic β :=
  ⟨⟨s, [], [], []⟩, calls.map (·, .asked), []⟩

theorem books_outset (hfresh : Fresh r s) (hrelies : T.relies s.backend.database)
    (hserves : ∀ call ∈ calls, T.serves call.client) :
    Books r T [] (r.outset s calls) (.outset s calls) := by
  have hqueue : s.queue r.queue = .empty := by
    rw [Store.queue, List.getD_eq_getElem?_getD, hfresh.queue]
    rfl
  have hqueued : (Traffic.outset s calls).queued r = [] := congrArg BatchQueue.items hqueue
  have hpending : (Traffic.outset s calls).pending r = [] := hqueued
  have hlaunching : (Traffic.outset s calls).calls.countP (·.2.isLaunching) = 0 := by
    rw [Traffic.outset, List.countP_map]
    exact List.countP_eq_zero.2 fun _ _ => Bool.false_ne_true
  have hscheduled : Scheduled r (Traffic.outset s calls) := by
    refine ⟨(List.getElem?_eq_some_iff.1 hfresh.queue).1, ?_, fun hitems => absurd hqueued hitems⟩
    change 0 + _ = if (s.queue r.queue).flushScheduled then 1 else 0
    rw [hqueue, hlaunching]
    rfl
  have haccounted : Accounted r (Traffic.outset s calls) := by
    constructor
    case requests =>
      rw [hqueued]
      exact .refl _
    case queued =>
      rw [hqueued]
      exact .refl _
    case batches => exact List.forall_mem_nil _
    case distinct => exact .nil
    case slots => exact List.forall_mem_nil _
    case keys => exact List.forall_mem_nil _
  have hcallers : ∀ call ∈ (Traffic.outset s calls).calls.map Prod.fst, T.serves call.client := by
    simpa [Traffic.outset, Function.comp_def] using hserves
  -- nobody has asked for anything, and nothing has been handed over
  refine ⟨⟨rfl, ?_, .nil⟩, rfl, hcallers, List.forall_mem_nil _, ⟨hrelies, fun t ht => by cases ht⟩, hscheduled, haccounted, ?_, ?_, ?_⟩
  · simp [Resolver.outset, Traffic.outset, CallStage.code]
  · constructor
    · simp [Traffic.outset, hfresh.batches]
    · intro place requests h hrequests
      cases hrequests
    · exact List.forall_mem_nil _
    · exact .nil
  · exact ⟨by simp [hpending], by simp [hpending]⟩
  · constructor
    · intro place requests hrequests
      cases hrequests
    · exact List.forall_mem_nil _

/-- **The books are kept on every interleaving.** -/
theorem books_of_runs (hkeeps : r.Keeps T) (h : Books r T asked p A) {es : List PendingRequest}
    (hrun : Runs (Goes (r.Beyond T)) r.joined p es q) : ∃ A', Books r T (asked ++ es) q A' :=
  hrun.keeps (I := fun es p => ∃ A, Books r T es p A) ⟨A, h⟩ fun _ _ _ ⟨_, h⟩ hgo =>
    let ⟨A', _, h'⟩ := h.goes hkeeps hgo
    ⟨A', h'⟩

/-- **What is in a slot stays there**: no request is answered twice. -/
theorem stays_of_runs (hkeeps : r.Keeps T) (h : Books r T asked p A) {es : List PendingRequest}
    (hrun : Runs (Goes (r.Beyond T)) r.joined p es q) : Stays p.state q.state := by
  have hkept := hrun.keeps (I := fun es q => (∃ A, Books r T es q A) ∧ Stays p.state q.state)
    ⟨⟨A, h⟩, fun _ _ hn => hn⟩ fun es q q' ⟨⟨B, hB⟩, hstays⟩ hgo => by
      obtain ⟨B', hstep, hB'⟩ := hB.goes hkeeps hgo
      refine ⟨⟨B', hB'⟩, fun n o hn => ?_⟩
      have hlater := (hB.effect hkeeps hstep).1.stays hB.scheduled hB.unanswered
      rw [hB'.shows.store]
      exact hlater n o (hB.shows.store ▸ hstays n o hn)
  exact hkept.2

/-- Where a request is that has joined the queue: its batch is being served, or has its answers, or has
not been handed over yet, or the request has not been taken from the queue. -/
inductive Whereabouts (r : Resolver (Observed β)) (A : Traffic β) (x : PendingRequest) : Prop
  | serving {o : OpenCall} (ho : o ∈ A.openCalls)
      (hplace : A.world.ledger.handed[o.place]? = some o.requests)
      (hanswers : answersAt A.world.store o.place = o.answers) (hx : x ∈ o.requests)
  | answered {place : Nat} {requests : List PendingRequest} {answers : List (Outcome Json)}
      (hplace : A.world.ledger.handed[place]? = some requests) (hx : x ∈ requests)
      (hanswers : answersAt A.world.store place = some answers)
      (hanswered : Answered r requests answers A.world.store)
  | unhanded {requests : List PendingRequest} (hcut : requests ∈ A.unhanded) (hx : x ∈ requests)
  | queued (hx : x ∈ A.queued r)

/-- **Every request that has joined the queue is somewhere.** -/
theorem Books.whereabouts (h : Books r T asked p A) {x : PendingRequest} (hx : x ∈ asked) :
    Whereabouts r A x := by
  rw [← h.asked, h.accounted.requests.mem_iff, List.mem_append, List.mem_append] at hx
  rcases hx with hx | hx | hx
  · obtain ⟨requests, hhanded, hx⟩ := List.mem_flatten.1 hx
    obtain ⟨place, hplace⟩ := List.mem_iff_getElem?.1 hhanded
    rcases h.delivered.served h.recorded hplace with ⟨o, ho, rfl, rfl⟩ | ⟨answers, hanswers, hanswered⟩
    · exact .serving ho hplace (h.recorded.calls o ho).2 hx
    · exact .answered hplace hx hanswers hanswered
  · obtain ⟨requests, hcut, hx⟩ := List.mem_flatten.1 hx
    exact .unhanded hcut hx
  · exact .queued hx

/-! ## Going on -/

/-- Somebody can go on, at once or after some time. -/
def CanGo (p : Ensemble (Store (Observed β)) (Outcome (Option Json))) : Prop :=
  ∃ s q, Relation.ReflTransGen Later p.state s ∧ Advances { p with state := s } q

section

variable (h : A.Shows r p) (hlater : Relation.ReflTransGen Later p.state s)

include h hlater

theorem canGo_of_call {call : Call} {stage : CallStage} (hcall : (call, stage) ∈ A.calls)
    (hmove : ∃ c' s' ts, Moves (stage.code r.observed call) s c' s' ts) : CanGo p := by
  have hmem : stage.code r.observed call ∈ p.callers := by
    rw [h.calls]
    exact List.mem_map.2 ⟨_, hcall, rfl⟩
  obtain ⟨c', s', ts, hmove⟩ := hmove
  obtain ⟨l, l', hl⟩ := List.append_of_mem hmem
  refine ⟨s, ⟨s', l ++ c' :: l', p.tasks ++ ts⟩, hlater, ?_⟩
  rw [hl]
  exact .caller hmove

theorem canGo_of_task {t : Task β} (ht : t ∈ A.tasks)
    (hmove : ∀ c, t.Does r c → ∃ c' s' ts, Moves c s c' s' ts) : CanGo p := by
  obtain ⟨i, hi, rfl⟩ := List.mem_iff_getElem.1 ht
  have hlength := h.tasks.length_eq
  obtain ⟨c', s', ts, hmove⟩ := hmove _ (h.tasks.get hi (hlength ▸ hi))
  obtain ⟨l, l', hl⟩ := List.append_of_mem (List.get_mem p.tasks ⟨i, hlength ▸ hi⟩)
  refine ⟨s, ⟨s', p.callers, l ++ c' :: l' ++ ts⟩, hlater, ?_⟩
  rw [hl]
  exact .task hmove

/-- A batch that can go on takes its flush along. -/
theorem canGo_of_batch {bs : List (Batch β)} {b : Batch β} (hbs : .serving bs ∈ A.tasks) (hb : b ∈ bs)
    (hmove : ∃ d s' ts, Moves (b.code r) s d s' ts) : CanGo p := by
  obtain ⟨d, s', ts, hmove⟩ := hmove
  refine canGo_of_task h hlater hbs fun c hdoes => ?_
  obtain ⟨rest, hbeside, rfl⟩ := hdoes
  obtain ⟨rest', hrest⟩ := hbeside.lift (List.mem_map_of_mem hb) hmove
  exact ⟨_, _, _, hrest.bind _⟩

end

section

variable (h : A.Shows r p)

include h

/-- A flush that gathers requests can go on. -/
theorem canGo_of_gathering (hconforms : A.Conforms r T) {rest : Coroutine (Store (Observed β)) Unit}
    (ht : .gathering rest ∈ A.tasks) : CanGo p := by
  have hrest : rest.Obeys (r.rules T.relies Comes) (fun _ => True) := hconforms.tasks _ ht
  cases hdone : rest.result? with
  | some a =>
    rw [eq_done_of_result? hdone] at ht
    refine canGo_of_task h .refl ht fun c hdoes => ?_
    rw [show c = r.observed.dispatch from hdoes]
    exact ⟨_, _, _, .step⟩
  | none =>
    have hcomes : ∀ ready, Comes ready → ∀ s : Store (Observed β),
        ∃ s', Relation.ReflTransGen Later s s' ∧ ready s' = true := fun _ h => h
    obtain ⟨s₁, c', s', ts, hlater, hmove⟩ := hrest.goes_on hcomes p.state hdone
    refine canGo_of_task h hlater ht fun c hdoes => ?_
    rw [show c = rest.bind _ from hdoes]
    exact ⟨_, _, _, hmove.bind _⟩

/-- **A flush that is outstanding comes.** -/
theorem canGo_of_scheduled (hconforms : A.Conforms r T) (hs : Scheduled r A)
    (hflag : (A.world.store.queue r.queue).flushScheduled = true) : CanGo p := by
  have hflushes : A.tasks.countP Task.isGathering + A.calls.countP (·.2.isLaunching) = 1 := by
    have := hs.flushes
    rwa [hflag, if_pos rfl] at this
  by_cases hcalls : A.calls.countP (·.2.isLaunching) = 0
  · have hpos : 0 < A.tasks.countP Task.isGathering := by omega
    obtain ⟨t, ht, hgathering⟩ := List.countP_pos_iff.1 hpos
    cases t with
    | gathering rest => exact canGo_of_gathering h hconforms ht
    | serving bs => cases hgathering
    | other rest => cases hgathering
  · obtain ⟨⟨call, stage⟩, hcall, hlaunching⟩ := List.countP_pos_iff.1 (Nat.pos_of_ne_zero hcalls)
    cases stage with
    | launching client key ticket => exact canGo_of_call h .refl hcall ⟨_, _, _, .spawn⟩
    | _ => cases hlaunching

/-- **A batch that is cut comes to be handed over.** -/
theorem canGo_of_unhanded {requests : List PendingRequest} (hmem : requests ∈ A.unhanded)
    (hne : requests ≠ []) : CanGo p := by
  obtain ⟨bs, ⟨requests', stage⟩, ht, hb, hmem⟩ := Traffic.exists_batch hmem
  cases stage with
  | ready =>
    rw [List.mem_singleton.1 hmem] at hne
    obtain ⟨first, others, rfl⟩ := List.exists_cons_of_ne_nil hne
    exact canGo_of_batch h .refl ht hb ⟨_, _, _, .step⟩
  | calling =>
    rw [List.mem_singleton.1 hmem] at hne
    obtain ⟨first, others, rfl⟩ := List.exists_cons_of_ne_nil hne
    exact canGo_of_batch h .refl ht hb ⟨_, _, _, .step⟩
  | _ => cases hmem

/-- **A batch function that waits only for what comes with time goes on.** -/
theorem canGo_of_running (hconforms : A.Conforms r T) (hwaits : ∀ ready, T.waits ready → Comes ready)
    {o : OpenCall} (ho : o ∈ A.openCalls) (hanswers : o.answers = none) : CanGo p := by
  obtain ⟨bs, ⟨requests, stage⟩, ht, hb, ho⟩ := Traffic.exists_batch ho
  have hown : Batch.Conforms r T ⟨requests, stage⟩ := hconforms.tasks _ ht _ hb
  cases stage with
  | running place rest =>
    cases requests with
    | nil => exact hown.elim
    | cons first others =>
      cases hdone : rest.result? with
      | some answers =>
        obtain rfl := eq_done_of_result? hdone
        exact canGo_of_batch h .refl ht hb ⟨_, _, _, .step⟩
      | none =>
        have hcomes : ∀ ready, T.waits ready → ∀ s : Store (Observed β),
            ∃ s', Relation.ReflTransGen Later s s' ∧ ready s' = true := hwaits
        obtain ⟨s₁, c', s', ts, hlater, hmove⟩ := Obeys.goes_on hcomes hown p.state hdone
        exact canGo_of_batch h hlater ht hb ⟨_, _, _, (hmove.bind _).bind _⟩
  | leaving place answers =>
    rw [List.mem_singleton.1 ho] at hanswers
    cases hanswers
  | delivering place answers =>
    rw [List.mem_singleton.1 ho] at hanswers
    cases hanswers
  | _ => cases ho

/-- **Answers that are there come to be delivered.** -/
theorem canGo_of_returned {o : OpenCall} (ho : o ∈ A.openCalls) (hanswers : o.answers ≠ none)
    (hne : o.requests ≠ []) : CanGo p := by
  obtain ⟨bs, ⟨requests, stage⟩, ht, hb, ho⟩ := Traffic.exists_batch ho
  cases stage with
  | running place rest =>
    rw [List.mem_singleton.1 ho] at hanswers
    exact absurd rfl hanswers
  | leaving place answers =>
    rw [List.mem_singleton.1 ho] at hne
    obtain ⟨first, others, rfl⟩ := List.exists_cons_of_ne_nil hne
    exact canGo_of_batch h .refl ht hb ⟨_, _, _, .step⟩
  | delivering place answers =>
    rw [List.mem_singleton.1 ho] at hne
    obtain ⟨first, others, rfl⟩ := List.exists_cons_of_ne_nil hne
    exact canGo_of_batch h .refl ht hb ⟨_, _, _, .step⟩
  | _ => cases ho

end

/-- **Whoever waits for an answer is not waiting in vain**, if the batch function waits only for what
comes with time. -/
theorem Books.canGo (h : Books r T asked p A) (hwaits : ∀ ready, T.waits ready → Comes ready)
    {x : PendingRequest} (hx : x ∈ asked) (hslot : p.state.slot? x.slot = none) : CanGo p := by
  have hscheduled := h.scheduled
  cases h.whereabouts hx with
  | @serving o ho _ _ hx =>
    cases hdone : o.answers with
    | none => exact canGo_of_running h.shows h.conforms hwaits ho hdone
    | some answers => exact canGo_of_returned h.shows ho (by simp [hdone]) (List.ne_nil_of_mem hx)
  | answered _ hx _ hanswered =>
    obtain ⟨i, hi⟩ := List.mem_iff_getElem?.1 hx
    obtain ⟨o, -, ho⟩ := hanswered i x hi
    rw [Store.slot?, h.shows.store, ho] at hslot
    cases hslot
  | unhanded hcut hx => exact canGo_of_unhanded h.shows hcut (List.ne_nil_of_mem hx)
  | queued hx =>
    exact canGo_of_scheduled h.shows h.conforms hscheduled (hscheduled.items (List.ne_nil_of_mem hx))

/-! ## Programs -/

section

variable {β : Type} {r : Resolver (Observed β)}

theorem orderly_runBatch (hbatch : ∀ client inputs, (r.batch client inputs).Orderly)
    (requests : List PendingRequest) : (r.observed.runBatch requests).Orderly := by
  cases requests with
  | nil => trivial
  | cons first others =>
    have hobserve : (observe r.batch first.client ((first :: others).map (·.input))).Orderly :=
      fun place => (hbatch _ _).bind fun answers _ => trivial
    exact fun _ => hobserve.bind fun answers _ _ => trivial

theorem orderly_flush (hbatch : ∀ client inputs, (r.batch client inputs).Orderly) :
    r.observed.flush.Orderly := by
  have hgather : r.observed.gather.Orderly := by
    rw [gather]
    split
    · exact fun _ => trivial
    · trivial
  rw [flush_eq]
  refine hgather.bind fun _ requests => (orderly_all fun c hc => ?_).bind fun _ => trivial
  obtain ⟨b, -, rfl⟩ := List.mem_map.1 hc
  exact orderly_runBatch hbatch b

theorem orderly_run (hbatch : ∀ client inputs, (r.batch client inputs).Orderly) (call : Call) :
    (call.run r.observed).Orderly := by
  cases call with
  | resolve client input =>
    cases hkey : r.observed.key client input with
    | error e => rw [run_resolve_error hkey]; trivial
    | ok key =>
      rw [run_resolve hkey]
      rintro ⟨id, slot, schedules⟩
      cases schedules
      · exact fun _ => trivial
      · exact ⟨orderly_flush hbatch, fun _ => trivial⟩
  | populate owner input value =>
    cases hkey : r.observed.key owner input with
    | error e => rw [run_populate_error hkey]; trivial
    | ok key => rw [run_populate hkey]; exact fun _ => trivial
  | invalidate owner input =>
    cases hkey : r.observed.key owner input with
    | error e => rw [run_invalidate_error hkey]; trivial
    | ok key => rw [run_invalidate hkey]; exact fun _ => trivial

end

theorem aside_of_passes (h : Tasks.Passes s s') : r.Aside s s' := by
  obtain ⟨clock, hclock, rfl⟩ := Option.map_eq_some_iff.1 h
  obtain ⟨moment, hmin, rfl⟩ := Option.map_eq_some_iff.1 hclock
  have hlater : s.clock.now < moment := by
    simpa using (List.mem_filter.1 (List.min?_mem hmin)).2
  exact ⟨rfl, List.prefix_refl _, fun _ _ _ _ h => h, Nat.le_refl _, hlater.le, rfl⟩

/-- **What the scheduler makes of calls that it runs side by side is an interleaving.** -/
theorem runs_of_run (hbatch : ∀ client inputs, (r.batch client inputs).Orderly) {ε : Type}
    {note : Store (Observed β) → Store (Observed β) → List ε} {outcomes : List (Outcome (Option Json))}
    (hrun : (all (calls.map (Call.run r.observed))).run s = some (outcomes, s')) :
    ∃ es tasks, Runs (Goes (r.Beyond T)) note (r.outset s calls) es ⟨s', outcomes.map .done, tasks⟩ := by
  refine runs_of_run_all hrun (fun c hc => ?_) fun s s' hpasses => ⟨aside_of_passes hpasses, ?_⟩
  · obtain ⟨call, -, rfl⟩ := List.mem_map.1 hc
    exact orderly_run hbatch call
  · obtain ⟨clock, -, rfl⟩ := Option.map_eq_some_iff.1 hpasses
    exact id

/-- A program that has not begun has an empty cache. -/
theorem fresh_start (database : β) (hqueue : r.queue = 0) :
    Fresh r { Store.start ⟨database, []⟩ .default with queues := [.empty] } := by
  refine ⟨by rw [hqueue]; rfl, fun n key slot _ hserves => ?_, rfl⟩
  obtain ⟨e, he, -⟩ := hserves
  cases n with
  | zero => cases he
  | succ n => cases he

/-! ### A resolver that echoes -/

/-- A batch function of which nothing is known but that it leaves the resolver alone. -/
def Terms.free : Terms β := ⟨fun _ => True, fun _ => True, fun _ => True, fun _ _ _ => True⟩

/-- A client outside transactions. -/
def plainClient : Client := ⟨⟨.ofDialect .sqlite, .ofDialect .sqlite, .general, none⟩, none, 0⟩

/-- Answers every input with itself, at most two at a time. -/
def echo : Resolver (Observed Unit) :=
  ⟨"echo", plainClient, 0, none, some 2, .any, fun _ inputs => .done (inputs.map Schema.write)⟩

/-- A store with an empty queue. -/
def quietStore : Store (Observed Unit) := { Store.start ⟨(), []⟩ .default with queues := [.empty] }

theorem fresh_quietStore : Fresh echo quietStore := fresh_start () rfl

end Resolver

end SqlClient
