import SqlClient.Proofs.Resolver.Accounts
/-!
# Resolvers — deliveries

How answers come to requests: every batch that was handed over is written down with what it returned
(`Recorded`), its requests have no answer until then, and after that each has the answer at its own
place in its slot, for good (`Delivered`). Every effect keeps both.
-/

namespace SqlClient

namespace Resolver

open Coroutine

variable {β : Type} {r : Resolver (Observed β)} {T : Terms β} {A A' : Traffic β}
  {s s' : Store (Observed β)}

/-! ## The record -/

/-- What a batch is known to have returned. -/
def answersAt (s : Store (Observed β)) (place : Nat) : Option (List (Outcome Json)) :=
  s.backend.batches[place]?.bind (·.answers)

/-- `T.Tells h requests`: what is written down is the call of the batch function with the requests,
through the client of the first, and what it has returned is as the terms say. -/
structure Terms.Tells (T : Terms β) (h : Handed) (requests : List PendingRequest) : Prop where
  client : requests.head?.map (·.client) = some h.client
  inputs : h.inputs = requests.map (·.input)
  answers : ∀ answers, h.answers = some answers → T.returns h.client h.inputs answers

/-- The record of the batches is true. -/
structure Recorded (T : Terms β) (A : Traffic β) : Prop where
  length : A.world.store.backend.batches.length = A.world.ledger.handed.length
  batches : ∀ (place : Nat) requests h, A.world.ledger.handed[place]? = some requests →
    A.world.store.backend.batches[place]? = some h → T.Tells h requests
  calls : ∀ o ∈ A.openCalls, A.world.ledger.handed[o.place]? = some o.requests ∧
    answersAt A.world.store o.place = o.answers
  places : (A.openCalls.map (·.place)).Nodup

theorem Recorded.inputs_eq (h : Recorded T A) : A.world.store.backend.batches.map (·.inputs) =
    A.world.ledger.handed.map fun requests => requests.map (·.input) := by
  refine List.ext_getElem (by simp [h.length]) fun i hi hi' => ?_
  simp only [List.length_map] at hi hi'
  have htells := h.batches i _ _ (List.getElem?_eq_getElem hi') (List.getElem?_eq_getElem hi)
  rw [List.getElem_map, List.getElem_map, htells.inputs]

/-- A step that writes nothing down and opens no call keeps the record. -/
theorem Recorded.of_same (h : Recorded T A) (closed : List OpenCall)
    (hbatches : A'.world.store.backend.batches = A.world.store.backend.batches)
    (hhanded : A'.world.ledger.handed = A.world.ledger.handed)
    (hcalls : A.openCalls.Perm (closed ++ A'.openCalls)) : Recorded T A' := by
  obtain ⟨hlength, hrecord, hopen, hplaces⟩ := h
  constructor
  case length =>
    rw [hbatches, hhanded]
    exact hlength
  case batches =>
    rw [hbatches, hhanded]
    exact hrecord
  case calls =>
    intro o ho
    rw [answersAt, hbatches, hhanded]
    exact hopen o (hcalls.mem_iff.2 (List.mem_append_right _ ho))
  case places =>
    rw [(hcalls.map _).nodup_iff, List.map_append] at hplaces
    exact (List.nodup_append.1 hplaces).2.1

theorem answersAt_noteCall {place : Nat} {client : Client} {inputs : List Input}
    (h : place < s.backend.batches.length) :
    answersAt (s.noteCall client inputs).2 place = answersAt s place := by
  change (s.backend.batches ++ [_])[place]?.bind _ = _
  rw [List.getElem?_append_left h, answersAt]

theorem answersAt_noteReturn_of_ne {place place' : Nat} {answers : List (Outcome Json)}
    (h : place ≠ place') : answersAt (s.noteReturn place answers) place' = answersAt s place' := by
  change (List.modify _ place _)[place']?.bind _ = _
  rw [List.getElem?_modify, answersAt]
  simp [h]

theorem answersAt_noteReturn {place : Nat} {answers : List (Outcome Json)}
    (h : place < s.backend.batches.length) :
    answersAt (s.noteReturn place answers) place = some answers := by
  change (List.modify _ place _)[place]?.bind _ = _
  rw [List.getElem?_modify, List.getElem?_eq_getElem h]
  simp

/-- A batch that is handed over is written down as a call that has not returned. -/
theorem Recorded.hand (h : Recorded T A) {first : PendingRequest} {others : List PendingRequest}
    (hbatches : A'.world.store.backend.batches =
      A.world.store.backend.batches ++ [⟨first.client, (first :: others).map (·.input), none⟩])
    (hhanded : A'.world.ledger.handed = A.world.ledger.handed ++ [first :: others])
    (hcalls : A'.openCalls.Perm
      (⟨A.world.store.backend.batches.length, first :: others, none⟩ :: A.openCalls)) :
    Recorded T A' := by
  obtain ⟨hlength, hrecord, hopen, hplaces⟩ := h
  -- the calls that are open come before the new one
  have hearlier : ∀ o ∈ A.openCalls, o.place < A.world.store.backend.batches.length := fun o ho =>
    hlength ▸ (List.getElem?_eq_some_iff.1 (hopen o ho).1).1
  constructor
  case length =>
    rw [hbatches, hhanded]
    simp [hlength]
  case batches =>
    rw [hbatches, hhanded]
    intro place requests h hrequests hh
    rcases Nat.lt_or_ge place A.world.ledger.handed.length with hlt | hge
    · rw [List.getElem?_append_left hlt] at hrequests
      rw [List.getElem?_append_left (hlength ▸ hlt)] at hh
      exact hrecord place requests h hrequests hh
    · rw [List.getElem?_append_right hge, List.getElem?_singleton] at hrequests
      rw [List.getElem?_append_right (hlength ▸ hge), List.getElem?_singleton] at hh
      obtain ⟨-, rfl⟩ := Option.ite_some_none_eq_some.1 hrequests
      obtain ⟨-, rfl⟩ := Option.ite_some_none_eq_some.1 hh
      exact ⟨rfl, rfl, fun _ h => by cases h⟩
  case calls =>
    intro o ho
    rw [answersAt, hbatches, hhanded]
    rcases List.mem_cons.1 (hcalls.subset ho) with rfl | ho
    · simp [hlength]
    · have hlt := hearlier o ho
      rw [List.getElem?_append_left (hlength ▸ hlt), List.getElem?_append_left hlt]
      exact hopen o ho
  case places =>
    rw [(hcalls.map _).nodup_iff, List.map_cons, List.nodup_cons]
    refine ⟨fun hmem => ?_, hplaces⟩
    obtain ⟨o, ho, hplace⟩ := List.mem_map.1 hmem
    exact (hearlier o ho).ne hplace

/-- What a call returns is written down with it. -/
theorem Recorded.answer (h : Recorded T A) {place : Nat} {first : PendingRequest}
    {others : List PendingRequest} {answers : List (Outcome Json)} {rest : List OpenCall}
    (hreturns : T.returns first.client ((first :: others).map (·.input)) answers)
    (hstore : A'.world.store = A.world.store.noteReturn place answers)
    (hhanded : A'.world.ledger.handed = A.world.ledger.handed)
    (hbefore : A.openCalls.Perm (⟨place, first :: others, none⟩ :: rest))
    (hafter : A'.openCalls.Perm (⟨place, first :: others, some answers⟩ :: rest)) : Recorded T A' := by
  obtain ⟨hlength, hrecord, hopen, hplaces⟩ := h
  have hbatches : A'.world.store.backend.batches =
      A.world.store.backend.batches.modify place fun h => { h with answers := some answers } := by
    rw [hstore]
    rfl
  obtain ⟨hrequests, hnone⟩ := hopen ⟨place, first :: others, none⟩ (hbefore.mem_iff.2 (by simp))
  -- open calls have places of their own, so no other one is answered
  obtain ⟨hothers, hplaces⟩ := List.nodup_cons.1 ((hbefore.map _).nodup_iff.1 hplaces)
  constructor
  case length =>
    rw [hbatches, hhanded, List.length_modify]
    exact hlength
  case batches =>
    rw [hbatches, hhanded]
    intro place' requests h hrequests' hh
    rw [List.getElem?_modify] at hh
    obtain ⟨h₀, hh₀, rfl⟩ := Option.map_eq_some_iff.1 hh
    obtain ⟨hclient, hinputs, hanswers⟩ := hrecord place' requests h₀ hrequests' hh₀
    split
    case isTrue heq =>
      subst heq
      obtain rfl : first :: others = requests := by simpa [hrequests] using hrequests'
      refine ⟨hclient, hinputs, fun answers' heq => ?_⟩
      obtain rfl : answers = answers' := by simpa using heq
      have hfirst : first.client = h₀.client := by simpa using hclient
      rw [hinputs, ← hfirst]
      exact hreturns
    case isFalse => exact ⟨hclient, hinputs, hanswers⟩
  case calls =>
    intro o ho
    rw [hstore, hhanded]
    rcases List.mem_cons.1 (hafter.subset ho) with rfl | hrest
    · obtain ⟨hlt, -⟩ := List.getElem?_eq_some_iff.1 hrequests
      exact ⟨hrequests, answersAt_noteReturn (hlength ▸ hlt)⟩
    · have hne : place ≠ o.place := fun heq => hothers (List.mem_map.2 ⟨o, hrest, heq.symm⟩)
      rw [answersAt_noteReturn_of_ne hne]
      exact hopen o (hbefore.mem_iff.2 (List.mem_cons_of_mem _ hrest))
  case places =>
    rw [(hafter.map _).nodup_iff]
    exact List.nodup_cons.2 ⟨hothers, hplaces⟩

/-- **Every step keeps the record.** -/
theorem Effect.recorded (he : Effect r T A A') (h : Recorded T A) : Recorded T A' := by
  cases he with
  | quiet haside hledger _ hcalls _ =>
    exact h.of_same [] haside.batches (by rw [hledger]) (by rw [hcalls]; rfl)
  | ask _ hstore hledger _ hcalls _ =>
    exact h.of_same [] (by rw [hstore, backend_enqueue]) (by rw [hledger]) (by rw [hcalls]; rfl)
  | give _ hstore hledger _ hcalls _ =>
    exact h.of_same [] (by rw [hstore]; rfl) (by rw [hledger]) (by rw [hcalls]; rfl)
  | drain hstore hledger _ hcalls _ =>
    exact h.of_same [] (by rw [hstore]; rfl) (by rw [hledger]) (by rw [hcalls]; rfl)
  | hand hstore hledger _ hcalls _ => exact h.hand (by rw [hstore]; rfl) (by rw [hledger]) hcalls
  | answer hreturns hstore hledger _ hbefore hafter _ =>
    exact h.answer hreturns hstore (by rw [hledger]) hbefore hafter
  | deliver hstore hledger _ hcalls _ =>
    exact h.of_same [_] (by rw [hstore, backend_deliverTo]) (by rw [hledger]) hcalls

/-! ## Answers -/

theorem getElem?_of_prefix {α : Type} {l l' : List α} (h : l <+: l') {n : Nat} {a : α}
    (hn : l[n]? = some a) : l'[n]? = some a := by
  obtain ⟨m, rfl⟩ := h
  rw [List.getElem?_append_left (List.getElem?_eq_some_iff.1 hn).1]
  exact hn

/-- The requests that have joined the queue and have no answer yet. -/
def Traffic.pending (r : Resolver (Observed β)) (A : Traffic β) : List PendingRequest :=
  A.openCalls.flatMap (·.requests) ++ (A.unhanded.flatten ++ A.queued r)

/-- What a step does to the requests that have no answer: most leave them alone, and one that asks
adds a request with an empty slot of its own, and one that delivers takes those of a batch away. -/
theorem Effect.pending (he : Effect r T A A') (hs : Scheduled r A) :
    (A.pending r).Perm (A'.pending r) ∧ A.world.store.slots <+: A'.world.store.slots ∨
    (∃ q, (A'.pending r).Perm (q :: A.pending r) ∧ q.slot = A.world.store.slots.length ∧
      A'.world.store.slots = A.world.store.slots ++ [none]) ∨
    ∃ requests answers, (A.pending r).Perm (requests ++ A'.pending r) ∧
      A'.world.store = r.deliverTo requests answers A.world.store := by
  have hqueue (h : A'.world.store.queue r.queue = A.world.store.queue r.queue) :
      A'.queued r = A.queued r := congrArg BatchQueue.items h
  cases he with
  | quiet haside _ hunhanded hcalls _ =>
    refine .inl ⟨?_, haside.slots⟩
    rw [Traffic.pending, Traffic.pending, hqueue haside.queue_eq, hunhanded, hcalls]
  | @ask client input key _ hstore _ hunhanded hcalls _ =>
    have hqueued : A'.queued r = A.queued r ++ [⟨client, input, A.world.store.slots.length⟩] := by
      rw [Traffic.queued, hstore, queue_enqueue hs.range]
      rfl
    refine .inr (.inl ⟨⟨client, input, A.world.store.slots.length⟩, ?_, rfl, ?_⟩)
    · rw [Traffic.pending, Traffic.pending, hqueued, hunhanded, hcalls, ← List.append_assoc,
        ← List.append_assoc, ← List.append_assoc]
      exact List.perm_append_comm
    · rw [hstore, slots_enqueue]
  | give _ hstore _ hunhanded hcalls _ =>
    refine .inl ⟨?_, ?_⟩
    · rw [Traffic.pending, Traffic.pending, hqueue (by rw [hstore]; rfl), hunhanded, hcalls]
    · rw [hstore]
      exact List.prefix_append _ _
  | drain hstore _ hunhanded hcalls _ =>
    refine .inl ⟨?_, by rw [hstore]; exact List.prefix_refl _⟩
    have hqueued : A'.queued r = [] := by
      rw [Traffic.queued, hstore, queue_drain hs.range]
      rfl
    have hcut := BatchQueue.perm_flatten_batches (·.client.transaction?) r.limit (A.queued r)
    rw [Traffic.pending, Traffic.pending, hqueued, hcalls, List.append_nil]
    refine .append_left _ (.trans ?_ hunhanded.flatten.symm)
    rw [List.flatten_append]
    exact List.perm_append_comm.trans (hcut.symm.append_right _)
  | @hand first others hstore _ hunhanded hcalls _ =>
    refine .inl ⟨?_, by rw [hstore]; exact List.prefix_refl _⟩
    rw [Traffic.pending, Traffic.pending, hqueue (by rw [hstore]; rfl), ← List.append_assoc,
      ← List.append_assoc]
    refine .append_right _ ?_
    refine (hunhanded.flatten.append_left _).trans (.trans ?_ ((hcalls.flatMap_right _).symm.append_right _))
    rw [List.flatten_cons, List.flatMap_cons, ← List.append_assoc]
    exact List.perm_append_comm.append_right _
  | answer _ hstore _ hunhanded hbefore hafter _ =>
    -- the call stays open, with its answers
    refine .inl ⟨?_, by rw [hstore]; exact List.prefix_refl _⟩
    rw [Traffic.pending, Traffic.pending, hqueue (by rw [hstore]; rfl), hunhanded]
    have hsame : (A.openCalls.flatMap (·.requests)).Perm (A'.openCalls.flatMap (·.requests)) :=
      (hbefore.flatMap_right (·.requests)).trans (hafter.flatMap_right (·.requests)).symm
    exact hsame.append_right _
  | @deliver place requests answers hstore _ hunhanded hcalls _ =>
    refine .inr (.inr ⟨requests, answers, ?_, hstore⟩)
    have hqueued : A'.queued r = A.queued r := hqueue (by rw [hstore, Store.queue, queues_deliverTo]; rfl)
    rw [Traffic.pending, Traffic.pending, hqueued, hunhanded, ← List.append_assoc requests]
    exact (hcalls.flatMap_right (·.requests)).append_right _

/-- Requests that have no answer yet have their own slots, and nothing is in them. -/
structure Unanswered (r : Resolver (Observed β)) (A : Traffic β) : Prop where
  empty : ∀ q ∈ A.pending r, A.world.store.slots[q.slot]? = some none
  distinct : ((A.pending r).map (·.slot)).Nodup

/-- Requests that are delivered have slots that nobody else waits for. -/
theorem Unanswered.disjoint (h : Unanswered r A) {requests rest : List PendingRequest}
    (hpending : (A.pending r).Perm (requests ++ rest)) :
    (requests.map (·.slot)).Nodup ∧ (rest.map (·.slot)).Nodup ∧
      ∀ q ∈ requests, ∀ q' ∈ rest, q.slot ≠ q'.slot := by
  have hdistinct := h.distinct
  rw [(hpending.map _).nodup_iff, List.map_append, List.nodup_append] at hdistinct
  obtain ⟨hrequests, hrest, hdisjoint⟩ := hdistinct
  exact ⟨hrequests, hrest, fun q hq q' hq' =>
    hdisjoint _ (List.mem_map_of_mem hq) _ (List.mem_map_of_mem hq')⟩

theorem Effect.unanswered (he : Effect r T A A') (hs : Scheduled r A) (h : Unanswered r A) :
    Unanswered r A' := by
  rcases he.pending hs with ⟨hpending, hslots⟩ | ⟨q, hpending, hq, hslots⟩ |
    ⟨requests, answers, hpending, hstore⟩
  · refine ⟨fun q hq => ?_, (hpending.map _).nodup_iff.1 h.distinct⟩
    exact getElem?_of_prefix hslots (h.empty q (hpending.mem_iff.2 hq))
  · have hbound (q' : PendingRequest) (hq' : q' ∈ A.pending r) : q'.slot < A.world.store.slots.length :=
      (List.getElem?_eq_some_iff.1 (h.empty q' hq')).1
    refine ⟨fun q' hq' => ?_, ?_⟩
    · rw [hslots]
      rcases List.mem_cons.1 (hpending.subset hq') with rfl | hq'
      · simp [hq]
      · rw [List.getElem?_append_left (hbound q' hq')]
        exact h.empty q' hq'
    · rw [(hpending.map _).nodup_iff, List.map_cons, List.nodup_cons]
      refine ⟨fun hmem => ?_, h.distinct⟩
      obtain ⟨q', hq', hslot⟩ := List.mem_map.1 hmem
      exact absurd (hq ▸ hslot) (hbound q' hq').ne
  · obtain ⟨-, hrest, hdisjoint⟩ := h.disjoint hpending
    refine ⟨fun q' hq' => ?_, hrest⟩
    rw [hstore, slots_deliverTo_of_not_mem fun q hq => hdisjoint q hq q' hq']
    exact h.empty q' (hpending.mem_iff.2 (List.mem_append_right _ hq'))

/-- A slot that has an answer keeps it. -/
def Stays (s s' : Store (Observed β)) : Prop :=
  ∀ (n : Nat) o, s.slots[n]? = some (some o) → s'.slots[n]? = some (some o)

/-- **No request is answered twice.** -/
theorem Effect.stays (he : Effect r T A A') (hs : Scheduled r A) (h : Unanswered r A) :
    Stays A.world.store A'.world.store := by
  intro n o hn
  rcases he.pending hs with ⟨-, hslots⟩ | ⟨q, -, -, hslots⟩ | ⟨requests, answers, hpending, hstore⟩
  · exact getElem?_of_prefix hslots hn
  · rw [hslots]
    exact getElem?_of_prefix (List.prefix_append _ _) hn
  · rw [hstore, slots_deliverTo_of_not_mem fun q hq hslot => ?_]
    · exact hn
    · have hempty := h.empty q (hpending.mem_iff.2 (List.mem_append_left _ hq))
      rw [hslot, hn] at hempty
      cases hempty

/-- What a batch of some size that has returned `answers` makes of its request at a place. -/
def resultAt (size : Nat) (answers : List (Outcome Json)) (place : Nat) : Option (Outcome Json) :=
  if answers.length = size then answers[place]?
  else some (.error (.lengthMismatch size answers.length))

theorem getElem?_matched {size place : Nat} {answers : List (Outcome Json)} (h : place < size) :
    (matched size answers)[place]? = resultAt size answers place := by
  rw [matched, resultAt]
  split
  case isTrue => rfl
  case isFalse => simp [Answers.failAll, h]

/-- Each of the requests finds what was returned for it, at its own place, in its slot. -/
def Answered (r : Resolver (Observed β)) (requests : List PendingRequest)
    (answers : List (Outcome Json)) (s : Store (Observed β)) : Prop :=
  ∀ (i : Nat) q, requests[i]? = some q → ∃ o, resultAt requests.length answers i = some o ∧
    s.slots[q.slot]? = some (some (o.map fun value => ⟨r.answer, value⟩))

theorem Answered.stays {requests : List PendingRequest} {answers : List (Outcome Json)}
    (h : Answered r requests answers s) (hstays : Stays s s') : Answered r requests answers s' := by
  intro i q hq
  obtain ⟨o, ho, hslot⟩ := h i q hq
  exact ⟨o, ho, hstays _ _ hslot⟩

/-- Slots hold the answers of batches that have returned and answers that were given. -/
structure Delivered (r : Resolver (Observed β)) (A : Traffic β) : Prop where
  batches : ∀ (place : Nat) requests, A.world.ledger.handed[place]? = some requests →
    place ∈ A.openCalls.map (·.place) ∨ ∃ answers, answersAt A.world.store place = some answers ∧
      Answered r requests answers A.world.store
  given : ∀ g ∈ A.world.ledger.given,
    A.world.store.slots[g.slot]? = some (some (.ok ⟨r.answer, g.value⟩))

/-- A batch that has been handed over is being served, or its requests have their answers. -/
theorem Delivered.served (h : Delivered r A) (hr : Recorded T A) {place : Nat}
    {requests : List PendingRequest} (hplace : A.world.ledger.handed[place]? = some requests) :
    (∃ o ∈ A.openCalls, o.place = place ∧ o.requests = requests) ∨ ∃ answers,
      answersAt A.world.store place = some answers ∧ Answered r requests answers A.world.store := by
  refine (h.batches place requests hplace).imp_left fun hopen => ?_
  obtain ⟨o, ho, rfl⟩ := List.mem_map.1 hopen
  exact ⟨o, ho, rfl, Option.some.inj ((hr.calls o ho).1.symm.trans hplace)⟩

/-- A batch that a step leaves alone has come no further with it. -/
theorem Delivered.keep (h : Delivered r A) (hstays : Stays A.world.store A'.world.store) {place : Nat}
    {requests : List PendingRequest} (hplace : A.world.ledger.handed[place]? = some requests)
    (hcalls : place ∈ A.openCalls.map (·.place) → place ∈ A'.openCalls.map (·.place))
    (hanswers : answersAt A'.world.store place = answersAt A.world.store place) :
    place ∈ A'.openCalls.map (·.place) ∨ ∃ answers,
      answersAt A'.world.store place = some answers ∧ Answered r requests answers A'.world.store := by
  rcases h.batches place requests hplace with hopen | ⟨answers, hat, hanswered⟩
  · exact .inl (hcalls hopen)
  · exact .inr ⟨answers, hanswers.trans hat, hanswered.stays hstays⟩

/-- A step that calls no batch function and hears from none delivers nothing. -/
theorem Delivered.of_same (h : Delivered r A) (hstays : Stays A.world.store A'.world.store)
    (hbatches : A'.world.store.backend.batches = A.world.store.backend.batches)
    (hhanded : A'.world.ledger.handed = A.world.ledger.handed) (hcalls : A'.openCalls = A.openCalls)
    (place : Nat) (requests : List PendingRequest)
    (hplace : A'.world.ledger.handed[place]? = some requests) :
    place ∈ A'.openCalls.map (·.place) ∨ ∃ answers,
      answersAt A'.world.store place = some answers ∧ Answered r requests answers A'.world.store := by
  rw [hhanded] at hplace
  refine h.keep hstays hplace (by simp [hcalls]) ?_
  rw [answersAt, hbatches, answersAt]

/-- **Answers come to those who asked**: each request of the batch that is delivered finds its own. -/
theorem Unanswered.answered (hu : Unanswered r A) {o : OpenCall} {rest : List OpenCall}
    (hcalls : A.openCalls.Perm (o :: rest)) (answers : List (Outcome Json)) :
    Answered r o.requests answers (r.deliverTo o.requests answers A.world.store) := by
  intro i q hq
  have hmem : q ∈ A.openCalls.flatMap (·.requests) :=
    List.mem_flatMap.2 ⟨o, hcalls.mem_iff.2 (List.mem_cons_self ..), List.mem_of_getElem? hq⟩
  have hempty := hu.empty q (List.mem_append_left _ hmem)
  have hcloses : (A.pending r).Perm
      (o.requests ++ (rest.flatMap (·.requests) ++ (A.unhanded.flatten ++ A.queued r))) := by
    rw [Traffic.pending, ← List.append_assoc o.requests]
    exact (hcalls.flatMap_right (·.requests)).append_right _
  rw [← getElem?_matched (List.getElem?_eq_some_iff.1 hq).1]
  exact slots_deliverTo (hu.disjoint hcloses).1 hq (List.getElem?_eq_some_iff.1 hempty).1

/-- **Every step keeps what has been delivered**, and delivers to those who asked. -/
theorem Effect.delivered (he : Effect r T A A') (hs : Scheduled r A) (hr : Recorded T A)
    (hu : Unanswered r A) (h : Delivered r A) : Delivered r A' := by
  have hstays := he.stays hs hu
  have hgiven (hledger : A'.world.ledger.given = A.world.ledger.given) :
      ∀ g ∈ A'.world.ledger.given,
        A'.world.store.slots[g.slot]? = some (some (.ok ⟨r.answer, g.value⟩)) := by
    rw [hledger]
    exact fun g hg => hstays _ _ (h.given g hg)
  cases he with
  | quiet haside hledger _ hcalls _ =>
    exact ⟨h.of_same hstays haside.batches (by rw [hledger]) hcalls, hgiven (by rw [hledger])⟩
  | ask _ hstore hledger _ hcalls _ =>
    exact ⟨h.of_same hstays (by rw [hstore, backend_enqueue]) (by rw [hledger]) hcalls,
      hgiven (by rw [hledger])⟩
  | give _ hstore hledger _ hcalls _ =>
    refine ⟨h.of_same hstays (by rw [hstore]; rfl) (by rw [hledger]) hcalls, ?_⟩
    rw [hledger]
    refine List.forall_mem_append.2 ⟨fun g hg => hstays _ _ (h.given g hg), ?_⟩
    rw [List.forall_mem_singleton, hstore]
    simp
  | drain hstore hledger _ hcalls _ =>
    exact ⟨h.of_same hstays (by rw [hstore]; rfl) (by rw [hledger]) hcalls, hgiven (by rw [hledger])⟩
  | @hand first others hstore hledger _ hcalls _ =>
    refine ⟨fun place requests hrequests => ?_, hgiven (by rw [hledger])⟩
    rw [hledger] at hrequests
    rcases Nat.lt_or_ge place A.world.ledger.handed.length with hlt | hge
    · rw [List.getElem?_append_left hlt] at hrequests
      refine h.keep hstays hrequests (fun hopen => ?_) ?_
      · rw [(hcalls.map _).mem_iff]
        exact List.mem_cons_of_mem _ hopen
      · rw [hstore, answersAt_noteCall (hr.length ▸ hlt)]
    · -- the new batch is open
      rw [List.getElem?_append_right hge, List.getElem?_singleton] at hrequests
      obtain ⟨hzero, -⟩ := Option.ite_some_none_eq_some.1 hrequests
      have hplace : place = A.world.ledger.handed.length := by omega
      exact .inl ((hcalls.map _).mem_iff.2 (by simp [hplace, hr.length]))
  | @answer place first others answers rest _ hstore hledger _ hbefore hafter _ =>
    refine ⟨fun place' requests hrequests => ?_, hgiven (by rw [hledger])⟩
    rw [hledger] at hrequests
    have hcalls : (A.openCalls.map (·.place)).Perm (A'.openCalls.map (·.place)) :=
      (hbefore.map (·.place)).trans (hafter.map (·.place)).symm
    by_cases hplace : place = place'
    · exact .inl ((hafter.map _).mem_iff.2 (by simp [hplace]))
    · refine h.keep hstays hrequests hcalls.mem_iff.1 ?_
      rw [hstore, answersAt_noteReturn_of_ne hplace]
  | @deliver place requests answers hstore hledger _ hcalls _ =>
    refine ⟨fun place' requests' hrequests => ?_, hgiven (by rw [hledger])⟩
    rw [hledger] at hrequests
    have hsame : answersAt A'.world.store place' = answersAt A.world.store place' := by
      rw [answersAt, hstore, backend_deliverTo, answersAt]
    by_cases hplace : place = place'
    · subst hplace
      obtain ⟨hhanded, hanswers⟩ := hr.calls ⟨place, requests, some answers⟩ (hcalls.mem_iff.2 (by simp))
      obtain rfl : requests = requests' := by simpa [hhanded] using hrequests
      refine .inr ⟨answers, hsame.trans hanswers, ?_⟩
      rw [hstore]
      exact hu.answered hcalls answers
    · refine h.keep hstays hrequests (fun hopen => ?_) hsame
      rw [(hcalls.map _).mem_iff, List.map_cons] at hopen
      exact (List.mem_cons.1 hopen).resolve_left fun h => hplace h.symm

end Resolver

end SqlClient
