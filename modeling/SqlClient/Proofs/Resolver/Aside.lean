import SqlClient.Proofs.RequestCache.Entries
import SqlClient.Proofs.Resolver.Traffic
/-!
# Resolvers — what a change leaves alone

Most of what happens to a store does not concern a resolver. `Resolver.Aside` says what it takes for
that: the queue of the resolver, the slots that are there and the record of its batches stay, and no
cache gets an entry under the resolver's tag. The changes that do concern it are those of its own
code, and each has its lemmas here.
-/

namespace SqlClient

variable {β : Type}

namespace Store

variable {s s' s₁ : Store β}

/-- Some cache answers a key from a slot. -/
def Serves (s : Store β) (n : Nat) (key : CacheKey) (slot : Nat) : Prop :=
  ∃ e, (key, e) ∈ (s.cache n).entries ∧ e.slot = slot

theorem cache_changeCache (s : Store β) (m n : Nat)
    (f : RequestCache CacheKey Nat → RequestCache CacheKey Nat) :
    (s.changeCache m f).cache n = s.cache n ∨
      n = m ∧ (s.changeCache m f).cache n = f (s.cache n) := by
  rw [cache, cache, changeCache, List.getD_eq_getElem?_getD, List.getD_eq_getElem?_getD,
    List.getElem?_modify]
  by_cases h : m = n
  · subst h
    cases s.caches[m]? with
    | none => exact .inl rfl
    | some c => exact .inr ⟨rfl, by simp⟩
  · exact .inl (by simp [h])

/-- Writing a cache changes no other. -/
theorem cache_set (s : Store β) (m n : Nat) (c : RequestCache CacheKey Nat) :
    { s with caches := s.caches.set m c }.cache n = s.cache n ∨
      n = m ∧ { s with caches := s.caches.set m c }.cache n = c := by
  rw [cache, cache, List.getD_eq_getElem?_getD, List.getD_eq_getElem?_getD, List.getElem?_set]
  by_cases h : m = n
  · subst h
    rw [if_pos rfl]
    split
    · exact .inr ⟨rfl, rfl⟩
    · rename_i hout
      exact .inl (by rw [List.getElem?_eq_none (by omega)])
  · exact .inl (by rw [if_neg h])

/-! ## Holds -/

/-- Only the use of connections differs, and what the log says of it. -/
structure SameDesk (s s' : Store β) : Prop where
  backend : s'.backend = s.backend
  caches : s'.caches = s.caches
  queues : s'.queues = s.queues
  slots : s'.slots = s.slots
  clock : s'.clock = s.clock

theorem SameDesk.trans (h : SameDesk s s₁) (h' : SameDesk s₁ s') : SameDesk s s' :=
  ⟨h'.backend.trans h.backend, h'.caches.trans h.caches, h'.queues.trans h.queues,
    h'.slots.trans h.slots, h'.clock.trans h.clock⟩

theorem sameDesk_hold (s : Store β) (n : Nat) : SameDesk s (s.hold n) := ⟨rfl, rfl, rfl, rfl, rfl⟩

theorem sameDesk_letGo (s : Store β) (n : Nat) : SameDesk s (s.letGo n) := by
  rw [letGo]
  split <;> exact ⟨rfl, rfl, rfl, rfl, rfl⟩

theorem sameDesk_holdFor (s : Store β) (c : Client) : SameDesk s (s.holdFor c) := by
  rw [holdFor]
  split
  · exact sameDesk_hold s _
  · exact ⟨rfl, rfl, rfl, rfl, rfl⟩

theorem sameDesk_letGoFor (s : Store β) (c : Client) : SameDesk s (s.letGoFor c) := by
  rw [letGoFor]
  split
  · exact sameDesk_letGo s _
  · exact ⟨rfl, rfl, rfl, rfl, rfl⟩

end Store

namespace Resolver

theorem sameDesk_takeOver (first : PendingRequest) (requests : List PendingRequest) (s : Store β) :
    s.SameDesk (takeOver first requests s) := by
  refine (s.sameDesk_holdFor first.client).trans ?_
  rw [takeOver]
  generalize s.holdFor first.client = s'
  induction requests generalizing s' with
  | nil => exact ⟨rfl, rfl, rfl, rfl, rfl⟩
  | cons request requests ih => exact (s'.sameDesk_letGoFor request.client).trans (ih _)

variable {r : Resolver (Observed β)} {s s' s₁ : Store (Observed β)}

/-! ## Changes that do not concern the resolver -/

/-- A change of the store that does not concern the resolver. -/
structure Aside (r : Resolver (Observed β)) (s s' : Store (Observed β)) : Prop where
  queue : s'.queues[r.queue]? = s.queues[r.queue]?
  slots : s.slots <+: s'.slots
  serves : ∀ n key slot, key.tag = r.tag → s'.Serves n key slot → s.Serves n key slot
  caches : s.caches.length ≤ s'.caches.length
  clock : s.now ≤ s'.now
  batches : s'.backend.batches = s.backend.batches

theorem Aside.refl : r.Aside s s :=
  ⟨rfl, List.prefix_refl _, fun _ _ _ _ h => h, Nat.le_refl _, Nat.le_refl _, rfl⟩

theorem Aside.trans (h : r.Aside s s₁) (h' : r.Aside s₁ s') : r.Aside s s' :=
  ⟨h'.queue.trans h.queue, h.slots.trans h'.slots,
    fun n key slot htag hs => h.serves n key slot htag (h'.serves n key slot htag hs),
    h.caches.trans h'.caches, h.clock.trans h'.clock, h'.batches.trans h.batches⟩

theorem aside_of_reflTransGen (h : Relation.ReflTransGen r.Aside s s') : r.Aside s s' := by
  induction h with
  | refl => exact .refl
  | tail _ hstep ih => exact ih.trans hstep

theorem aside_of_sameDesk (h : s.SameDesk s') : r.Aside s s' := by
  have hserves (n : Nat) (key : CacheKey) (slot : Nat) : s'.Serves n key slot → s.Serves n key slot := by
    rw [Store.Serves, Store.Serves, Store.cache, Store.cache, h.caches]
    exact id
  exact ⟨by rw [h.queues], by simp [h.slots], fun n key slot _ => hserves n key slot, by rw [h.caches],
    by rw [Store.now, Store.now, h.clock], by rw [h.backend]⟩

/-- A change of one cache that adds no entries does not concern the resolver. -/
theorem aside_changeCache {m : Nat} {f : RequestCache CacheKey Nat → RequestCache CacheKey Nat}
    (hf : ∀ c key e, (key, e) ∈ (f c).entries → ∃ e', (key, e') ∈ c.entries ∧ e'.slot = e.slot) :
    r.Aside s (s.changeCache m f) := by
  refine ⟨rfl, List.prefix_refl _, fun n key slot _ hs => ?_, by simp [Store.changeCache], Nat.le_refl _, rfl⟩
  obtain ⟨e, he, rfl⟩ := hs
  rcases s.cache_changeCache m n f with h | ⟨rfl, h⟩
  · rw [h] at he
    exact ⟨e, he, rfl⟩
  · rw [h] at he
    obtain ⟨e', he', hslot⟩ := hf _ _ _ he
    exact ⟨e', he', hslot⟩

theorem aside_invalidate {m : Nat} {key : CacheKey} :
    r.Aside s (s.changeCache m (·.invalidate key)) :=
  aside_changeCache fun _ _ e h => ⟨e, RequestCache.mem_invalidate h, rfl⟩

theorem aside_collect {client : Client} {key : CacheKey} {ticket : Ticket} :
    r.Aside s (collect client key ticket s).2 := by
  have hcomplete : r.Aside s (s.changeCache client.cache (·.complete key ticket.id s.now)) :=
    aside_changeCache fun _ _ e h => RequestCache.mem_complete h
  have hevict (s : Store (Observed β)) :
      r.Aside s (s.changeCache client.cache (·.evictFailed key ticket.id)) :=
    aside_changeCache fun _ _ e h => ⟨e, RequestCache.mem_evictFailed h, rfl⟩
  rw [collect]
  split
  · exact hcomplete
  · exact hcomplete.trans (hevict _)
  · exact hcomplete.trans (hevict _)

@[simp] theorem backend_collect {client : Client} {key : CacheKey} {ticket : Ticket} :
    (collect client key ticket s).2.backend = s.backend := by
  rw [collect]
  split <;> rfl

/-! ## Changes that do -/

section Enqueue

variable {client : Client} {input : Input} {key : CacheKey}

theorem sameDesk_opened (s : Store (Observed β)) (client : Client) :
    (s.openSlot none).2.SameDesk ((s.openSlot none).2.holdFor client) :=
  Store.sameDesk_holdFor _ client

@[simp] theorem slot_enqueue : (r.enqueue client input key s).1.slot = s.slots.length := rfl

theorem queue_opened (s : Store (Observed β)) (client : Client) :
    ((s.openSlot none).2.holdFor client).queue r.queue = s.queue r.queue := by
  rw [Store.queue, (sameDesk_opened s client).queues]
  rfl

@[simp] theorem schedules_enqueue :
    (r.enqueue client input key s).1.schedules = !(s.queue r.queue).flushScheduled := by
  rw [← queue_opened s client]
  rfl

@[simp] theorem slots_enqueue : (r.enqueue client input key s).2.slots = s.slots ++ [none] :=
  (sameDesk_opened s client).slots

@[simp] theorem queues_enqueue :
    (r.enqueue client input key s).2.queues = s.queues.set r.queue
      ⟨(s.queue r.queue).items ++ [⟨client, input, s.slots.length⟩], true⟩ := by
  change ((s.openSlot none).2.holdFor client).queues.set r.queue
    ⟨(((s.openSlot none).2.holdFor client).queue r.queue).items ++ [⟨client, input, s.slots.length⟩],
      true⟩ = _
  rw [queue_opened, (sameDesk_opened s client).queues]
  rfl

@[simp] theorem backend_enqueue : (r.enqueue client input key s).2.backend = s.backend :=
  (sameDesk_opened s client).backend

@[simp] theorem clock_enqueue : (r.enqueue client input key s).2.clock = s.clock :=
  (sameDesk_opened s client).clock

@[simp] theorem caches_enqueue : (r.enqueue client input key s).2.caches =
    s.caches.set client.cache ((s.cache client.cache).insert key s.slots.length none).2 := by
  have hcaches := (sameDesk_opened s client).caches
  change ((s.openSlot none).2.holdFor client).caches.set client.cache
    ((((s.openSlot none).2.holdFor client).cache client.cache).insert key s.slots.length none).2 = _
  rw [Store.cache, hcaches]
  rfl

/-- Joining the queue writes one cache entry, for the new slot. -/
theorem serves_enqueue {n : Nat} {k : CacheKey} {slot : Nat}
    (h : (r.enqueue client input key s).2.Serves n k slot) :
    s.Serves n k slot ∨ k = key ∧ slot = s.slots.length := by
  obtain ⟨e, he, rfl⟩ := h
  rw [Store.cache, caches_enqueue] at he
  rcases s.cache_set client.cache n ((s.cache client.cache).insert key s.slots.length none).2 with h | ⟨rfl, h⟩
  · exact .inl ⟨e, h ▸ he, rfl⟩
  · rw [Store.cache] at h
    rw [h] at he
    rcases RequestCache.mem_insert he with he | he
    · exact .inl ⟨e, he, rfl⟩
    · cases he
      exact .inr ⟨rfl, rfl⟩

end Enqueue

@[simp] theorem slots_give {owner : Client} {key : CacheKey} {value : Json} :
    (r.give owner key value s).slots = s.slots ++ [some (.ok ⟨r.answer, value⟩)] := rfl

/-- Giving an answer writes one cache entry, for the new slot. -/
theorem serves_give {owner : Client} {key k : CacheKey} {value : Json} {n slot : Nat}
    (h : (r.give owner key value s).Serves n k slot) :
    s.Serves n k slot ∨ k = key ∧ slot = s.slots.length := by
  obtain ⟨e, he, rfl⟩ := h
  rcases (s.openSlot (some (.ok ⟨r.answer, value⟩))).2.cache_changeCache owner.cache n
    (·.populate key s.slots.length s.now) with h | ⟨rfl, h⟩
  · exact .inl ⟨e, h ▸ he, rfl⟩
  · rcases RequestCache.mem_insert (h ▸ he) with he | he
    · exact .inl ⟨e, he, rfl⟩
    · cases he
      exact .inr ⟨rfl, rfl⟩

/-! ## Deliveries -/

theorem length_matched (size : Nat) (answers : List (Outcome Json)) :
    (matched size answers).length = size := by
  rw [matched]
  split
  case isTrue h => exact h
  case isFalse => simp [Answers.failAll]

section Deliver

variable {pairs : List (Nat × Outcome Json)} {shape : Shape} {n : Nat}

/-- Deliveries change slots and nothing else. -/
theorem deliveries_eq (pairs : List (Nat × Outcome Json)) (shape : Shape) (s : Store β) :
    ∃ slots, pairs.foldl
      (fun s (slot, answer) => s.deliver slot (answer.map fun value => ⟨shape, value⟩)) s =
        { s with slots } := by
  induction pairs generalizing s with
  | nil => exact ⟨s.slots, rfl⟩
  | cons pair pairs ih =>
    obtain ⟨slots, h⟩ := ih (s.deliver pair.1 (pair.2.map fun value => ⟨shape, value⟩))
    exact ⟨slots, h⟩

theorem slots_deliveries_of_not_mem {s : Store β} (h : ∀ pair ∈ pairs, pair.1 ≠ n) :
    (pairs.foldl (fun s (slot, answer) => s.deliver slot (answer.map fun value => ⟨shape, value⟩))
      s).slots[n]? = s.slots[n]? := by
  induction pairs generalizing s with
  | nil => rfl
  | cons pair pairs ih =>
    rw [List.foldl_cons, ih fun p hp => h p (List.mem_cons_of_mem _ hp)]
    exact List.getElem?_set_ne (h pair (List.mem_cons_self ..))

theorem slots_deliveries_of_mem {s : Store β} {answer : Outcome Json}
    (hnodup : (pairs.map Prod.fst).Nodup) (h : (n, answer) ∈ pairs) (hn : n < s.slots.length) :
    (pairs.foldl (fun s (slot, answer) => s.deliver slot (answer.map fun value => ⟨shape, value⟩))
      s).slots[n]? = some (some (answer.map fun value => ⟨shape, value⟩)) := by
  induction pairs generalizing s with
  | nil => cases h
  | cons pair pairs ih =>
    obtain ⟨hpair, hnodup⟩ := List.nodup_cons.1 hnodup
    rw [List.foldl_cons]
    rcases List.mem_cons.1 h with rfl | h
    · have hlater : ∀ p ∈ pairs, p.1 ≠ n := by
        rintro p hp rfl
        exact hpair (List.mem_map.2 ⟨p, hp, rfl⟩)
      rw [slots_deliveries_of_not_mem hlater]
      exact List.getElem?_set_self hn
    · exact ih hnodup h (by simpa [Store.deliver] using hn)

end Deliver

section DeliverTo

variable {requests : List PendingRequest} {answers : List (Outcome Json)}

theorem deliverTo_eq (r : Resolver β) (requests : List PendingRequest) (answers : List (Outcome Json))
    (s : Store β) : ∃ slots, r.deliverTo requests answers s = { s with slots } :=
  deliveries_eq _ _ _

@[simp] theorem backend_deliverTo : (r.deliverTo requests answers s).backend = s.backend := by
  obtain ⟨slots, hslots⟩ := deliverTo_eq r requests answers s
  rw [hslots]

@[simp] theorem queues_deliverTo : (r.deliverTo requests answers s).queues = s.queues := by
  obtain ⟨slots, hslots⟩ := deliverTo_eq r requests answers s
  rw [hslots]

theorem slots_deliverTo_of_not_mem {n : Nat} (h : ∀ q ∈ requests, q.slot ≠ n) :
    (r.deliverTo requests answers s).slots[n]? = s.slots[n]? := by
  refine slots_deliveries_of_not_mem fun pair hpair => ?_
  obtain ⟨q, hq, heq⟩ := List.mem_map.1 (List.of_mem_zip (Prod.eta pair ▸ hpair)).1
  exact heq ▸ h q hq

@[simp] theorem length_slots_deliverTo :
    (r.deliverTo requests answers s).slots.length = s.slots.length := by
  rw [deliverTo, deliverAll]
  generalize (requests.map (·.slot)).zip (matched requests.length answers) = pairs
  induction pairs generalizing s with
  | nil => rfl
  | cons pair pairs ih => exact ih.trans (List.length_set ..)

/-- A request of a batch gets the answer at its own place. -/
theorem slots_deliverTo {i : Nat} {q : PendingRequest} (hnodup : (requests.map (·.slot)).Nodup)
    (hq : requests[i]? = some q) (hlt : q.slot < s.slots.length) :
    ∃ o, (matched requests.length answers)[i]? = some o ∧
      (r.deliverTo requests answers s).slots[q.slot]? =
        some (some (o.map fun value => ⟨r.answer, value⟩)) := by
  obtain ⟨hi, -⟩ := List.getElem?_eq_some_iff.1 hq
  have hmatched : i < (matched requests.length answers).length := by rwa [length_matched]
  refine ⟨_, List.getElem?_eq_getElem hmatched, slots_deliveries_of_mem ?_ ?_ hlt⟩
  · rw [List.map_fst_zip (by rw [length_matched, List.length_map])]
    exact hnodup
  · refine List.mem_of_getElem? (i := i) ?_
    rw [List.getElem?_zip_eq_some]
    exact ⟨by simp [hq], List.getElem?_eq_getElem hmatched⟩

end DeliverTo

end Resolver

end SqlClient
