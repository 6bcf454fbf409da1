import SqlClient.Proofs.Resolver.Cutting
import SqlClient.Proofs.Resolver.Effects
/-!
# Resolvers — accounts

What holds of the requests of a resolver at all times: a flush is on its way iff the queue says so
(`Scheduled`), and every request that has joined the queue is in it, in a batch that is not yet handed
over, or in exactly one that is (`Accounted`). Every effect keeps both.
-/

namespace SqlClient

namespace Resolver

open Coroutine

variable {β : Type} {r : Resolver (Observed β)} {T : Terms β} {A A' : Traffic β}
  {s s' : Store (Observed β)}

/-! ## Flushes -/

theorem Aside.queue_eq (h : r.Aside s s') : s'.queue r.queue = s.queue r.queue := by
  rw [Store.queue, Store.queue, List.getD_eq_getElem?_getD, h.queue, List.getD_eq_getElem?_getD]

theorem Aside.range (h : r.Aside s s') (hrange : r.queue < s.queues.length) :
    r.queue < s'.queues.length := by
  have hsome : s'.queues[r.queue]?.isSome := by
    rw [h.queue, List.getElem?_eq_getElem hrange]
    rfl
  simpa using hsome

section Queue

variable {client : Client} {input : Input} {key : CacheKey}

theorem queue_enqueue (h : r.queue < s.queues.length) :
    (r.enqueue client input key s).2.queue r.queue =
      ⟨(s.queue r.queue).items ++ [⟨client, input, s.slots.length⟩], true⟩ := by
  rw [Store.queue, queues_enqueue, List.getD_eq_getElem?_getD, List.getElem?_set_self h]
  rfl

theorem queue_drain (h : r.queue < s.queues.length) : (r.drain s).2.queue r.queue = .empty := by
  simp [drain, Store.queue, List.getElem?_eq_getElem h, BatchQueue.flush, BatchQueue.empty]

end Queue

/-- Flushes and the queue agree: one flush is outstanding if the queue says that one is scheduled, and
none otherwise, and one is scheduled if there are requests in the queue. -/
structure Scheduled (r : Resolver (Observed β)) (A : Traffic β) : Prop where
  range : r.queue < A.world.store.queues.length
  flushes : A.flushes = if (A.world.store.queue r.queue).flushScheduled then 1 else 0
  items : (A.world.store.queue r.queue).items ≠ [] →
    (A.world.store.queue r.queue).flushScheduled = true

theorem Scheduled.of_queues (h : Scheduled r A)
    (hqueues : A'.world.store.queues = A.world.store.queues) (hflushes : A'.flushes = A.flushes) :
    Scheduled r A' := by
  obtain ⟨hrange, hflag, hitems⟩ := h
  refine ⟨by rwa [hqueues], ?_, ?_⟩ <;> rw [Store.queue, hqueues]
  · rw [hflushes]
    exact hflag
  · exact hitems

theorem Effect.scheduled (he : Effect r T A A') (h : Scheduled r A) : Scheduled r A' := by
  cases he with
  | quiet haside _ _ _ hflushes =>
    refine ⟨haside.range h.range, ?_, ?_⟩ <;> rw [haside.queue_eq]
    · rw [hflushes]
      exact h.flushes
    · exact h.items
  | @ask client input key _ hstore _ _ _ hflushes =>
    have hqueue := @queue_enqueue _ r A.world.store client input key h.range
    constructor <;> rw [hstore]
    case range => simpa using h.range
    case flushes =>
      rw [hqueue, hflushes, h.flushes]
      -- the call launches a flush unless one is scheduled, so there is one afterwards
      cases (A.world.store.queue r.queue).flushScheduled <;> rfl
    case items =>
      rw [hqueue]
      exact fun _ => rfl
  | give _ hstore _ _ _ hflushes => exact h.of_queues (by rw [hstore]; rfl) hflushes
  | drain hstore _ _ _ hflushes =>
    have hqueue := queue_drain h.range
    constructor <;> rw [hstore]
    case range => simpa [Resolver.drain] using h.range
    case flushes =>
      rw [hqueue]
      have hbefore := h.flushes
      -- the flush that takes the requests out was the one that was scheduled
      split at hbefore
      · simp [BatchQueue.empty]
        omega
      · omega
    case items =>
      rw [hqueue]
      exact fun hne => absurd rfl hne
  | hand hstore _ _ _ hflushes => exact h.of_queues (by rw [hstore]; rfl) hflushes
  | answer _ hstore _ _ _ _ hflushes => exact h.of_queues (by rw [hstore]; rfl) hflushes
  | @deliver place requests answers hstore _ _ _ hflushes =>
    exact h.of_queues (by rw [hstore, queues_deliverTo]) hflushes

/-! ## Requests -/

/-- The requests of the queue. -/
def Traffic.queued (r : Resolver (Observed β)) (A : Traffic β) : List PendingRequest :=
  (A.world.store.queue r.queue).items

/-- Every request that has joined the queue is in one place, and every batch is well cut. -/
structure Accounted (r : Resolver (Observed β)) (A : Traffic β) : Prop where
  requests : A.world.ledger.asked.Perm
    (A.world.ledger.handed.flatten ++ (A.unhanded.flatten ++ A.queued r))
  queued : (A.queued r).Sublist A.world.ledger.asked
  batches : ∀ b ∈ A.world.ledger.handed ++ A.unhanded,
    BatchQueue.Cut (·.client.transaction?) r.limit A.world.ledger.asked b
  distinct : (A.world.ledger.asked.map (·.slot)).Nodup
  slots : ∀ q ∈ A.world.ledger.asked, q.slot < A.world.store.slots.length
  keys : ∀ q ∈ A.world.ledger.asked, ∃ key, r.key q.client q.input = .ok key

/-- A step that changes neither requests nor batches keeps the accounts. -/
theorem Accounted.of_same (h : Accounted r A) (hasked : A'.world.ledger.asked = A.world.ledger.asked)
    (hhanded : A'.world.ledger.handed = A.world.ledger.handed) (hunhanded : A'.unhanded = A.unhanded)
    (hqueue : A'.world.store.queue r.queue = A.world.store.queue r.queue)
    (hslots : A.world.store.slots.length ≤ A'.world.store.slots.length) : Accounted r A' := by
  obtain ⟨hrequests, hqueued, hbatches, hdistinct, hbound, hkeys⟩ := h
  constructor <;> rw [hasked]
  case requests => rwa [Traffic.queued, hhanded, hunhanded, hqueue]
  case queued => rwa [Traffic.queued, hqueue]
  case batches => rwa [hhanded, hunhanded]
  case distinct => exact hdistinct
  case slots => exact fun q hq => (hbound q hq).trans_le hslots
  case keys => exact hkeys

/-- A request that joins the queue with a slot of its own is accounted for there. -/
theorem Accounted.ask (h : Accounted r A) {q : PendingRequest}
    (hasked : A'.world.ledger.asked = A.world.ledger.asked ++ [q])
    (hhanded : A'.world.ledger.handed = A.world.ledger.handed) (hunhanded : A'.unhanded = A.unhanded)
    (hqueue : A'.queued r = A.queued r ++ [q]) (hkey : ∃ key, r.key q.client q.input = .ok key)
    (hslot : q.slot = A.world.store.slots.length)
    (hslots : A'.world.store.slots.length = A.world.store.slots.length + 1) : Accounted r A' := by
  obtain ⟨hrequests, hqueued, hbatches, hdistinct, hbound, hkeys⟩ := h
  constructor <;> rw [hasked]
  case requests =>
    rw [hhanded, hunhanded, hqueue]
    simpa only [List.append_assoc] using hrequests.append_right [q]
  case queued =>
    rw [hqueue]
    exact hqueued.append (.refl _)
  case batches =>
    rw [hhanded, hunhanded]
    exact fun b hb => (hbatches b hb).mono (List.sublist_append_left _ _)
  case distinct =>
    rw [List.map_append, List.nodup_append]
    -- the slots before were all there before the new one
    refine ⟨hdistinct, by simp, ?_⟩
    intro n hn m hm
    obtain ⟨q', hq', rfl⟩ := List.mem_map.1 hn
    rw [List.map_singleton, List.mem_singleton] at hm
    exact hm ▸ hslot ▸ (hbound q' hq').ne
  case slots =>
    rw [hslots]
    refine List.forall_mem_append.2 ⟨fun q' hq' => (hbound q' hq').trans (Nat.lt_succ_self _), ?_⟩
    exact List.forall_mem_singleton.2 (hslot ▸ Nat.lt_succ_self _)
  case keys => exact List.forall_mem_append.2 ⟨hkeys, List.forall_mem_singleton.2 hkey⟩

/-- What is taken from the queue is cut into batches, and nothing of it is lost. -/
theorem Accounted.drain (h : Accounted r A) (hledger : A'.world.ledger = A.world.ledger)
    (hunhanded : A'.unhanded.Perm (r.batchesOf (A.queued r) ++ A.unhanded)) (hqueue : A'.queued r = [])
    (hslots : A'.world.store.slots.length = A.world.store.slots.length) : Accounted r A' := by
  obtain ⟨hrequests, hqueued, hbatches, hdistinct, hbound, hkeys⟩ := h
  constructor <;> rw [hledger]
  case requests =>
    have hflatten := BatchQueue.perm_flatten_batches (·.client.transaction?) r.limit (A.queued r)
    rw [hqueue, List.append_nil]
    refine hrequests.trans (.append_left _ (.trans ?_ hunhanded.flatten.symm))
    rw [List.flatten_append]
    exact List.perm_append_comm.trans (hflatten.symm.append_right _)
  case queued =>
    rw [hqueue]
    exact List.nil_sublist _
  case batches =>
    refine List.forall_mem_append.2 ⟨fun b hb => hbatches b (List.mem_append_left _ hb), fun b hb => ?_⟩
    rcases List.mem_append.1 (hunhanded.subset hb) with hb | hb
    · exact (BatchQueue.cut_of_mem_batches hb).mono hqueued
    · exact hbatches b (List.mem_append_right _ hb)
  case distinct => exact hdistinct
  case slots => rwa [hslots]
  case keys => exact hkeys

/-- A batch that is handed over only moves from those to be handed over to those that were. -/
theorem Accounted.hand (h : Accounted r A) {requests : List PendingRequest}
    (hasked : A'.world.ledger.asked = A.world.ledger.asked)
    (hhanded : A'.world.ledger.handed = A.world.ledger.handed ++ [requests])
    (hunhanded : A.unhanded.Perm (requests :: A'.unhanded)) (hqueue : A'.queued r = A.queued r)
    (hslots : A'.world.store.slots.length = A.world.store.slots.length) : Accounted r A' := by
  obtain ⟨hrequests, hqueued, hbatches, hdistinct, hbound, hkeys⟩ := h
  constructor <;> rw [hasked]
  case requests =>
    rw [hqueue, hhanded]
    refine hrequests.trans ?_
    simpa only [List.flatten_append, List.flatten_cons, List.flatten_nil, List.append_nil,
      List.append_assoc] using
      (hunhanded.flatten.append_right (A.queued r)).append_left A.world.ledger.handed.flatten
  case queued => rwa [hqueue]
  case batches =>
    rw [hhanded, List.append_assoc]
    intro b hb
    refine hbatches b ?_
    rwa [List.mem_append, hunhanded.mem_iff, ← List.mem_append]
  case distinct => exact hdistinct
  case slots => rwa [hslots]
  case keys => exact hkeys

/-- **Every step keeps the accounts.** -/
theorem Effect.accounted (he : Effect r T A A') (hs : Scheduled r A) (h : Accounted r A) :
    Accounted r A' := by
  cases he with
  | quiet haside hledger hunhanded _ _ =>
    exact h.of_same (by rw [hledger]) (by rw [hledger]) hunhanded haside.queue_eq haside.slots.length_le
  | @ask client input key hkey hstore hledger hunhanded _ _ =>
    refine h.ask (by rw [hledger]) (by rw [hledger]) hunhanded ?_ ⟨key, hkey⟩ rfl ?_
    · rw [Traffic.queued, hstore, queue_enqueue hs.range]
      rfl
    · rw [hstore, slots_enqueue, List.length_append, List.length_singleton]
  | give _ hstore hledger hunhanded _ _ =>
    refine h.of_same (by rw [hledger]) (by rw [hledger]) hunhanded (by rw [hstore]; rfl) ?_
    rw [hstore]
    simp
  | drain hstore hledger hunhanded _ _ =>
    refine h.drain hledger hunhanded ?_ (by rw [hstore]; rfl)
    rw [Traffic.queued, hstore, queue_drain hs.range]
    rfl
  | hand hstore hledger hunhanded _ _ =>
    refine h.hand (by rw [hledger]) (by rw [hledger]) hunhanded ?_ (by rw [hstore]; rfl)
    rw [Traffic.queued, hstore]
    rfl
  | answer _ hstore hledger hunhanded _ _ _ =>
    exact h.of_same (by rw [hledger]) (by rw [hledger]) hunhanded (by rw [hstore]; rfl)
      (by rw [hstore]; exact Nat.le_refl _)
  | deliver hstore hledger hunhanded _ _ =>
    refine h.of_same (by rw [hledger]) (by rw [hledger]) hunhanded ?_ ?_
    · rw [hstore, Store.queue, queues_deliverTo]
      rfl
    · rw [hstore, length_slots_deliverTo]

end Resolver

end SqlClient
