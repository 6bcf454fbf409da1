import SqlClient.Proofs.RequestCache.History
import SqlClient.Resolver.Run
/-!
# Request caches — requests

What a resolver does to the cache of a client are lookups, completions and findings of failure. Its
lookup starts work in the store: a slot is opened and the request joins the queue. Its findings come
after completions, since whoever collects an answer has waited for it.
-/

namespace SqlClient

variable {β : Type}

/-- The write that a lookup comes to. -/
def Lookup.id {α : Type} : Lookup α → Nat
  | .hit id _ => id
  | .started id _ => id

/-- The slot that a lookup comes to. -/
def Lookup.slot {α : Type} : Lookup α → α
  | .hit _ slot => slot
  | .started _ slot => slot

namespace Resolver

variable (r : Resolver β) (client : Client)

/-- The work that a lookup starts: its slot, the store with the request in the queue, and whether a
flush has to be scheduled. -/
def begin (input : Input) (s : Store β) : Nat × Store β × Bool :=
  let (slot, s) := s.openSlot none
  let s := s.holdFor client
  let (schedules, queue) := (s.queue r.queue).enqueue ⟨client, input, slot⟩
  (slot, { s with queues := s.queues.set r.queue queue }, schedules)

/-- **A request looks its key up**, and starts the work of that key if it has to. -/
theorem lookupOrEnqueue_eq (input : Input) (key : CacheKey) (s : Store β) :
    r.lookupOrEnqueue client input key s =
      let found := (s.cache client.cache).lookupOrInsert key s.now
        (fun world : Store β × Bool => r.begin client input world.1) (s, false)
      (⟨found.1.id, found.1.slot, found.2.2.2⟩,
        { found.2.2.1 with caches := found.2.2.1.caches.set client.cache found.2.1 }) := by
  rw [lookupOrEnqueue, RequestCache.lookupOrInsert]
  cases (s.cache client.cache).lookup? key s.now with
  | some e =>
    have hsame : s.caches.set client.cache (s.cache client.cache) = s.caches := by
      by_cases hin : client.cache < s.caches.length
      · simp [Store.cache, List.getD_eq_getElem?_getD, hin]
      · exact List.set_eq_of_length_le (Nat.le_of_not_lt hin)
    simp only [Lookup.id, Lookup.slot, hsame]
  | none =>
    have hcache : ((s.openSlot none).2.holdFor client).cache client.cache = s.cache client.cache := by
      rw [Store.holdFor]
      cases client.connection? <;> rfl
    simp only [enqueue, begin, hcache, Lookup.id, Lookup.slot]

/-- **Who finds a failure has waited for it.** The write is complete before it is removed. -/
theorem cache_collect (key : CacheKey) (ticket : Ticket) (s : Store β)
    (hcache : client.cache < s.caches.length) :
    (collect client key ticket s).2.cache client.cache =
      ((⟨s.cache client.cache, s.now, (), []⟩ : CacheRun CacheKey Nat Unit).run
        (.complete key ticket.id ::
          if (collect client key ticket s).1.isOk then [] else [.evictFailed key ticket.id])).cache := by
  have hchange (s' : Store β) (f : RequestCache CacheKey Nat → RequestCache CacheKey Nat)
      (hin : client.cache < s'.caches.length) :
      (s'.changeCache client.cache f).cache client.cache = f (s'.cache client.cache) := by
    simp [Store.cache, Store.changeCache, List.getD_eq_getElem?_getD, hin]
  have hstill : client.cache <
      (s.changeCache client.cache (·.complete key ticket.id s.now)).caches.length := by
    simpa [Store.changeCache] using hcache
  rw [collect]
  split
  · exact hchange s _ hcache
  · rw [hchange _ _ hstill, hchange s _ hcache]
    rfl
  · rw [hchange _ _ hstill, hchange s _ hcache]
    rfl

end Resolver

end SqlClient
