import SqlClient.Proofs.Resolver.Aside
/-!
# Resolvers — what a cache goes on answering

A request that joins the queue leaves its key in the cache, and whoever collects an answer clears
away its own key at most, and only if the answer is a failure or its time has run out at once.
-/

namespace SqlClient

variable {β : Type}

namespace Store

/-- A cache has the answer for a key, or is about to. -/
def Knows (s : Store β) (n : Nat) (key : CacheKey) : Prop :=
  ((s.cache n).lookup? key s.now).isSome = true

/-- A cache has an entry for a key, whether it still answers it or not. -/
def Lists (s : Store β) (n : Nat) (key : CacheKey) : Prop :=
  ((s.cache n).entries.lookup key).isSome = true

theorem Knows.lists {s : Store β} {n : Nat} {key : CacheKey} (h : s.Knows n key) : s.Lists n key :=
  RequestCache.isSome_lookup_of_lookup? h

end Store

namespace Resolver

variable {r : Resolver (Observed β)} {s : Store (Observed β)}

/-- A request that joins the queue leaves its key in the cache. -/
theorem knows_enqueue {client : Client} {input : Input} {key : CacheKey}
    (hcache : client.cache < s.caches.length) :
    (r.enqueue client input key s).2.Knows client.cache key := by
  rw [Store.Knows, Store.cache, caches_enqueue, List.getD_eq_getElem?_getD, List.getElem?_set_self hcache,
    Option.getD_some, RequestCache.lookup?_insert]
  rfl

/-- Whoever collects an answer clears away no key but its own, and that only if the answer is a
failure. -/
theorem listed_collect {client : Client} {key k : CacheKey} {ticket : Ticket} {n : Nat}
    (h : k ≠ key ∨ ∃ answer, s.slot? ticket.slot = some (.ok answer)) :
    ((collect client key ticket s).2.Lists n k ↔ s.Lists n k) := by
  have hcomplete : (s.changeCache client.cache (·.complete key ticket.id s.now)).Lists n k ↔
      s.Lists n k := by
    rw [Store.Lists]
    rcases s.cache_changeCache client.cache n (·.complete key ticket.id s.now) with hsame | ⟨-, hsame⟩
    · rw [hsame, Store.Lists]
    · rw [hsame, RequestCache.lookup_complete, Store.Lists]
  have hevict (s' : Store (Observed β)) (hne : k ≠ key) :
      (s'.changeCache client.cache (·.evictFailed key ticket.id)).Lists n k ↔ s'.Lists n k := by
    rw [Store.Lists]
    rcases s'.cache_changeCache client.cache n (·.evictFailed key ticket.id) with hsame | ⟨-, hsame⟩
    · rw [hsame, Store.Lists]
    · rw [hsame, RequestCache.lookup_evictFailed_of_ne hne, Store.Lists]
  have hslot : (s.changeCache client.cache (·.complete key ticket.id s.now)).slot? ticket.slot =
      s.slot? ticket.slot := rfl
  rw [collect, hslot]
  rcases h with hne | ⟨answer, hanswer⟩
  · split
    · exact hcomplete
    · exact (hevict _ hne).trans hcomplete
    · exact (hevict _ hne).trans hcomplete
  · rw [hanswer]
    exact hcomplete

end Resolver

end SqlClient
