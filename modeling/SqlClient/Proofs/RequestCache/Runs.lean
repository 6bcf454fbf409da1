import SqlClient.Proofs.RequestCache.Entries
/-!
# Request caches — runs

What is done to a cache over time: lookups that start work where there is no answer, the other
operations, completions of slots, and time that passes. A run writes down what has happened to the
cache, so that what the cache answers can be compared with its history.
-/

namespace SqlClient

variable {κ α ω : Type}

/-- What a lookup comes to. -/
inductive Lookup (α : Type)
  | hit (id : Nat) (slot : α)
  /-- Work was started, and its slot was written. -/
  | started (id : Nat) (slot : α)

namespace RequestCache

variable [DecidableEq κ]

/-- Looks a key up. Where there is no answer, `start` begins work in the world around the cache, and
the slot of that is written. -/
def lookupOrInsert (c : RequestCache κ α) (key : κ) (now : Nat) (start : ω → α × ω) (world : ω) :
    Lookup α × RequestCache κ α × ω :=
  match c.lookup? key now with
  | some e => (.hit e.id e.slot, c, world)
  | none =>
    let (slot, world) := start world
    let (id, c) := c.insert key slot none
    (.started id slot, c, world)

/-- The entries with a write in place, before anything makes room for it. -/
def withWrite (c : RequestCache κ α) (key : κ) (slot : α) (completed : Option Nat) :
    List (κ × CacheEntry α) :=
  eraseEntry key c.entries ++ [(key, ⟨c.lastId + 1, slot, completed⟩)]

/-- The writes that make room for a new one. -/
def evictedBy (c : RequestCache κ α) (key : κ) (slot : α) (completed : Option Nat) : List Nat :=
  ((c.withWrite key slot completed).filter fun w =>
    ((c.insert key slot completed).2.entries.lookup w.1).isNone).map (·.2.id)

end RequestCache

/-- Something that has happened to a cache. -/
inductive CacheEvent (κ α : Type)
  | written (key : κ) (id : Nat) (slot : α) (completed : Option Nat)
  /-- A write was removed to make room. -/
  | evicted (id : Nat)
  /-- Somebody found that a write has failed. -/
  | failed (key : κ) (id : Nat)
  | invalidated (key : κ)
  | cleared
  /-- The slot of a write was completed. -/
  | completed (key : κ) (id moment : Nat)

/-- A cache in use: the time, the world in which work is started, and what has happened so far. -/
structure CacheRun (κ α ω : Type) where
  cache : RequestCache κ α
  now : Nat
  world : ω
  history : List (CacheEvent κ α)

/-- What can be done with a cache, or happen beside it. -/
inductive CacheOperation (κ α ω : Type)
  | lookup (key : κ) (start : ω → α × ω)
  | populate (key : κ) (slot : α)
  | invalidate (key : κ)
  | evictFailed (key : κ) (id : Nat)
  | clear
  | complete (key : κ) (id : Nat)
  /-- Time passes. -/
  | wait (ms : Nat)

namespace CacheRun

variable [DecidableEq κ]

/-- An empty cache. -/
def start (capacity ttl now : Nat) (world : ω) : CacheRun κ α ω := ⟨.empty capacity ttl, now, world, []⟩

/-- What a write adds to the history. -/
def writing (d : CacheRun κ α ω) (key : κ) (slot : α) (completed : Option Nat) :
    List (CacheEvent κ α) :=
  .written key (d.cache.lastId + 1) slot completed ::
    (d.cache.evictedBy key slot completed).map .evicted

/-- The cache in use after an operation. -/
def perform (d : CacheRun κ α ω) : CacheOperation κ α ω → CacheRun κ α ω
  | .lookup key start =>
    match d.cache.lookupOrInsert key d.now start d.world with
    | (.hit _ _, cache, world) => { d with cache, world }
    | (.started _ slot, cache, world) =>
      { d with cache, world, history := d.history ++ d.writing key slot none }
  | .populate key slot =>
    { d with
      cache := d.cache.populate key slot d.now
      history := d.history ++ d.writing key slot (some d.now) }
  | .invalidate key =>
    { d with cache := d.cache.invalidate key, history := d.history ++ [.invalidated key] }
  | .evictFailed key id =>
    { d with cache := d.cache.evictFailed key id, history := d.history ++ [.failed key id] }
  | .clear => { d with cache := d.cache.clear, history := d.history ++ [.cleared] }
  | .complete key id =>
    { d with
      cache := d.cache.complete key id d.now
      history := d.history ++ [.completed key id d.now] }
  | .wait ms => { d with now := d.now + ms }

/-- The cache in use after several operations. -/
def run (d : CacheRun κ α ω) (ops : List (CacheOperation κ α ω)) : CacheRun κ α ω :=
  ops.foldl perform d

variable {d : CacheRun κ α ω}

/-- **What every operation keeps, every run keeps.** -/
theorem run_keeps {I : CacheRun κ α ω → Prop} (hd : I d) (hstep : ∀ d op, I d → I (d.perform op))
    (ops : List (CacheOperation κ α ω)) : I (d.run ops) := by
  induction ops generalizing d with
  | nil => exact hd
  | cons op ops ih => exact ih (hstep d op hd)

/-- What an operation does to the cache: it leaves it as it is, or it is one of the changes that a
cache knows. -/
theorem cache_perform (d : CacheRun κ α ω) (op : CacheOperation κ α ω) {I : RequestCache κ α → Prop}
    (hd : I d.cache) (hinsert : ∀ key slot completed, I (d.cache.insert key slot completed).2)
    (hinvalidate : ∀ key, I (d.cache.invalidate key)) (hclear : I d.cache.clear)
    (hcomplete : ∀ key id now, I (d.cache.complete key id now)) : I (d.perform op).cache := by
  cases op with
  | lookup key start =>
    rw [perform, RequestCache.lookupOrInsert]
    cases d.cache.lookup? key d.now with
    | some e => exact hd
    | none => exact hinsert _ _ _
  | populate key slot => exact hinsert _ _ _
  | invalidate key => exact hinvalidate key
  | evictFailed key id =>
    change I (d.cache.evictFailed key id)
    rw [RequestCache.evictFailed]
    split
    · exact hinvalidate key
    · exact hd
  | clear => exact hclear
  | complete key id => exact hcomplete _ _ _
  | wait ms => exact hd

end CacheRun

end SqlClient
