/-!
# Resolvers — the request cache

A cache maps keys to slots. A slot is written when its work starts and is completed later. A
completed entry is served until it is as old as the time to live; a pending one never ages. When
there are more entries than the capacity, the oldest completed ones make room, but never pending
ones and never the one just written.

Every write has an id of its own, greater than all before it, so that a late failure removes the
write it belongs to and no other.
-/

namespace SqlClient

/-- A write of a cache. -/
structure CacheEntry (α : Type) where
  id : Nat
  slot : α
  /-- When the slot was completed. -/
  completed : Option Nat

namespace CacheEntry

variable {α : Type}

/-- Whether the answer has come. -/
def isComplete (e : CacheEntry α) : Bool := e.completed.isSome

/-- Whether an entry was completed at least `ttl` ago. -/
def isExpired (e : CacheEntry α) (ttl now : Nat) : Bool :=
  match e.completed with
  | some moment => moment + ttl ≤ now
  | none => false

end CacheEntry

/-- The slots written under keys. Times are in milliseconds. -/
structure RequestCache (κ α : Type) where
  /-- Entries beyond this number make room for new ones. -/
  capacity : Nat
  /-- The age at which a completed entry is no longer served. -/
  ttl : Nat
  /-- The live entries, one a key. -/
  entries : List (κ × CacheEntry α)
  /-- The writes in order; those of removed entries may linger. -/
  order : List (κ × Nat)
  /-- The id of the latest write. -/
  lastId : Nat

namespace RequestCache

variable {κ α : Type} [DecidableEq κ]

/-- An empty cache. Its capacity is at least one. -/
def empty (capacity ttl : Nat) : RequestCache κ α := ⟨max capacity 1, ttl, [], [], 0⟩

/-- The cache of clients that name none. -/
def default : RequestCache κ α := empty 65536 60000

/-- The number of live entries, pending and expired ones included. -/
def size (c : RequestCache κ α) : Nat := c.entries.length

/-- The live entry of a key. -/
def entry? (c : RequestCache κ α) (key : κ) : Option (CacheEntry α) := c.entries.lookup key

/-- The entries without a key. -/
def eraseEntry (key : κ) (entries : List (κ × CacheEntry α)) : List (κ × CacheEntry α) :=
  entries.filter fun e => e.1 ≠ key

/-- The entry that a request for a key is answered from. -/
def lookup? (c : RequestCache κ α) (key : κ) (now : Nat) : Option (CacheEntry α) :=
  (c.entry? key).filter fun e => !e.isExpired c.ttl now

/-- Whether a write is the live entry of its key. -/
def isLive (entries : List (κ × CacheEntry α)) (w : κ × Nat) : Bool :=
  match entries.lookup w.1 with
  | some e => e.id == w.2
  | none => false

/-- Whether a write is the live entry of its key and complete. -/
def isSettled (entries : List (κ × CacheEntry α)) (w : κ × Nat) : Bool :=
  match entries.lookup w.1 with
  | some e => e.id == w.2 && e.isComplete
  | none => false

/-- Removes up to `excess` completed entries in the order of their writes, but not the newest. -/
def makeRoom (newest : Nat) : Nat → List (κ × Nat) → List (κ × CacheEntry α) →
    List (κ × Nat) × List (κ × CacheEntry α)
  | 0, order, entries => (order, entries)
  | _ + 1, [], entries => ([], entries)
  | excess + 1, w :: order, entries =>
    if w.2 ≠ newest ∧ isSettled entries w then
      makeRoom newest excess order (eraseEntry w.1 entries)
    else
      let (order, entries) := makeRoom newest (excess + 1) order entries
      (w :: order, entries)

/-- Forgets the writes of removed entries once there are more than two for each place. -/
def trim (c : RequestCache κ α) : RequestCache κ α :=
  if 2 * c.capacity < c.order.length then { c with order := c.order.filter (isLive c.entries) }
  else c

/-- Writes a slot: the id of the write, and the cache after it. -/
def insert (c : RequestCache κ α) (key : κ) (slot : α) (completed : Option Nat) :
    Nat × RequestCache κ α :=
  let id := c.lastId + 1
  let order := c.order ++ [(key, id)]
  let entries := eraseEntry key c.entries ++ [(key, ⟨id, slot, completed⟩)]
  let (order, entries) := makeRoom id (entries.length - c.capacity) order entries
  (id, { c with order, entries, lastId := id }.trim)

/-- Completes the slot of a write, unless it is complete or no longer there. -/
def complete (c : RequestCache κ α) (key : κ) (id now : Nat) : RequestCache κ α :=
  { c with
    entries := c.entries.map fun (k, e) =>
      (k, if k = key ∧ e.id = id ∧ !e.isComplete then { e with completed := some now } else e) }

/-- Writes a slot that is complete from the start, in place of whatever is there. -/
def populate (c : RequestCache κ α) (key : κ) (slot : α) (now : Nat) : RequestCache κ α :=
  (c.insert key slot (some now)).2

/-- Removes the entry of a key. -/
def invalidate (c : RequestCache κ α) (key : κ) : RequestCache κ α :=
  { c with entries := eraseEntry key c.entries }

/-- Removes the entry of a key if it is that of a given write. -/
def evictFailed (c : RequestCache κ α) (key : κ) (id : Nat) : RequestCache κ α :=
  if isLive c.entries (key, id) then c.invalidate key else c

/-- Removes every entry. -/
def clear (c : RequestCache κ α) : RequestCache κ α := { c with entries := [], order := [] }

end RequestCache

end SqlClient
