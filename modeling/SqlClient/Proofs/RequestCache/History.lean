import SqlClient.Proofs.RequestCache.Eviction
/-!
# Request caches — answers from the latest write

What a cache answers is a matter of its history alone: the latest write of the key, unless something
has removed it since, and unless it was completed too long ago. `Stands` reads this off a history,
and `remembered` computes it event by event, as a map from keys to writes would. A run of a cache agrees
with the map of its history, through every operation.
-/

namespace SqlClient

variable {κ α ω : Type}

namespace CacheEvent

/-- Whether an event is the end of a write: it is replaced or removed. -/
def Ends (key : κ) (id : Nat) : CacheEvent κ α → Prop
  | .written k _ _ _ => k = key
  | .evicted i => i = id
  | .failed k i => k = key ∧ i = id
  | .invalidated k => k = key
  | .cleared => True
  | .completed _ _ _ => False

variable [DecidableEq κ]

/-- When an event completes a write. -/
def completion? (key : κ) (id : Nat) : CacheEvent κ α → Option Nat
  | .completed k i moment => if k = key ∧ i = id then some moment else none
  | _ => none

/-- What an event makes of the entry of a key. -/
def revise (key : κ) (entry : Option (CacheEntry α)) : CacheEvent κ α → Option (CacheEntry α)
  | .written k id slot done => if k = key then some ⟨id, slot, done⟩ else entry
  | .evicted id => entry.filter (·.id ≠ id)
  | .failed k id => if k = key then entry.filter (·.id ≠ id) else entry
  | .invalidated k => if k = key then none else entry
  | .cleared => none
  | .completed k id moment =>
    entry.map fun e =>
      if k = key ∧ e.id = id ∧ !e.isComplete then { e with completed := some moment } else e

/-- An event makes an entry if it writes it, or if it is not the end of what was there. -/
theorem revise_eq_some_iff {key : κ} {entry : Option (CacheEntry α)} {event : CacheEvent κ α}
    {e : CacheEntry α} :
    event.revise key entry = some e ↔
      event = .written key e.id e.slot e.completed ∨
        ¬event.Ends key e.id ∧ ∃ done, entry = some { e with completed := done } ∧
          e.completed = done.or (event.completion? key e.id) := by
  obtain ⟨id, slot, moment⟩ := e
  cases event with
  | written k i s m =>
    by_cases hk : k = key
    · simp [revise, Ends, hk]
    · simp [revise, Ends, completion?, hk]
  | evicted i =>
    rw [revise, Option.filter_eq_some_iff]
    simp [Ends, completion?, eq_comm (a := i), and_comm]
  | failed k i =>
    by_cases hk : k = key
    · rw [revise, if_pos hk, Option.filter_eq_some_iff]
      simp [Ends, completion?, hk, eq_comm (a := i), and_comm]
    · simp [revise, Ends, completion?, hk]
  | invalidated k =>
    by_cases hk : k = key
    · simp [revise, Ends, hk]
    · simp [revise, Ends, completion?, hk]
  | cleared => simp [revise, Ends]
  | completed k i m =>
    rcases entry with - | ⟨id', slot', moment'⟩
    · simp [revise]
    · by_cases hid : id' = id
      · subst hid
        -- only a completion of this entry and this id changes its moment
        by_cases hown : k = key ∧ i = id'
        · obtain ⟨rfl, rfl⟩ := hown
          have hcomm (m : Option Nat) : m = moment ↔ moment = m := eq_comm
          cases moment' <;> simp [revise, Ends, completion?, CacheEntry.isComplete, hcomm]
        · have hother : ¬(k = key ∧ id' = i) := fun h => hown ⟨h.1, h.2.symm⟩
          simp [revise, Ends, completion?, hown, ← and_assoc, hother]
      · refine iff_of_false (fun h => hid ?_) (fun h => hid ?_)
        · have hsame := congrArg CacheEntry.id (Option.some.inj h)
          dsimp only at hsame
          split at hsame <;> exact hsame
        · obtain h | ⟨-, done, h, -⟩ := h
          · cases h
          · exact congrArg CacheEntry.id (Option.some.inj h)

end CacheEvent

open CacheEvent

/-! ## What a history says of a key -/

section Recall

variable [DecidableEq κ] {history : List (CacheEvent κ α)} {key : κ} {e : CacheEntry α}

/-- The latest write of a key stands: it was neither replaced nor removed, and it was completed when
it was written or, if not then, when its slot was. -/
def Stands (history : List (CacheEvent κ α)) (key : κ) (e : CacheEntry α) : Prop :=
  ∃ before done after, history = before ++ .written key e.id e.slot done :: after ∧
    (∀ event ∈ after, ¬event.Ends key e.id) ∧
    e.completed = done.or (after.findSome? (completion? key e.id))

/-- The entry of a key, from event to event. -/
def remembered (history : List (CacheEvent κ α)) (key : κ) : Option (CacheEntry α) :=
  history.foldl (fun entry event => event.revise key entry) none

theorem remembered_append (history events : List (CacheEvent κ α)) (key : κ) :
    remembered (history ++ events) key =
      events.foldl (fun entry event => event.revise key entry) (remembered history key) :=
  List.foldl_append ..

theorem stands_append_singleton {event : CacheEvent κ α} :
    Stands (history ++ [event]) key e ↔
      event = .written key e.id e.slot e.completed ∨
        ¬event.Ends key e.id ∧ ∃ done, Stands history key { e with completed := done } ∧
          e.completed = done.or (event.completion? key e.id) := by
  constructor
  · rintro ⟨before, done, after, heq, hafter, hdone⟩
    -- the last event is the write itself, or one that came after it
    induction after using List.reverseRecOn with
    | nil =>
      obtain ⟨-, hlast⟩ := List.append_inj' heq rfl
      have hdone : e.completed = done := by simpa using hdone
      exact .inl (hdone ▸ (List.cons.inj hlast).1)
    | append_singleton after last _ =>
      rw [← List.cons_append, ← List.append_assoc] at heq
      obtain ⟨hinit, hlast⟩ := List.append_inj' heq rfl
      obtain rfl := (List.cons.inj hlast).1
      refine .inr ⟨hafter event (by simp), done.or (after.findSome? (completion? key e.id)),
        ⟨before, done, after, hinit, ?_, rfl⟩, ?_⟩
      · exact fun other hother => hafter other (List.mem_append_left _ hother)
      · simpa [List.findSome?_append, Option.or_assoc] using hdone
  · rintro (rfl | ⟨hkept, done, ⟨before, first, after, rfl, hafter, hdone⟩, hcompleted⟩)
    · exact ⟨history, e.completed, [], rfl, by simp, by simp⟩
    · refine ⟨before, first, after ++ [event], by simp, ?_, ?_⟩
      · intro other hother
        rcases List.mem_append.1 hother with hother | hother
        · exact hafter other hother
        · rwa [List.mem_singleton.1 hother]
      · dsimp only at hdone
        rw [hcompleted, hdone, Option.or_assoc, List.findSome?_append]
        simp

/-- **The map of a history knows the writes that stand, and no others.** -/
theorem remembered_eq_some_iff : remembered history key = some e ↔ Stands history key e := by
  induction history using List.reverseRecOn generalizing e with
  | nil => simp [remembered, Stands]
  | append_singleton history event ih =>
    rw [remembered_append, stands_append_singleton]
    simp only [List.foldl_cons, List.foldl_nil, revise_eq_some_iff, ih]

/-- An eviction takes away the write that it names. -/
theorem foldl_evicted (ids : List Nat) (entry : Option (CacheEntry α)) (key : κ) :
    (ids.map CacheEvent.evicted).foldl (fun entry event => event.revise key entry) entry =
      entry.filter (·.id ∉ ids) := by
  induction ids generalizing entry with
  | nil => cases entry <;> simp [Option.filter]
  | cons id ids ih =>
    rw [List.map_cons, List.foldl_cons, ih, revise, Option.filter_filter]
    simp [not_or]

end Recall

/-! ## What the operations do to the entry of a key -/

namespace RequestCache

variable [DecidableEq κ] {c : RequestCache κ α} {key k : κ} {slot : α} {completed : Option Nat}
  {id now : Nat}

theorem entry_eraseEntry (entries : List (κ × CacheEntry α)) :
    (eraseEntry key entries).lookup k = if key = k then none else entries.lookup k := by
  split
  · subst k
    exact lookup_eraseEntry_self key entries
  · exact lookup_eraseEntry_of_ne (Ne.symm ‹_›) entries

theorem entry_invalidate : (c.invalidate key).entries.lookup k = if key = k then none else c.entries.lookup k :=
  entry_eraseEntry _

theorem entry_evictFailed :
    (c.evictFailed key id).entries.lookup k =
      if key = k then (c.entries.lookup k).filter (·.id ≠ id) else c.entries.lookup k := by
  have hlive : isLive c.entries (key, id) = (c.entries.lookup key).any (·.id == id) := by
    rw [isLive]
    cases c.entries.lookup key <;> rfl
  rw [evictFailed, hlive]
  by_cases hkey : key = k
  · subst k
    rw [if_pos rfl]
    cases hentry : c.entries.lookup key with
    | none => simpa using hentry
    | some e => by_cases hid : e.id = id <;> simp [hid, hentry, entry_invalidate, Option.filter]
  · split <;> simp [hkey, entry_invalidate]

theorem entry_complete :
    (c.complete key id now).entries.lookup k = (c.entries.lookup k).map fun e =>
      if key = k ∧ e.id = id ∧ !e.isComplete then { e with completed := some now } else e := by
  rw [complete]
  induction c.entries with
  | nil => rfl
  | cons v entries ih =>
    rw [List.map_cons, List.lookup_cons, List.lookup_cons, ih]
    by_cases hk : k = v.1
    · simp [hk, eq_comm (a := key)]
    · have hbeq : (k == v.1) = false := by simpa using hk
      simp [hbeq]

theorem lookup_withWrite :
    (c.withWrite key slot completed).lookup k =
      if key = k then some ⟨c.lastId + 1, slot, completed⟩ else c.entries.lookup k := by
  rw [withWrite, List.lookup_append, entry_eraseEntry]
  by_cases hk : key = k
  · simp [hk]
  · have hbeq : (k == key) = false := by simpa using Ne.symm hk
    simp [hk, List.lookup_cons, hbeq]

/-- The id of a write says which one it is. -/
theorem Tidy.eq_of_id (h : c.Tidy) {u v : κ × CacheEntry α} (hu : u ∈ c.withWrite key slot completed)
    (hv : v ∈ c.withWrite key slot completed) (hid : u.2.id = v.2.id) : u = v := by
  have hordered := h.ascending_orderWith key
  have hwrites := List.inj_on_of_nodup_map (hordered.imp ne_of_lt)
    (h.listed_withWrite key slot completed u hu) (h.listed_withWrite key slot completed v hv) hid
  exact List.inj_on_of_nodup_map (h.nodup_withWrite key slot completed) hu hv
    (Prod.ext_iff.1 hwrites).1

/-- After a write, a key has the entry that it had with the write, unless that was evicted. -/
theorem Tidy.entry_insert (h : c.Tidy) :
    (c.insert key slot completed).2.entries.lookup k =
      (if key = k then some ⟨c.lastId + 1, slot, completed⟩ else c.entries.lookup k).filter
        (·.id ∉ c.evictedBy key slot completed) := by
  have hkeys := (h.insert key slot completed).keys
  have hsub := (h.inserts key slot completed).remaining.subset
  -- what a write evicts is what the entries with the write have and those that are left lack
  rw [← lookup_withWrite]
  ext e
  rw [lookup_eq_some_iff_mem hkeys, Option.filter_eq_some_iff,
    lookup_eq_some_iff_mem (h.nodup_withWrite key slot completed)]
  constructor
  · refine fun hmem => ⟨hsub hmem, ?_⟩
    simp only [decide_eq_true_eq]
    intro hevicted
    obtain ⟨v, hv, hid⟩ := List.mem_map.1 hevicted
    obtain ⟨hv, hgone⟩ := List.mem_filter.1 hv
    rw [h.eq_of_id hv (hsub hmem) hid, (lookup_eq_some_iff_mem hkeys).2 hmem] at hgone
    cases hgone
  · rintro ⟨hmem, hkept⟩
    simp only [decide_eq_true_eq] at hkept
    by_contra hout
    refine hkept (List.mem_map.2 ⟨_, List.mem_filter.2 ⟨hmem, ?_⟩, rfl⟩)
    cases hlookup : (c.insert key slot completed).2.entries.lookup k with
    | none => rfl
    | some e' =>
      have hmem' := (lookup_eq_some_iff_mem hkeys).1 hlookup
      have hsame := List.inj_on_of_nodup_map (h.nodup_withWrite key slot completed) hmem
        (hsub hmem') rfl
      exact absurd (hsame ▸ hmem') hout

end RequestCache

/-! ## A cache agrees with its history -/

namespace CacheRun

open RequestCache

variable [DecidableEq κ] {d : CacheRun κ α ω} {key k : κ}

/-- The entries of a cache are those that its history tells of. -/
structure Agrees (d : CacheRun κ α ω) : Prop where
  tidy : d.cache.Tidy
  entry (key : κ) : d.cache.entries.lookup key = remembered d.history key

theorem Agrees.writing (h : d.Agrees) (key : κ) (slot : α) (completed : Option Nat) (k : κ) :
    (d.cache.insert key slot completed).2.entries.lookup k =
      remembered (d.history ++ d.writing key slot completed) k := by
  rw [h.tidy.entry_insert, remembered_append, CacheRun.writing, List.foldl_cons, foldl_evicted, revise,
    h.entry k]

theorem agrees_start (capacity ttl now : Nat) (world : ω) :
    (start capacity ttl now world : CacheRun κ α ω).Agrees :=
  ⟨tidy_empty capacity ttl, fun _ => rfl⟩

/-- **Every operation does to a cache what its event does to the map of its history.** -/
theorem Agrees.perform (h : d.Agrees) (op : CacheOperation κ α ω) : (d.perform op).Agrees := by
  refine ⟨tidy_perform h.tidy op, fun k => ?_⟩
  cases op with
  | lookup key start =>
    rw [CacheRun.perform, lookupOrInsert]
    cases d.cache.lookup? key d.now with
    | some e => exact h.entry k
    | none => exact h.writing key _ none k
  | populate key slot => exact h.writing key slot (some d.now) k
  | invalidate key =>
    rw [CacheRun.perform, remembered_append, ← h.entry k]
    exact entry_invalidate
  | evictFailed key id =>
    rw [CacheRun.perform, remembered_append, ← h.entry k]
    exact entry_evictFailed
  | clear =>
    rw [CacheRun.perform, remembered_append]
    rfl
  | complete key id =>
    rw [CacheRun.perform, remembered_append, ← h.entry k]
    exact entry_complete
  | wait ms => exact h.entry k

theorem Agrees.stands_iff (h : d.Agrees) (key : κ) (e : CacheEntry α) :
    d.cache.entries.lookup key = some e ↔ Stands d.history key e := by
  rw [h.entry, remembered_eq_some_iff]

theorem agrees_run (capacity ttl now : Nat) (world : ω) (ops : List (CacheOperation κ α ω)) :
    ((start capacity ttl now world).run ops).Agrees :=
  run_keeps (agrees_start capacity ttl now world) (fun _ op h => h.perform op) ops

theorem ttl_run (capacity ttl now : Nat) (world : ω) (ops : List (CacheOperation κ α ω)) :
    ((start capacity ttl now world).run ops).cache.ttl = ttl :=
  run_keeps (I := fun d => d.cache.ttl = ttl) rfl
    (fun d op h => d.cache_perform op (I := fun c => c.ttl = ttl) h
      (fun _ _ _ => ttl_insert.trans h) (fun _ => h) h fun _ _ _ => h) ops

end CacheRun

/-! ## Pending writes -/

/-- The operations that a pending write does not outlast, or not as a pending one. A write is found
to have failed by someone who has waited for its slot, which is complete by then. -/
def CacheOperation.Settles (key : κ) (id : Nat) : CacheOperation κ α ω → Prop
  | .lookup _ _ => False
  | .populate k _ => k = key
  | .invalidate k => k = key
  | .evictFailed k i => k = key ∧ i = id
  | .clear => True
  | .complete k i => k = key ∧ i = id
  | .wait _ => False

namespace RequestCache

variable [DecidableEq κ] {c : RequestCache κ α} {key k : κ} {slot : α} {completed : Option Nat}
  {e : CacheEntry α} {id now : Nat}

/-- A pending write outlasts the writes of other keys. -/
theorem Tidy.entry_insert_of_pending (h : c.Tidy) (hentry : c.entries.lookup k = some e)
    (hpending : e.completed = none) (hkey : key ≠ k) :
    (c.insert key slot completed).2.entries.lookup k = some e := by
  have hmem : (k, e) ∈ c.withWrite key slot completed := by
    refine (lookup_eq_some_iff_mem (h.nodup_withWrite key slot completed)).1 ?_
    rw [lookup_withWrite, if_neg hkey, hentry]
  rw [lookup_eq_some_iff_mem (h.insert key slot completed).keys]
  by_contra hout
  have hcomplete := ((h.inserts key slot completed).evicted _ hmem hout).1
  rw [CacheEntry.isComplete, hpending] at hcomplete
  cases hcomplete

omit [DecidableEq κ] in
theorem isExpired_eq_false_iff {ttl : Nat} :
    e.isExpired ttl now = false ↔ ∀ moment, e.completed = some moment → now < moment + ttl := by
  rw [CacheEntry.isExpired]
  cases e.completed <;> simp

theorem lookup?_eq_some_iff :
    c.lookup? key now = some e ↔
      c.entries.lookup key = some e ∧ ∀ moment, e.completed = some moment → now < moment + c.ttl := by
  rw [lookup?, Option.filter_eq_some_iff, Bool.not_eq_true', isExpired_eq_false_iff]
  rfl

/-- The completion of a write that is no longer there is nothing to the cache. -/
theorem Tidy.complete_eq_self (h : c.Tidy) (hgone : ∀ e, c.entries.lookup key = some e → e.id ≠ id) :
    c.complete key id now = c := by
  have hsame : ∀ v ∈ c.entries,
      (v.1, if v.1 = key ∧ v.2.id = id ∧ !v.2.isComplete then
        { v.2 with completed := some now } else v.2) = v := by
    intro v hv
    have hother : ¬(v.1 = key ∧ v.2.id = id ∧ (!v.2.isComplete) = true) := by
      rintro ⟨rfl, hid, -⟩
      exact hgone v.2 ((lookup_eq_some_iff_mem h.keys).2 hv) hid
    rw [if_neg hother]
  rw [RequestCache.complete, List.map_congr_left hsame, List.map_id']

/-- The failure of a write that is no longer there is nothing to the cache. -/
theorem evictFailed_eq_self (hgone : ∀ e, c.entries.lookup key = some e → e.id ≠ id) :
    c.evictFailed key id = c := by
  rw [evictFailed, isLive]
  cases hentry : c.entries.lookup key with
  | none => rfl
  | some e => exact if_neg (by simpa using hgone e hentry)

end RequestCache

namespace CacheRun

open RequestCache

variable [DecidableEq κ] {d : CacheRun κ α ω} {key : κ} {id : Nat} {slot : α}

/-- **A pending write stands through every operation that does not settle it.** -/
theorem Agrees.stands_perform (h : d.Agrees) (hstands : Stands d.history key ⟨id, slot, none⟩)
    {op : CacheOperation κ α ω} (hop : ¬op.Settles key id) :
    Stands (d.perform op).history key ⟨id, slot, none⟩ := by
  have hentry := (h.stands_iff _ _).2 hstands
  rw [← (h.perform op).stands_iff]
  cases op with
  | lookup k start =>
    rw [CacheRun.perform, lookupOrInsert]
    cases hlookup : d.cache.lookup? k d.now with
    | some e => exact hentry
    | none =>
      -- a pending entry is always found, so what is written here has another key
      refine h.tidy.entry_insert_of_pending hentry rfl ?_
      rintro rfl
      simp [lookup?_eq_some_iff.2 ⟨hentry, by simp⟩] at hlookup
  | populate k slot => exact h.tidy.entry_insert_of_pending hentry rfl hop
  | invalidate k => exact entry_invalidate.trans ((if_neg hop).trans hentry)
  | evictFailed k i =>
    refine entry_evictFailed.trans ?_
    by_cases hk : k = key
    · have hid : id ≠ i := fun hid => hop ⟨hk, hid.symm⟩
      simp [hk, hentry, Option.filter, hid]
    · rw [if_neg hk, hentry]
  | clear => exact absurd trivial hop
  | complete k i =>
    have hother : ¬(k = key ∧ id = i ∧ (!(⟨id, slot, none⟩ : CacheEntry α).isComplete) = true) :=
      fun hown => hop ⟨hown.1, hown.2.1.symm⟩
    refine entry_complete.trans ?_
    rw [hentry, Option.map_some, if_neg hother]
  | wait ms => exact hentry

theorem Agrees.stands_run (h : d.Agrees) (hstands : Stands d.history key ⟨id, slot, none⟩)
    (ops : List (CacheOperation κ α ω)) (hops : ∀ op ∈ ops, ¬op.Settles key id) :
    (d.run ops).Agrees ∧ Stands (d.run ops).history key ⟨id, slot, none⟩ := by
  induction ops generalizing d with
  | nil => exact ⟨h, hstands⟩
  | cons op ops ih =>
    exact ih (h.perform op) (h.stands_perform hstands (hops op List.mem_cons_self))
      fun op' hop' => hops op' (List.mem_cons_of_mem op hop')

/-! ## Answers -/

/-- What a lookup of a key comes to. -/
def answer (d : CacheRun κ α ω) (key : κ) (start : ω → α × ω) : Lookup α :=
  (d.cache.lookupOrInsert key d.now start d.world).1

/-- That a cache answers a key from its latest write. -/
structure AnswersLatest (ttl : Nat) (d : CacheRun κ α ω) (key : κ) : Prop where
  /-- A lookup is a hit if the latest write stands and was not completed too long ago, and only
  then. -/
  hit : ∀ start id slot, d.answer key start = .hit id slot ↔
    ∃ done, Stands d.history key ⟨id, slot, done⟩ ∧
      ∀ moment, done = some moment → d.now < moment + ttl
  /-- A hit starts nothing and changes nothing. -/
  unchanged : ∀ start id slot, d.answer key start = .hit id slot → d.perform (.lookup key start) = d
  /-- Any other lookup starts work, once, and its slot is the latest write from then on. -/
  started : ∀ start, (∀ id slot, d.answer key start ≠ .hit id slot) →
    ∃ id, d.answer key start = .started id (start d.world).1 ∧
      (d.perform (.lookup key start)).world = (start d.world).2 ∧
      Stands (d.perform (.lookup key start)).history key ⟨id, (start d.world).1, none⟩
  /-- While the latest write is pending, every lookup is a hit. -/
  shared : ∀ id slot, Stands d.history key ⟨id, slot, none⟩ →
    ∀ ops, (∀ op ∈ ops, ¬op.Settles key id) → ∀ start, (d.run ops).answer key start = .hit id slot
  /-- The completion of a replaced or removed write changes nothing. -/
  completion : ∀ id, (∀ e, Stands d.history key e → e.id ≠ id) →
    (d.perform (.complete key id)).cache = d.cache
  /-- The failure of a replaced or removed write removes nothing. -/
  failure : ∀ id, (∀ e, Stands d.history key e → e.id ≠ id) →
    (d.perform (.evictFailed key id)).cache = d.cache

theorem Agrees.answer_eq_hit_iff (h : d.Agrees) {start : ω → α × ω} :
    d.answer key start = .hit id slot ↔
      ∃ done, Stands d.history key ⟨id, slot, done⟩ ∧
        ∀ moment, done = some moment → d.now < moment + d.cache.ttl := by
  rw [answer, lookupOrInsert]
  cases hlookup : d.cache.lookup? key d.now with
  | some e =>
    obtain ⟨hentry, hfresh⟩ := lookup?_eq_some_iff.1 hlookup
    constructor
    · intro heq
      cases heq
      exact ⟨e.completed, (h.stands_iff _ _).1 hentry, hfresh⟩
    · rintro ⟨done, hstands, -⟩
      rw [(h.stands_iff _ _).2 hstands] at hentry
      obtain rfl := Option.some.inj hentry
      rfl
  | none =>
    refine iff_of_false (fun heq => by cases heq) ?_
    rintro ⟨done, hstands, hfresh⟩
    simp [lookup?_eq_some_iff.2 ⟨(h.stands_iff _ _).2 hstands, hfresh⟩] at hlookup

theorem Agrees.answersLatest (h : d.Agrees) (key : κ) : d.AnswersLatest d.cache.ttl key where
  hit _ _ _ := h.answer_eq_hit_iff
  unchanged start id slot hhit := by
    rw [answer, lookupOrInsert] at hhit
    rw [CacheRun.perform, lookupOrInsert]
    -- a hit leaves the cache as it is
    cases hlookup : d.cache.lookup? key d.now with
    | some e => rfl
    | none =>
      rw [hlookup] at hhit
      cases hhit
  started start hmiss := by
    have hstands := (h.perform (.lookup key start)).stands_iff key
      ⟨d.cache.lastId + 1, (start d.world).1, none⟩
    simp only [answer, CacheRun.perform, lookupOrInsert] at hmiss hstands ⊢
    cases hlookup : d.cache.lookup? key d.now with
    | some e =>
      rw [hlookup] at hmiss
      exact absurd rfl (hmiss e.id e.slot)
    | none =>
      rw [hlookup] at hstands
      refine ⟨d.cache.lastId + 1, rfl, rfl, hstands.1 ?_⟩
      have hkeys := (h.tidy.insert key (start d.world).1 none).keys
      exact (lookup_eq_some_iff_mem hkeys).2 (h.tidy.inserts key (start d.world).1 none).written
  shared id slot hstands ops hops start := by
    obtain ⟨hagrees, hlater⟩ := h.stands_run hstands ops hops
    exact hagrees.answer_eq_hit_iff.2 ⟨none, hlater, by simp⟩
  completion id hgone := h.tidy.complete_eq_self fun e hentry => hgone e ((h.stands_iff _ _).1 hentry)
  failure id hgone := evictFailed_eq_self fun e hentry => hgone e ((h.stands_iff _ _).1 hentry)

/-- **A cache answers from the latest write of the key, whatever has been done to it.** -/
theorem answersLatest_of_run (capacity ttl now : Nat) (world : ω)
    (ops : List (CacheOperation κ α ω)) (key : κ) :
    ((start capacity ttl now world).run ops).AnswersLatest ttl key := by
  have h := (agrees_run capacity ttl now world ops).answersLatest key
  rwa [ttl_run] at h

end CacheRun

end SqlClient
