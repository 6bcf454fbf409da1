import Mathlib.Computability.StateTransition
import SqlClient.Proofs.RequestCache.Runs
/-!
# Request caches — making room

A write that takes a cache beyond its capacity removes the oldest completed entry, and then the next
one, until there is room. `RequestCache.evictOnce` is one round of this. A cache goes through its
writes only once, which comes to the same, since the removal of an entry settles no earlier write.

Pending entries are never removed, so a cache may stay beyond its capacity. What is left of removed
entries in the order of the writes does no harm: such a write is neither live nor settled, and it is
forgotten when there are too many of them.
-/

namespace SqlClient

variable {κ α ω : Type} [DecidableEq κ]

namespace RequestCache

/-! ## Entries and writes -/

section Writes

variable {entries : List (κ × CacheEntry α)} {key : κ} {e : CacheEntry α} {w : κ × Nat}

theorem mem_eraseEntry {v : κ × CacheEntry α} :
    v ∈ eraseEntry key entries ↔ v ∈ entries ∧ v.1 ≠ key := by
  simp [eraseEntry]

theorem nodup_eraseEntry (hkeys : (entries.map Prod.fst).Nodup) (key : κ) :
    ((eraseEntry key entries).map Prod.fst).Nodup :=
  hkeys.sublist (List.filter_sublist.map _)

/-- Removing a key that is there removes one entry. -/
theorem length_eraseEntry (hkeys : (entries.map Prod.fst).Nodup) (hmem : (key, e) ∈ entries) :
    (eraseEntry key entries).length + 1 = entries.length := by
  induction entries with
  | nil => cases hmem
  | cons v entries ih =>
    obtain ⟨hv, hkeys⟩ := List.nodup_cons.1 hkeys
    by_cases hkey : v.1 = key
    · have hall : eraseEntry key entries = entries := by
        refine List.filter_eq_self.2 fun u hu => ?_
        have hne : u.1 ≠ key := by
          rintro hu'
          exact hv (List.mem_map.2 ⟨u, hu, hu'.trans hkey.symm⟩)
        simpa using hne
      rw [eraseEntry, List.filter_cons_of_neg (by simpa using hkey)]
      exact congrArg (List.length · + 1) hall
    · have hrest : (key, e) ∈ entries := by
        rcases List.mem_cons.1 hmem with rfl | hrest
        · exact absurd rfl hkey
        · exact hrest
      rw [eraseEntry, List.filter_cons_of_pos (by simpa using hkey), List.length_cons,
        List.length_cons]
      exact congrArg (· + 1) (ih hkeys hrest)

theorem any_lookup_iff (hkeys : (entries.map Prod.fst).Nodup) (p : CacheEntry α → Bool) :
    (entries.lookup key).any p = true ↔ ∃ e, (key, e) ∈ entries ∧ p e = true := by
  rw [Option.any_eq_true]
  exact exists_congr fun e => and_congr_left fun _ => lookup_eq_some_iff_mem hkeys

theorem isLive_iff (hkeys : (entries.map Prod.fst).Nodup) :
    isLive entries w = true ↔ ∃ e, (w.1, e) ∈ entries ∧ e.id = w.2 := by
  have hany : isLive entries w = (entries.lookup w.1).any (·.id == w.2) := by
    rw [isLive]
    cases entries.lookup w.1 <;> rfl
  simp [hany, any_lookup_iff hkeys]

theorem isSettled_iff (hkeys : (entries.map Prod.fst).Nodup) :
    isSettled entries w = true ↔
      ∃ e, (w.1, e) ∈ entries ∧ e.id = w.2 ∧ e.isComplete = true := by
  have hany : isSettled entries w =
      (entries.lookup w.1).any fun e => e.id == w.2 && e.isComplete := by
    rw [isSettled]
    cases entries.lookup w.1 <;> rfl
  simp [hany, any_lookup_iff hkeys]

/-- The removal of an entry settles no write. -/
theorem isSettled_of_eraseEntry (hkeys : (entries.map Prod.fst).Nodup)
    (h : isSettled (eraseEntry key entries) w = true) : isSettled entries w = true := by
  obtain ⟨e, hmem, hsettled⟩ := (isSettled_iff (nodup_eraseEntry hkeys key)).1 h
  exact (isSettled_iff hkeys).2 ⟨e, (mem_eraseEntry.1 hmem).1, hsettled⟩

end Writes

/-! ## What is evicted -/

section MakeRoom

variable {newest excess : Nat} {order order' : List (κ × Nat)}
  {entries entries' : List (κ × CacheEntry α)}

/-- How one pass over the writes makes room. -/
structure Evicts (newest excess : Nat) (order : List (κ × Nat)) (entries : List (κ × CacheEntry α))
    (order' : List (κ × Nat)) (entries' : List (κ × CacheEntry α)) : Prop where
  writes : order'.Sublist order
  remaining : entries'.Sublist entries
  /-- The writes of what is left are left. -/
  listed : ∀ v ∈ entries', (v.1, v.2.id) ∈ order → (v.1, v.2.id) ∈ order'
  /-- What is removed was complete, and not the newest. -/
  complete : ∀ v ∈ entries, v ∉ entries' → v.2.isComplete = true ∧ v.2.id ≠ newest
  /-- What is removed was written before whatever could have been removed as well. -/
  oldest : ∀ v ∈ entries, v ∉ entries' → ∀ u ∈ entries', (u.1, u.2.id) ∈ order →
    u.2.isComplete = true → u.2.id ≠ newest → v.2.id < u.2.id
  /-- No more is removed than asked for. -/
  few : entries.length ≤ entries'.length + excess
  /-- As much is removed as asked for, unless nothing is left that can be. -/
  enough : entries'.length + excess = entries.length ∨
    ∀ u ∈ entries', (u.1, u.2.id) ∈ order → u.2.isComplete = true → u.2.id = newest

omit [DecidableEq κ] in
/-- Nothing is asked for, or there are no writes. -/
theorem Evicts.nothing (h : excess = 0 ∨ order = []) :
    Evicts newest excess order entries order entries where
  writes := .refl _
  remaining := .refl _
  listed _ _ hlisted := hlisted
  complete _ hmem hout := absurd hmem hout
  oldest _ hmem hout := absurd hmem hout
  few := Nat.le_add_right _ _
  enough := by
    rcases h with rfl | rfl
    · exact .inl rfl
    · exact .inr fun _ _ hlisted => absurd hlisted List.not_mem_nil

/-- The first write can be removed. -/
theorem Evicts.removed {w : κ × Nat} {e : CacheEntry α} (hkeys : (entries.map Prod.fst).Nodup)
    (hfirst : ∀ u ∈ order, w.2 < u.2) (hmem : (w.1, e) ∈ entries) (hid : e.id = w.2)
    (hcomplete : e.isComplete = true) (hnewest : w.2 ≠ newest)
    (h : Evicts newest excess order (eraseEntry w.1 entries) order' entries') :
    Evicts newest (excess + 1) (w :: order) entries order' entries' := by
  have hlen := length_eraseEntry hkeys hmem
  have htail : ∀ u ∈ entries', (u.1, u.2.id) ∈ w :: order → (u.1, u.2.id) ∈ order := by
    intro u hu hlisted
    have hne := (mem_eraseEntry.1 (h.remaining.subset hu)).2
    rcases List.mem_cons.1 hlisted with heq | hlisted
    · exact absurd (congrArg Prod.fst heq) hne
    · exact hlisted
  -- what is gone in the end is this entry, or was gone among the others
  have hgone : ∀ v ∈ entries, v ∉ entries' → v = (w.1, e) ∨ v ∈ eraseEntry w.1 entries := by
    intro v hv _
    by_cases hkey : v.1 = w.1
    · have hsame := (lookup_eq_some_iff_mem hkeys).2 hv
      rw [hkey, (lookup_eq_some_iff_mem hkeys).2 hmem] at hsame
      exact .inl (Prod.ext hkey (Option.some.inj hsame).symm)
    · exact .inr (mem_eraseEntry.2 ⟨hv, hkey⟩)
  refine ⟨h.writes.cons w, h.remaining.trans List.filter_sublist, ?_, ?_, ?_, ?_, ?_⟩
  · exact fun u hu hlisted => h.listed u hu (htail u hu hlisted)
  · intro v hv hout
    rcases hgone v hv hout with rfl | hv
    · exact ⟨hcomplete, hid ▸ hnewest⟩
    · exact h.complete v hv hout
  · intro v hv hout u hu hlisted hdone hold
    rcases hgone v hv hout with rfl | hv
    · exact hid ▸ hfirst _ (htail u hu hlisted)
    · exact h.oldest v hv hout u hu (htail u hu hlisted) hdone hold
  · have hfew := h.few
    omega
  · rcases h.enough with henough | hnone
    · exact .inl (by omega)
    · exact .inr fun u hu hlisted => hnone u hu (htail u hu hlisted)

/-- The first write cannot be removed. -/
theorem Evicts.kept {w : κ × Nat} (hkeys : (entries.map Prod.fst).Nodup)
    (hw : ¬(w.2 ≠ newest ∧ isSettled entries w = true))
    (h : Evicts newest excess order entries order' entries') :
    Evicts newest excess (w :: order) entries (w :: order') entries' := by
  have htail : ∀ u ∈ entries', (u.1, u.2.id) ∈ w :: order → u.2.isComplete = true →
      u.2.id ≠ newest → (u.1, u.2.id) ∈ order := by
    intro u hu hlisted hdone hold
    rcases List.mem_cons.1 hlisted with rfl | hlisted
    · exact absurd ⟨hold, (isSettled_iff hkeys).2 ⟨u.2, h.remaining.subset hu, rfl, hdone⟩⟩ hw
    · exact hlisted
  refine ⟨h.writes.cons_cons w, h.remaining, ?_, h.complete, ?_, h.few, ?_⟩
  · intro u hu hlisted
    rcases List.mem_cons.1 hlisted with heq | hlisted
    · exact List.mem_cons.2 (.inl heq)
    · exact List.mem_cons_of_mem _ (h.listed u hu hlisted)
  · exact fun v hv hout u hu hlisted hdone hold =>
      h.oldest v hv hout u hu (htail u hu hlisted hdone hold) hdone hold
  · rcases h.enough with henough | hnone
    · exact .inl henough
    · refine .inr fun u hu hlisted hdone => ?_
      by_contra hold
      exact hold (hnone u hu (htail u hu hlisted hdone hold) hdone)

theorem evicts_makeRoom (hkeys : (entries.map Prod.fst).Nodup)
    (horder : (order.map Prod.snd).Pairwise (· < ·)) :
    Evicts newest excess order entries (makeRoom newest excess order entries).1
      (makeRoom newest excess order entries).2 := by
  fun_induction makeRoom newest excess order entries with
  | case1 => exact .nothing (.inl rfl)
  | case2 => exact .nothing (.inr rfl)
  | case3 excess w order entries hw ih =>
    obtain ⟨hfirst, horder⟩ := List.pairwise_cons.1 horder
    obtain ⟨hnewest, hsettled⟩ := hw
    obtain ⟨e, hmem, hid, hcomplete⟩ := (isSettled_iff hkeys).1 hsettled
    exact .removed hkeys (fun u hu => hfirst _ (List.mem_map_of_mem hu)) hmem hid hcomplete hnewest
      (ih (nodup_eraseEntry hkeys _) horder)
  | case4 excess w order entries hw order' entries' hroom ih =>
    rw [hroom] at ih
    exact .kept hkeys hw (ih hkeys (List.pairwise_cons.1 horder).2)

/-! ## One round after another -/

/-- One round of making room: if there are too many entries, the first write that is complete and
not the newest goes, with its entry. -/
def evictOnce (newest capacity : Nat) :
    List (κ × Nat) × List (κ × CacheEntry α) → Option (List (κ × Nat) × List (κ × CacheEntry α))
  | (order, entries) => do
    guard (capacity < entries.length)
    let pos ← order.findIdx? fun w => w.2 != newest && isSettled entries w
    let w ← order[pos]?
    return (order.eraseIdx pos, eraseEntry w.1 entries)

theorem evictOnce_eq_none {capacity : Nat}
    (h : entries.length ≤ capacity ∨ ∀ w ∈ order, ¬(w.2 ≠ newest ∧ isSettled entries w = true)) :
    evictOnce newest capacity (order, entries) = none := by
  rw [evictOnce]
  by_cases hlen : capacity < entries.length
  · have hnone : order.findIdx? (fun w => w.2 != newest && isSettled entries w) = none := by
      rw [List.findIdx?_eq_none_iff]
      intro w hw
      have := (h.resolve_left (by omega)) w hw
      simpa [and_comm] using this
    simp [hnone]
  · simp [guard, hlen]

/-- The first write that can be removed stands after some that cannot. -/
theorem evictOnce_append {capacity : Nat} {before : List (κ × Nat)} {w : κ × Nat}
    (hlen : capacity < entries.length)
    (hbefore : ∀ u ∈ before, ¬(u.2 ≠ newest ∧ isSettled entries u = true))
    (hw : w.2 ≠ newest ∧ isSettled entries w = true) :
    evictOnce newest capacity (before ++ w :: order, entries) =
      some (before ++ order, eraseEntry w.1 entries) := by
  have hpos : (before ++ w :: order).findIdx? (fun w => w.2 != newest && isSettled entries w) =
      some before.length := by
    rw [List.findIdx?_append, List.findIdx?_eq_none_iff.2, List.findIdx?_cons]
    · simp [hw]
    · intro u hu
      have := hbefore u hu
      simpa [and_comm] using this
  have herase : (before ++ w :: order).eraseIdx before.length = before ++ order := by
    rw [List.eraseIdx_append_of_length_le le_rfl, Nat.sub_self, List.eraseIdx_cons_zero]
  simp [evictOnce, hlen, hpos, herase]

/-- **A pass over the writes comes to the same as one round after another.** -/
theorem makeRoom_mem_eval {capacity : Nat} (before : List (κ × Nat))
    (hexcess : excess = entries.length - capacity) (hkeys : (entries.map Prod.fst).Nodup)
    (hbefore : ∀ u ∈ before, ¬(u.2 ≠ newest ∧ isSettled entries u = true)) :
    (before ++ (makeRoom newest excess order entries).1, (makeRoom newest excess order entries).2) ∈
      StateTransition.eval (evictOnce newest capacity) (before ++ order, entries) := by
  rw [StateTransition.mem_eval]
  fun_induction makeRoom newest excess order entries generalizing before with
  | case1 order entries => exact ⟨.refl, evictOnce_eq_none (.inl (Nat.sub_eq_zero_iff_le.1 hexcess.symm))⟩
  | case2 excess entries =>
    exact ⟨.refl, evictOnce_eq_none (.inr (by simpa using hbefore))⟩
  | case3 excess w order entries hw ih =>
    obtain ⟨e, hmem, -⟩ := (isSettled_iff hkeys).1 hw.2
    have hlen := length_eraseEntry hkeys hmem
    obtain ⟨hreaches, hends⟩ := ih before (by omega) (nodup_eraseEntry hkeys _) fun u hu hsettled =>
      hbefore u hu ⟨hsettled.1, isSettled_of_eraseEntry hkeys hsettled.2⟩
    have hround : evictOnce newest capacity (before ++ w :: order, entries) =
        some (before ++ order, eraseEntry w.1 entries) :=
      evictOnce_append (by omega) hbefore hw
    exact ⟨hreaches.head hround, hends⟩
  | case4 excess w order entries hw order' entries' hroom ih =>
    have hnext := ih (before ++ [w]) hexcess hkeys fun u hu => by
      rcases List.mem_append.1 hu with hu | hu
      · exact hbefore u hu
      · rwa [List.mem_singleton.1 hu]
    simpa [hroom] using hnext

end MakeRoom

/-! ## Tidy caches -/

variable {c : RequestCache κ α} {key : κ} {slot : α} {completed : Option Nat}

/-- Keys are not repeated, writes are in order, and those of the live entries are there. -/
structure Tidy (c : RequestCache κ α) : Prop where
  keys : (c.entries.map Prod.fst).Nodup
  ascending : (c.order.map Prod.snd).Pairwise (· < ·)
  bounded : ∀ w ∈ c.order, w.2 ≤ c.lastId
  listed : ∀ v ∈ c.entries, (v.1, v.2.id) ∈ c.order

omit [DecidableEq κ] in
theorem tidy_empty (capacity ttl : Nat) : (empty capacity ttl : RequestCache κ α).Tidy :=
  ⟨.nil, .nil, by simp [empty], by simp [empty]⟩

omit [DecidableEq κ] in
theorem Tidy.nodup (h : c.Tidy) : c.order.Nodup :=
  List.Nodup.of_map Prod.snd (h.ascending.imp ne_of_lt)

theorem Tidy.invalidate (h : c.Tidy) (key : κ) : (c.invalidate key).Tidy :=
  ⟨nodup_eraseEntry h.keys key, h.ascending, h.bounded,
    fun v hv => h.listed v (mem_eraseEntry.1 hv).1⟩

omit [DecidableEq κ] in
theorem tidy_clear (c : RequestCache κ α) : c.clear.Tidy :=
  ⟨.nil, .nil, by simp [RequestCache.clear], by simp [RequestCache.clear]⟩

theorem Tidy.complete (h : c.Tidy) (key : κ) (id now : Nat) : (c.complete key id now).Tidy := by
  have hkeys : (c.complete key id now).entries.map Prod.fst = c.entries.map Prod.fst := by
    simp [RequestCache.complete, Function.comp_def]
  refine ⟨hkeys ▸ h.keys, h.ascending, h.bounded, fun v hv => ?_⟩
  obtain ⟨u, hu, rfl⟩ := List.mem_map.1 hv
  have hid := h.listed u hu
  dsimp only
  split <;> exact hid

/-! ## One insertion -/

/-- The writes of a cache with one more. -/
def orderWith (c : RequestCache κ α) (key : κ) : List (κ × Nat) := c.order ++ [(key, c.lastId + 1)]

/-- The writes and entries of a cache once there is room for a write. -/
def roomFor (c : RequestCache κ α) (key : κ) (slot : α) (completed : Option Nat) :
    List (κ × Nat) × List (κ × CacheEntry α) :=
  makeRoom (c.lastId + 1) ((c.withWrite key slot completed).length - c.capacity) (c.orderWith key)
    (c.withWrite key slot completed)

theorem entries_insert :
    (c.insert key slot completed).2.entries = (c.roomFor key slot completed).2 := by
  rw [insert, entries_trim]
  rfl

theorem order_trim (c : RequestCache κ α) :
    c.trim.order =
      if 2 * c.capacity < c.order.length then c.order.filter (isLive c.entries) else c.order := by
  rw [trim]
  split <;> rfl

theorem order_insert :
    (c.insert key slot completed).2.order =
      if 2 * c.capacity < (c.roomFor key slot completed).1.length then
        (c.roomFor key slot completed).1.filter (isLive (c.roomFor key slot completed).2)
      else (c.roomFor key slot completed).1 := by
  rw [insert, order_trim]
  rfl

theorem lastId_insert : (c.insert key slot completed).2.lastId = c.lastId + 1 := by
  simp only [insert, trim]
  split <;> rfl

@[simp] theorem capacity_insert : (c.insert key slot completed).2.capacity = c.capacity := by
  simp only [insert, trim]
  split <;> rfl

@[simp] theorem ttl_insert : (c.insert key slot completed).2.ttl = c.ttl := by
  simp only [insert, trim]
  split <;> rfl

/-- What an insertion does to a cache. -/
structure Inserts (c : RequestCache κ α) (key : κ) (slot : α) (completed : Option Nat) : Prop where
  /-- It ends, having removed one entry after another for as long as there were too many. -/
  ends : ∃ order, (order, (c.insert key slot completed).2.entries) ∈
      StateTransition.eval (evictOnce (c.lastId + 1) c.capacity)
        (c.orderWith key, c.withWrite key slot completed) ∧
    (c.insert key slot completed).2.order =
      if 2 * c.capacity < order.length then
        order.filter (isLive (c.insert key slot completed).2.entries)
      else order
  /-- The cache is back at its capacity, or nothing but the new entry is complete. -/
  room : (c.insert key slot completed).2.size ≤ c.capacity ∨
    ∀ v ∈ (c.insert key slot completed).2.entries, v.2.id ≠ c.lastId + 1 →
      v.2.isComplete = false
  /-- The new entry is there. -/
  written : (key, ⟨c.lastId + 1, slot, completed⟩) ∈ (c.insert key slot completed).2.entries
  /-- The other entries were there before. -/
  remaining : (c.insert key slot completed).2.entries.Sublist (c.withWrite key slot completed)
  /-- What has been evicted was complete, and written before all complete entries that are left. -/
  evicted : ∀ v ∈ c.withWrite key slot completed,
    v ∉ (c.insert key slot completed).2.entries → v.2.isComplete = true ∧
      ∀ u ∈ (c.insert key slot completed).2.entries, u.2.isComplete = true → v.2.id < u.2.id
  /-- No more has been evicted than was necessary. -/
  few : (c.withWrite key slot completed).length - (c.insert key slot completed).2.size ≤
    (c.withWrite key slot completed).length - c.capacity
  /-- What is remembered of the writes is bounded. -/
  order : (c.insert key slot completed).2.order.length ≤
    max (2 * c.capacity) (c.insert key slot completed).2.size

/-- That a cache knows what it has to evict. -/
structure MakesRoom (c : RequestCache κ α) : Prop where
  /-- The writes stand in their order. -/
  ascending : (c.order.map Prod.snd).Pairwise (· < ·)
  /-- Each live entry is one of them, and only once. -/
  counted : ∀ v ∈ c.entries, c.order.count (v.1, v.2.id) = 1
  /-- Whatever is inserted next, it gets its room. -/
  inserts : ∀ key slot completed, c.Inserts key slot completed

section Insertion

variable (h : c.Tidy)
include h

theorem Tidy.nodup_withWrite (key : κ) (slot : α) (completed : Option Nat) :
    ((c.withWrite key slot completed).map Prod.fst).Nodup := by
  rw [withWrite, List.map_append, List.nodup_append]
  refine ⟨nodup_eraseEntry h.keys key, by simp, ?_⟩
  rintro k hk k' hk' rfl
  obtain ⟨v, hv, rfl⟩ := List.mem_map.1 hk
  exact (mem_eraseEntry.1 hv).2 (by simpa using hk')

omit [DecidableEq κ] in
theorem Tidy.ascending_orderWith (key : κ) : ((c.orderWith key).map Prod.snd).Pairwise (· < ·) := by
  rw [orderWith, List.map_append, List.pairwise_append]
  refine ⟨h.ascending, by simp, ?_⟩
  intro id hid id' hid'
  obtain ⟨w, hw, rfl⟩ := List.mem_map.1 hid
  have hle := h.bounded w hw
  have heq : id' = c.lastId + 1 := by simpa using hid'
  omega

theorem Tidy.listed_withWrite (key : κ) (slot : α) (completed : Option Nat) :
    ∀ v ∈ c.withWrite key slot completed, (v.1, v.2.id) ∈ c.orderWith key := by
  intro v hv
  rcases List.mem_append.1 hv with hv | hv
  · exact List.mem_append_left _ (h.listed v (mem_eraseEntry.1 hv).1)
  · rw [List.mem_singleton.1 hv]
    exact List.mem_append_right _ (List.mem_singleton_self _)

theorem Tidy.evicts (key : κ) (slot : α) (completed : Option Nat) :
    Evicts (c.lastId + 1) ((c.withWrite key slot completed).length - c.capacity) (c.orderWith key)
      (c.withWrite key slot completed) (c.roomFor key slot completed).1
      (c.roomFor key slot completed).2 :=
  evicts_makeRoom (h.nodup_withWrite key slot completed) (h.ascending_orderWith key)

/-- **An insertion leaves a tidy cache tidy.** -/
theorem Tidy.insert (key : κ) (slot : α) (completed : Option Nat) :
    (c.insert key slot completed).2.Tidy := by
  have hroom := h.evicts key slot completed
  have hkeys := (h.nodup_withWrite key slot completed).sublist (hroom.remaining.map _)
  have hsub : (c.insert key slot completed).2.order.Sublist (c.orderWith key) := by
    rw [order_insert]
    split
    · exact List.filter_sublist.trans hroom.writes
    · exact hroom.writes
  refine ⟨entries_insert (c := c) ▸ hkeys, (h.ascending_orderWith key).sublist (hsub.map _), ?_, ?_⟩
  · intro w hw
    rw [lastId_insert]
    rcases List.mem_append.1 (hsub.subset hw) with hw | hw
    · exact (h.bounded w hw).trans (Nat.le_succ _)
    · rw [List.mem_singleton.1 hw]
  · intro v hv
    rw [entries_insert] at hv
    have hlisted := hroom.listed v hv
      (h.listed_withWrite key slot completed v (hroom.remaining.subset hv))
    rw [order_insert]
    split
    · exact List.mem_filter.2 ⟨hlisted, (isLive_iff hkeys).2 ⟨v.2, hv, rfl⟩⟩
    · exact hlisted

omit h in
/-- There are at most as many live writes as entries. -/
theorem length_filter_isLive_le {entries : List (κ × CacheEntry α)} {order : List (κ × Nat)}
    (hkeys : (entries.map Prod.fst).Nodup) (horder : order.Nodup) :
    (order.filter (isLive entries)).length ≤ entries.length := by
  have hsub : order.filter (isLive entries) ⊆ entries.map fun v => (v.1, v.2.id) := by
    intro w hw
    obtain ⟨e, hmem, hid⟩ := (isLive_iff hkeys).1 (List.mem_filter.1 hw).2
    exact List.mem_map.2 ⟨_, hmem, Prod.ext rfl hid⟩
  calc (order.filter (isLive entries)).length
      ≤ (entries.map fun v => (v.1, v.2.id)).length :=
        (List.Nodup.subperm (horder.filter _) hsub).length_le
    _ = entries.length := List.length_map _

/-- **An insertion evicts the oldest of what is complete, and no more than it must.** -/
theorem Tidy.inserts (key : κ) (slot : α) (completed : Option Nat) :
    c.Inserts key slot completed := by
  have hroom := h.evicts key slot completed
  have hkeys := h.nodup_withWrite key slot completed
  have hlisted : ∀ v ∈ (c.roomFor key slot completed).2, (v.1, v.2.id) ∈ c.orderWith key :=
    fun v hv => h.listed_withWrite key slot completed v (hroom.remaining.subset hv)
  -- the entry that is written is never evicted, so whatever is has an earlier id
  have hgone : ∀ v ∈ c.withWrite key slot completed, v ∉ (c.roomFor key slot completed).2 →
      v.2.id < c.lastId + 1 := by
    intro v hv hout
    have hne := (hroom.complete v hv hout).2
    rcases List.mem_append.1 (h.listed_withWrite key slot completed v hv) with hlist | hlist
    · exact Nat.lt_succ_of_le (h.bounded _ hlist)
    · exact absurd (congrArg Prod.snd (List.mem_singleton.1 hlist)) hne
  constructor
  case ends =>
    refine ⟨(c.roomFor key slot completed).1, ?_, by rw [order_insert, entries_insert]⟩
    rw [entries_insert]
    exact makeRoom_mem_eval [] rfl hkeys (by simp)
  case room =>
    rw [size, entries_insert]
    rcases hroom.enough with henough | hnone
    · exact .inl (by omega)
    · refine .inr fun v hv hne => ?_
      by_contra hdone
      exact hne (hnone v hv (hlisted v hv) (by simpa using hdone))
  case written =>
    rw [entries_insert]
    by_contra hout
    have hmem : (key, ⟨c.lastId + 1, slot, completed⟩) ∈ c.withWrite key slot completed :=
      List.mem_append_right _ (List.mem_singleton_self _)
    exact absurd rfl (hroom.complete _ hmem hout).2
  case remaining =>
    rw [entries_insert]
    exact hroom.remaining
  case evicted =>
    rw [entries_insert]
    intro v hv hout
    refine ⟨(hroom.complete v hv hout).1, fun u hu hdone => ?_⟩
    by_cases hnew : u.2.id = c.lastId + 1
    · exact hnew ▸ hgone v hv hout
    · exact hroom.oldest v hv hout u hu (hlisted u hu) hdone hnew
  case few =>
    rw [size, entries_insert]
    have hfew := hroom.few
    omega
  case order =>
    have hnodup : (c.roomFor key slot completed).1.Nodup :=
      (List.Nodup.of_map Prod.snd ((h.ascending_orderWith key).imp ne_of_lt)).sublist hroom.writes
    rw [size, order_insert, entries_insert]
    split
    · exact (length_filter_isLive_le (hkeys.sublist (hroom.remaining.map _)) hnodup).trans
        (le_max_right _ _)
    · exact (Nat.le_of_not_lt ‹_›).trans (le_max_left _ _)

end Insertion

end RequestCache

namespace CacheRun

open RequestCache

theorem tidy_perform {d : CacheRun κ α ω} (h : d.cache.Tidy) (op : CacheOperation κ α ω) :
    (d.perform op).cache.Tidy :=
  d.cache_perform op h h.insert h.invalidate (tidy_clear _) h.complete

theorem tidy_run (capacity ttl now : Nat) (world : ω) (ops : List (CacheOperation κ α ω)) :
    ((start capacity ttl now world).run ops).cache.Tidy :=
  run_keeps (I := fun d => d.cache.Tidy) (tidy_empty capacity ttl) (fun _ op h => tidy_perform h op)
    ops

theorem capacity_run (capacity ttl now : Nat) (world : ω) (ops : List (CacheOperation κ α ω)) :
    ((start capacity ttl now world).run ops).cache.capacity = max capacity 1 :=
  run_keeps (I := fun d => d.cache.capacity = max capacity 1) rfl
    (fun d op h => d.cache_perform op (I := fun c => c.capacity = max capacity 1) h
      (fun _ _ _ => capacity_insert.trans h) (fun _ => h) h fun _ _ _ => h) ops

/-- **Making room is sound, whatever has been done to the cache.** The writes stand in their order,
each live entry is counted among them exactly once, and the next insertion, of whatever key, ends and
evicts what it should. -/
theorem makesRoom_of_run (capacity ttl now : Nat) (world : ω) (ops : List (CacheOperation κ α ω)) :
    ((start capacity ttl now world).run ops).cache.capacity = max capacity 1 ∧
      ((start capacity ttl now world).run ops).cache.MakesRoom := by
  have h := tidy_run capacity ttl now world ops
  refine ⟨capacity_run capacity ttl now world ops, h.ascending, fun v hv => ?_, h.inserts⟩
  exact List.count_eq_one_of_mem h.nodup (h.listed v hv)

/-- A cache for two keeps what is pending, and the first of what is complete makes room. -/
example :
    ((start 2 10 0 () : CacheRun Nat Nat Unit).run
      [.lookup 0 fun _ => (0, ()), .populate 1 1, .populate 2 2, .populate 3 3]).cache.entries.map
        Prod.fst = [0, 3] := by
  decide

end CacheRun

end SqlClient
