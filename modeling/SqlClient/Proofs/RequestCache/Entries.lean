import Mathlib.Data.List.Basic
import SqlClient.Proofs.Lists
import SqlClient.Resolver.Cache
/-!
# Request caches — entries

What the operations of a cache do to its entries, one lemma for each: who is still there, who is
answered, and from which slot.
-/

namespace SqlClient

namespace RequestCache

variable {κ α : Type} [DecidableEq κ] {c : RequestCache κ α} {key k : κ} {slot : α}
  {completed : Option Nat} {e : CacheEntry α} {id now : Nat}

/-! ## Removing -/

theorem lookup_eraseEntry_of_ne (h : k ≠ key) (entries : List (κ × CacheEntry α)) :
    (eraseEntry key entries).lookup k = entries.lookup k :=
  lookup_filter_of_ne h entries

theorem lookup_eraseEntry_self (key : κ) (entries : List (κ × CacheEntry α)) :
    (eraseEntry key entries).lookup key = none :=
  lookup_filter_self key entries

/-! ## Writing -/

theorem sublist_makeRoom (newest excess : Nat) (order : List (κ × Nat))
    (entries : List (κ × CacheEntry α)) :
    (makeRoom newest excess order entries).2.Sublist entries := by
  fun_induction makeRoom newest excess order entries with
  | case1 => exact .refl _
  | case2 => exact .refl _
  | case3 excess w order entries _ ih => exact ih.trans List.filter_sublist
  | case4 excess w order entries _ order' entries' hroom ih => rwa [hroom] at ih

@[simp] theorem entries_trim : c.trim.entries = c.entries := by
  rw [trim]
  split <;> rfl

/-- A write adds one entry and may remove others. -/
theorem mem_insert {w : κ × CacheEntry α} (h : w ∈ (c.insert key slot completed).2.entries) :
    w ∈ c.entries ∨ w = (key, ⟨c.lastId + 1, slot, completed⟩) := by
  simp only [insert, entries_trim] at h
  have hmem := (sublist_makeRoom _ _ _ _).subset h
  rcases List.mem_append.1 hmem with hmem | hmem
  · exact .inl (List.mem_of_mem_filter hmem)
  · exact .inr (List.mem_singleton.1 hmem)

theorem mem_complete (h : (k, e) ∈ (c.complete key id now).entries) :
    ∃ e', (k, e') ∈ c.entries ∧ e'.slot = e.slot := by
  obtain ⟨⟨k', e'⟩, hmem, heq⟩ := List.mem_map.1 h
  obtain ⟨rfl, rfl⟩ := Prod.mk.inj heq
  refine ⟨e', hmem, ?_⟩
  split <;> rfl

theorem mem_invalidate {w : κ × CacheEntry α} (h : w ∈ (c.invalidate key).entries) :
    w ∈ c.entries :=
  List.mem_of_mem_filter h

theorem mem_evictFailed {w : κ × CacheEntry α} (h : w ∈ (c.evictFailed key id).entries) :
    w ∈ c.entries := by
  rw [evictFailed] at h
  split at h
  · exact mem_invalidate h
  · exact h

theorem mem_of_lookup? (h : c.lookup? key now = some e) : (key, e) ∈ c.entries := by
  obtain ⟨h, -⟩ := Option.filter_eq_some_iff.1 h
  obtain ⟨l, l', hl, -⟩ := List.lookup_eq_some_iff.1 h
  rw [hl]
  simp

/-- The newest write is not removed to make room. -/
theorem lookup_makeRoom {newest excess : Nat} {order : List (κ × Nat)}
    {entries : List (κ × CacheEntry α)} (h : entries.lookup key = some e) (hid : e.id = newest) :
    (makeRoom newest excess order entries).2.lookup key = some e := by
  fun_induction makeRoom newest excess order entries with
  | case1 => exact h
  | case2 => exact h
  | case3 excess w order entries hw ih =>
    refine ih ?_
    have hne : key ≠ w.1 := by
      rintro rfl
      rw [isSettled, h] at hw
      simp only [Bool.and_eq_true, beq_iff_eq] at hw
      exact hw.1 (hw.2.1.symm.trans hid)
    rwa [lookup_eraseEntry_of_ne hne]
  | case4 excess w order entries _ order' entries' hroom ih =>
    rw [hroom] at ih
    exact ih h

/-- Making room takes entries away and changes none. -/
theorem lookup_of_lookup_makeRoom {newest excess : Nat} {order : List (κ × Nat)}
    {entries : List (κ × CacheEntry α)}
    (h : (makeRoom newest excess order entries).2.lookup k = some e) : entries.lookup k = some e := by
  fun_induction makeRoom newest excess order entries with
  | case1 => exact h
  | case2 => exact h
  | case3 excess w order entries _ ih =>
    have herased := ih h
    by_cases hk : k = w.1
    · rw [hk, lookup_eraseEntry_self] at herased
      cases herased
    · rwa [lookup_eraseEntry_of_ne hk] at herased
  | case4 excess w order entries _ order' entries' hroom ih =>
    rw [hroom] at ih
    exact ih h

/-- After a write a key has the entry that it had, or the one that was written. -/
theorem lookup_of_lookup_insert (h : (c.insert key slot completed).2.entries.lookup k = some e) :
    c.entries.lookup k = some e ∨ k = key ∧ e = ⟨c.lastId + 1, slot, completed⟩ := by
  simp only [insert, entries_trim] at h
  have hwritten := lookup_of_lookup_makeRoom h
  rw [List.lookup_append] at hwritten
  by_cases hk : k = key
  · rw [hk, lookup_eraseEntry_self] at hwritten
    exact .inr ⟨hk, by simpa using hwritten.symm⟩
  · rw [lookup_eraseEntry_of_ne hk] at hwritten
    have hbeq : (k == key) = false := by simpa using hk
    exact .inl (by simpa [List.lookup_cons, hbeq] using hwritten)

/-- **What is written is answered** for as long as it is pending. -/
theorem lookup?_insert (c : RequestCache κ α) (key : κ) (slot : α) (now : Nat) :
    (c.insert key slot none).2.lookup? key now = some ⟨c.lastId + 1, slot, none⟩ := by
  have hentry : (c.insert key slot none).2.entries.lookup key = some ⟨c.lastId + 1, slot, none⟩ := by
    simp only [insert, entries_trim]
    refine lookup_makeRoom ?_ rfl
    rw [List.lookup_append, lookup_eraseEntry_self]
    simp
  change Option.filter _ ((c.insert key slot none).2.entries.lookup key) = _
  rw [hentry]
  rfl

theorem lookup_complete (c : RequestCache κ α) :
    ((c.complete key id now).entries.lookup k).isSome = (c.entries.lookup k).isSome := by
  rw [Bool.eq_iff_iff, List.lookup_isSome_iff, List.lookup_isSome_iff]
  simp [complete]

theorem lookup_evictFailed_of_ne (h : k ≠ key) :
    ((c.evictFailed key id).entries.lookup k) = c.entries.lookup k := by
  rw [evictFailed]
  split
  · exact lookup_eraseEntry_of_ne h _
  · rfl

theorem isSome_lookup_of_lookup? (h : (c.lookup? k now).isSome = true) :
    (c.entries.lookup k).isSome = true := by
  obtain ⟨e, he⟩ := Option.isSome_iff_exists.1 h
  obtain ⟨he, -⟩ := Option.filter_eq_some_iff.1 he
  exact Option.isSome_iff_exists.2 ⟨e, he⟩

end RequestCache

end SqlClient
