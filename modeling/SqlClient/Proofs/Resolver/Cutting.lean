import Mathlib.Data.List.Flatten
import Mathlib.Data.List.Perm.Basic
import SqlClient.Resolver.Queue
/-!
# Resolvers — cutting requests into batches

What a flush makes of the requests that it takes out of the queue: every request is in exactly one
batch (`perm_flatten_batches`), and every batch is of one kind, in order, not empty and within the
limit (`cut_of_mem_batches`).
-/

namespace SqlClient

namespace BatchQueue

variable {α κ : Type} [DecidableEq κ]

/-! ## Groups -/

theorem nodup_eraseDups (l : List κ) : l.eraseDups.Nodup := by
  induction hlen : l.length using Nat.strongRecOn generalizing l with
  | ind n ih =>
    cases l with
    | nil => exact List.nodup_nil
    | cons a l =>
      rw [List.eraseDups_cons, List.nodup_cons]
      refine ⟨by simp [List.mem_eraseDups], ih _ ?_ _ rfl⟩
      have := List.length_filter_le (fun b => !b == a) l
      simp only [List.length_cons] at hlen
      omega

/-- Filtering by the keys of a list, each once, only moves its items. -/
theorem perm_flatten_filters (key : α → κ) {keys : List κ} (hnodup : keys.Nodup) (items : List α)
    (hkeys : ∀ x ∈ items, key x ∈ keys) :
    (keys.map fun k => items.filter fun x => key x = k).flatten.Perm items := by
  induction keys generalizing items with
  | nil =>
    cases items with
    | nil => exact .refl _
    | cons x items => cases hkeys x (List.mem_cons_self ..)
  | cons k keys ih =>
    obtain ⟨hk, hnodup⟩ := List.nodup_cons.1 hnodup
    -- the items of the other keys are those without this one
    have hothers : (keys.map fun k' => items.filter fun x => key x = k') =
        keys.map fun k' => (items.filter fun x => !decide (key x = k)).filter fun x => key x = k' := by
      refine List.map_congr_left fun k' hk' => ?_
      rw [List.filter_filter]
      refine List.filter_congr fun x _ => ?_
      by_cases hx : key x = k'
      · have hne : key x ≠ k := fun h => hk (h ▸ hx ▸ hk')
        simp [hx, hx ▸ hne]
      · simp [hx]
    rw [List.map_cons, List.flatten_cons, hothers]
    refine (List.Perm.append_left _ (ih hnodup _ fun x hx => ?_)).trans (List.filter_append_perm _ _)
    obtain ⟨hmem, hne⟩ := List.mem_filter.1 hx
    exact (List.mem_cons.1 (hkeys x hmem)).resolve_left (by simpa using hne)

theorem perm_flatten_groups (key : α → κ) (items : List α) :
    (groups key items).flatten.Perm items :=
  perm_flatten_filters key (nodup_eraseDups _) items fun _ hx =>
    List.mem_eraseDups.2 (List.mem_map_of_mem hx)

/-! ## Chunks -/

theorem flatten_chunks (size : Nat) (items : List α) : (chunks size items).flatten = items := by
  fun_induction chunks size items with
  | case1 => rfl
  | case2 items _ ih => rw [List.flatten_cons, ih, List.take_append_drop]

theorem cut_of_mem_chunks {size : Nat} {items b : List α} (h : b ∈ chunks size items) :
    b ≠ [] ∧ b.Sublist items ∧ b.length ≤ max size 1 := by
  fun_induction chunks size items with
  | case1 => cases h
  | case2 items hne ih =>
    rcases List.mem_cons.1 h with rfl | h
    · refine ⟨?_, List.take_sublist _ _, List.length_take_le _ _⟩
      rw [Ne, List.take_eq_nil_iff]
      rintro (hsize | hitems)
      · omega
      · exact hne hitems
    · obtain ⟨hb, hsub, hlen⟩ := ih h
      exact ⟨hb, hsub.trans (List.drop_sublist _ _), hlen⟩

/-! ## Batches -/

/-- A list of items as a batch of others: not empty, of one kind, in order, and within the limit if
there is one (zero is none). -/
structure Cut (key : α → κ) (limit : Option Nat) (items b : List α) : Prop where
  nonempty : b ≠ []
  together : ∀ x ∈ b, ∀ y ∈ b, key x = key y
  ordered : b.Sublist items
  limited : ∀ n, limit = some n → 0 < n → b.length ≤ n

omit [DecidableEq κ] in
theorem Cut.mono {key : α → κ} {limit : Option Nat} {items items' b : List α}
    (h : Cut key limit items b) (hsub : items.Sublist items') : Cut key limit items' b :=
  ⟨h.nonempty, h.together, h.ordered.trans hsub, h.limited⟩

/-- **Every request is in exactly one batch.** -/
theorem perm_flatten_batches (key : α → κ) (limit : Option Nat) (items : List α) :
    (batches key limit items).flatten.Perm items := by
  have hchunks (gs : List (List α)) :
      (gs.flatMap fun g => chunks (limit.getD g.length) g).flatten = gs.flatten := by
    induction gs with
    | nil => rfl
    | cons g gs ih => rw [List.flatMap_cons, List.flatten_append, ih, flatten_chunks, List.flatten_cons]
  rw [batches, hchunks]
  exact perm_flatten_groups key items

/-- **Every batch is well cut.** -/
theorem cut_of_mem_batches {key : α → κ} {limit : Option Nat} {items b : List α}
    (h : b ∈ batches key limit items) : Cut key limit items b := by
  obtain ⟨g, hg, hb⟩ := List.mem_flatMap.1 h
  obtain ⟨k, -, rfl⟩ := List.mem_map.1 hg
  obtain ⟨hne, hsub, hlen⟩ := cut_of_mem_chunks hb
  have hkey : ∀ x ∈ b, key x = k := fun x hx => by
    simpa using (List.mem_filter.1 (hsub.subset hx)).2
  refine ⟨hne, fun x hx y hy => (hkey x hx).trans (hkey y hy).symm, hsub.trans List.filter_sublist, ?_⟩
  rintro n rfl hn
  rwa [Option.getD_some, Nat.max_eq_left hn] at hlen

end BatchQueue

end SqlClient
