import SqlClient.Migration.Basic
/-!
# Migrations — which ones are to be applied

A run refuses a list in which an id is repeated, and otherwise applies what is newer than the latest
recorded id, in strictly ascending order.
-/

namespace SqlClient

/-- The latest of some ids: the greatest one, zero if there is none. -/
def IsLatest (ids : List Int64) (latest : Int64) : Prop :=
  (ids = [] ∧ latest = 0) ∨ (latest ∈ ids ∧ ∀ id ∈ ids, id ≤ latest)

theorem IsLatest.le {ids : List Int64} {latest : Int64} (h : IsLatest ids latest) :
    ∀ id ∈ ids, id ≤ latest := by
  rcases h with ⟨rfl, -⟩ | ⟨-, h⟩
  · exact List.forall_mem_nil _
  · exact h

/-- The latest id never goes back when newer ids are added. -/
theorem IsLatest.le_of_append {ids newer : List Int64} {latest latest' : Int64}
    (h : IsLatest ids latest) (hnewer : ∀ id ∈ newer, latest < id)
    (h' : IsLatest (ids ++ newer) latest') : latest ≤ latest' := by
  rcases h with ⟨rfl, rfl⟩ | ⟨hmem, -⟩
  · rcases h' with ⟨-, rfl⟩ | ⟨hmem, -⟩
    · exact Int64.le_refl _
    · exact Int64.le_of_lt (hnewer _ hmem)
  · exact h'.le _ (List.mem_append_left _ hmem)

namespace Migrator

variable {β : Type} {m : Migrator β} {latest : Int64}

/-! ## Repeated ids -/

/-- Sorted ids hold a repeated one exactly if two neighbours are equal. -/
theorem repeated_eq_nil_iff {ids : List Int64} (h : ids.Pairwise (· ≤ ·)) :
    repeated ids = [] ↔ ids.Nodup := by
  induction ids with
  | nil => simp [repeated]
  | cons a ids ih =>
    cases ids with
    | nil => simp [repeated]
    | cons b rest =>
      obtain ⟨hleast, hrest⟩ := List.pairwise_cons.1 h
      rw [repeated, List.nodup_cons, ← ih hrest]
      by_cases hab : a = b
      · simp [hab]
      · rw [if_neg hab]
        refine ⟨fun hnone => ⟨fun ha => ?_, hnone⟩, And.right⟩
        -- what stands between two equal sorted ids is equal to them
        rcases List.mem_cons.1 ha with rfl | ha
        · exact hab rfl
        · exact hab (Int64.le_antisymm (hleast b (.head _)) ((List.pairwise_cons.1 hrest).1 a ha))

/-- Sorting by an id puts the ids in ascending order. -/
theorem pairwise_mergeSort_id {α : Type _} (key : α → Int64) (l : List α) :
    (l.mergeSort fun a b => decide (key a ≤ key b)).Pairwise fun a b => key a ≤ key b := by
  have hsorted := @List.pairwise_mergeSort _ (fun a b => decide (key a ≤ key b))
    (fun a b c => by simpa using Int64.le_trans) (fun a b => by simpa using Int64.le_total (key a) (key b)) l
  simpa using hsorted

theorem repeated_mergeSort {ids : List Int64} :
    repeated (ids.mergeSort fun a b => decide (a ≤ b)) = [] ↔ ids.Nodup := by
  have hsorted : (ids.mergeSort fun a b => decide (a ≤ b)).Pairwise (· ≤ ·) :=
    pairwise_mergeSort_id id ids
  rw [repeated_eq_nil_iff hsorted]
  exact (List.mergeSort_perm _ _).nodup_iff

/-- A list without repeated ids passes. -/
theorem checkIds_ok (h : (m.migrations.map (·.id)).Nodup) : m.checkIds = .ok () := by
  rw [checkIds, repeated_mergeSort.2 h]

/-- **A list with a repeated id is refused as one with duplicates.** -/
theorem checkIds_error (h : ¬ (m.migrations.map (·.id)).Nodup) :
    ∃ message, m.checkIds = .error (.migration .duplicates message) := by
  rw [checkIds]
  split
  · exact absurd (repeated_mergeSort.1 ‹_›) h
  · exact ⟨_, rfl⟩

theorem nodup_of_checkIds (h : m.checkIds = .ok ()) : (m.migrations.map (·.id)).Nodup := by
  refine Classical.byContradiction fun hrepeated => ?_
  obtain ⟨message, herror⟩ := checkIds_error hrepeated
  rw [h] at herror
  cases herror

/-! ## What is pending -/

/-- What is pending is what is newer than the latest recorded id. -/
theorem mem_pending {one : Migration β} :
    one ∈ m.pending latest ↔ one ∈ m.migrations ∧ latest < one.id := by
  simp [pending, sortById]

/-- **What is pending stands in strictly ascending order** if no id is repeated. -/
theorem pairwise_pending (h : (m.migrations.map (·.id)).Nodup) :
    (m.pending latest).Pairwise fun a b => a.id < b.id := by
  have hsorted : (m.pending latest).Pairwise fun a b => a.id ≤ b.id :=
    pairwise_mergeSort_id Migration.id _
  have hkept : ((m.migrations.filter fun one => latest < one.id).map (·.id)).Nodup :=
    h.sublist (List.filter_sublist.map _)
  have hdistinct : ((m.pending latest).map (·.id)).Nodup :=
    ((List.mergeSort_perm _ _).map _).nodup_iff.2 hkept
  exact hsorted.imp₂ (fun _ _ => Int64.lt_of_le_of_ne) (List.pairwise_map.1 hdistinct)

theorem nodup_of_ascending {list : List (Migration β)} (h : list.Pairwise fun a b => a.id < b.id) :
    list.Nodup := by
  refine h.imp fun hlt => ?_
  rintro rfl
  exact Int64.lt_irrefl hlt

end Migrator

end SqlClient
