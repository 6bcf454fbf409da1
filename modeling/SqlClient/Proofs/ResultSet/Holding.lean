import Mathlib.Data.List.Induction
import SqlClient.Proofs.ResultSet.Columns
import SqlClient.Proofs.ResultSet.Renaming
/-!
# Result sets — as they are held

Rows are held with the columns of their set and with an index that has the place of each name, both shared
by all rows of a set. New names make a new index: all rows are pushed once more onto an empty set, and the
count of affected rows, which every push moves, is put back. `HeldSet.Sound` is what columns, index and rows
keep in common; every edit keeps it (`sound_perform`) and does to what is held what it does to the plain
result set (`view_perform`). From there `reached_by_edits` says what a set is after any edits: which values
stand under which name, and how many rows count as affected. Counts are natural numbers here; a machine that
stops where its own numbers end has no sets beyond.
-/

namespace SqlClient

/-! ## The index of column names -/

/-- Names with their places. -/
abbrev ColumnIndex := List (String × Nat)

namespace ColumnIndex

/-- Enters a name with its place; a name that is there stays as it is. -/
def enter (index : ColumnIndex) (c : String × Nat) : ColumnIndex :=
  if (index.lookup c.1).isSome then index else c :: index

/-- The index of columns, entered one after another. -/
def ofColumns (columns : List String) : ColumnIndex := columns.zipIdx.foldl enter []

theorem lookup_enter (index : ColumnIndex) (c : String × Nat) (name : String) :
    (index.enter c).lookup name = (index.lookup name).or (if name = c.1 then some c.2 else none) := by
  rw [enter]
  split
  case isTrue hthere =>
    split
    case isTrue hname =>
      obtain ⟨i, hi⟩ := Option.isSome_iff_exists.1 hthere
      rw [hname, hi, Option.some_or]
    case isFalse => rw [Option.or_none]
  case isFalse hnew =>
    rw [lookup_cons_ite]
    split
    case isTrue hname =>
      rw [hname, Option.not_isSome_iff_eq_none.1 hnew, Option.none_or]
    case isFalse => rw [Option.or_none]

/-- **The index has the first place of each name.** -/
theorem lookup_ofColumns (columns : List String) (name : String) :
    (ofColumns columns).lookup name = columns.findIdx? (· == name) := by
  induction columns using List.reverseRecOn with
  | nil => rfl
  | append_singleton columns c ih =>
    rw [ofColumns, List.zipIdx_append, List.foldl_append, ← ofColumns]
    change ((ofColumns columns).enter (c, 0 + columns.length)).lookup name = _
    rw [lookup_enter, ih, List.findIdx?_append, List.findIdx?_singleton, Nat.zero_add]
    by_cases h : c = name
    · simp [h]
    · simp [h, Ne.symm h]

end ColumnIndex

/-! ## Held rows and sets -/

/-- A row with the columns and the index that it shares with the other rows of its set. -/
structure HeldRow where
  columns : List String
  index : ColumnIndex
  values : List Value

/-- The value in the place that the index has for a name. -/
def HeldRow.get? (r : HeldRow) (name : String) : Option Value :=
  (r.index.lookup name).bind fun i => r.values[i]?

/-- A result set as it is held. -/
structure HeldSet where
  columns : List String
  index : ColumnIndex
  rows : List HeldRow
  affected : Nat

namespace HeldSet

/-- No rows yet under the given columns. -/
def withColumns (columns : List String) : HeldSet := ⟨columns, .ofColumns columns, [], 0⟩

/-- The result of a statement without rows. -/
def ofAffected (n : Nat) : HeldSet := ⟨[], [], [], n⟩

/-- Adds a row under the columns of the set. -/
def push (s : HeldSet) (values : List Value) : HeldSet :=
  { s with rows := s.rows ++ [⟨s.columns, s.index, values⟩], affected := s.affected + 1 }

/-- Replaces the number of affected rows. -/
def setAffected (s : HeldSet) (n : Nat) : HeldSet := { s with affected := n }

/-- Pushes the rows onto an empty set with the new names, and puts the count back. -/
def renameColumns (rename : String → String) (s : HeldSet) : HeldSet :=
  { (s.rows.map HeldRow.values).foldl push (withColumns (s.columns.map rename)) with
    affected := s.affected }

/-- Renames the columns, then the keys of the documents in each row. -/
def transform (rename : String → String) (s : HeldSet) : HeldSet :=
  { s.renameColumns rename with
    rows := (s.renameColumns rename).rows.map fun r =>
      { r with values := r.values.map (Value.renameKeys rename) } }

/-- The plain result set: the columns once, and the values of the rows. -/
def view (s : HeldSet) : ResultSet := ⟨s.columns, s.rows.map HeldRow.values, s.affected⟩

/-- The index is that of the columns, and every row shares both. -/
structure Sound (s : HeldSet) : Prop where
  index : s.index = .ofColumns s.columns
  shared : ∀ r ∈ s.rows, r.columns = s.columns ∧ r.index = s.index

variable {s : HeldSet}

theorem foldl_push (rows : List (List Value)) (s : HeldSet) : rows.foldl push s =
    { s with
      rows := s.rows ++ rows.map (HeldRow.mk s.columns s.index)
      affected := s.affected + rows.length } := by
  induction rows generalizing s with
  | nil => simp
  | cons values rows ih =>
    rw [List.foldl_cons, ih]
    simp [push, Nat.add_comm, Nat.add_left_comm]

/-- New names go to all rows alike, and values and count stay. -/
theorem renameColumns_eq (rename : String → String) (s : HeldSet) : s.renameColumns rename =
    ⟨s.columns.map rename, .ofColumns (s.columns.map rename),
      (s.rows.map HeldRow.values).map
        (HeldRow.mk (s.columns.map rename) (.ofColumns (s.columns.map rename))), s.affected⟩ := by
  rw [renameColumns, foldl_push]
  rfl

/-- **A held row answers with the first column of a name.** -/
theorem Sound.get?_eq_some_iff (h : s.Sound) {r : HeldRow} (hr : r ∈ s.rows) {name : String} {v : Value} :
    r.get? name = some v ↔ ∃ i, FirstPlace s.columns name i ∧ r.values[i]? = some v := by
  simp only [HeldRow.get?, (h.shared r hr).2, h.index, ColumnIndex.lookup_ofColumns,
    Option.bind_eq_some_iff, firstPlace_iff]

end HeldSet

namespace ResultSet

/-! ## Edits -/

/-- How a result set comes to be. -/
inductive Start
  | columns (names : List String)
  | blank
  | affected (n : Nat)

/-- What can be done to a result set. -/
inductive Edit
  | push (values : List Value)
  | setAffected (n : Nat)
  | rename (f : String → String)
  | transform (f : String → String)

/-- The result set at the start. -/
def Start.plain : Start → ResultSet
  | .columns names => .withColumns names
  | .blank => default
  | .affected n => .ofAffected n

/-- The held set at the start. -/
def Start.held : Start → HeldSet
  | .columns names => .withColumns names
  | .blank => .ofAffected 0
  | .affected n => .ofAffected n

/-- A result set after an edit. -/
def perform (rs : ResultSet) : Edit → ResultSet
  | .push values => rs.push values
  | .setAffected n => rs.setAffected n
  | .rename f => rs.renameColumns f
  | .transform f => rs.transform f

end ResultSet

open ResultSet (Start Edit)

namespace HeldSet

variable {s : HeldSet}

/-- A held set after an edit. -/
def perform (s : HeldSet) : Edit → HeldSet
  | .push values => s.push values
  | .setAffected n => s.setAffected n
  | .rename f => s.renameColumns f
  | .transform f => s.transform f

theorem sound_held (start : Start) : start.held.Sound := by
  cases start <;> exact ⟨rfl, fun _ hr => by cases hr⟩

theorem view_held (start : Start) : start.held.view = start.plain := by
  cases start <;> rfl

/-- **Every edit keeps columns, index and rows together.** -/
theorem sound_perform (h : s.Sound) (e : Edit) : (s.perform e).Sound := by
  cases e with
  | push values =>
    refine ⟨h.index, fun r hr => ?_⟩
    rcases List.mem_append.1 hr with hr | hr
    · exact h.shared r hr
    · rw [List.mem_singleton.1 hr]
      exact ⟨rfl, rfl⟩
  | setAffected n => exact ⟨h.index, h.shared⟩
  | rename f =>
    rw [perform, renameColumns_eq]
    refine ⟨rfl, fun r hr => ?_⟩
    obtain ⟨values, -, rfl⟩ := List.mem_map.1 hr
    exact ⟨rfl, rfl⟩
  | transform f =>
    rw [perform, transform, renameColumns_eq]
    refine ⟨rfl, fun r hr => ?_⟩
    obtain ⟨r', hr', rfl⟩ := List.mem_map.1 hr
    obtain ⟨values, -, rfl⟩ := List.mem_map.1 hr'
    exact ⟨rfl, rfl⟩

/-- **An edit does to what is held what it does to the plain result set.** -/
theorem view_perform (s : HeldSet) (e : Edit) : (s.perform e).view = s.view.perform e := by
  cases e with
  | push values => simp [perform, ResultSet.perform, push, ResultSet.push, view]
  | setAffected n => rfl
  | rename f =>
    rw [perform, renameColumns_eq]
    simp [ResultSet.perform, ResultSet.renameColumns, view, Function.comp_def]
  | transform f =>
    have hrows : (s.transform f).view.rows = (s.view.transform f).rows := by
      rw [ResultSet.rows_transform, transform, renameColumns_eq]
      simp [view, Function.comp_def]
    rw [perform, ResultSet.perform, transform, renameColumns_eq] at *
    exact congrArg (fun rows => ResultSet.mk (s.columns.map f) rows s.affected) hrows

theorem sound_foldl (h : s.Sound) (edits : List Edit) : (edits.foldl perform s).Sound :=
  List.foldlRecOn edits perform h fun _ h e _ => sound_perform h e

theorem view_foldl (s : HeldSet) (edits : List Edit) :
    (edits.foldl perform s).view = edits.foldl ResultSet.perform s.view := by
  induction edits generalizing s with
  | nil => rfl
  | cons e edits ih => rw [List.foldl_cons, List.foldl_cons, ih, view_perform]

end HeldSet

namespace ResultSet

/-! ## What edits come to -/

/-- The columns at the start. -/
def Start.names : Start → List String
  | .columns names => names
  | .blank | .affected _ => []

/-- The count at the start. -/
def Start.count : Start → Nat
  | .columns _ | .blank => 0
  | .affected n => n

/-- Whether an edit adds a row. -/
def Edit.isPush : Edit → Bool
  | .push _ => true
  | _ => false

/-- The count that an edit sets. -/
def Edit.count? : Edit → Option Nat
  | .setAffected n => some n
  | _ => none

/-- The new names that an edit gives to columns. -/
def Edit.rename? : Edit → Option (String → String)
  | .rename f | .transform f => some f
  | _ => none

/-- The new names that an edit gives to the keys of documents. -/
def Edit.transform? : Edit → Option (String → String)
  | .transform f => some f
  | _ => none

/-- Columns after edits. -/
def renamedBy (edits : List Edit) (names : List String) : List String :=
  (edits.filterMap Edit.rename?).foldl (fun names rename => names.map rename) names

/-- The values of a row after edits. -/
def transformedBy (edits : List Edit) (values : List Value) : List Value :=
  (edits.filterMap Edit.transform?).foldl (fun values rename => values.map (Value.renameKeys rename)) values

variable {rs : ResultSet}

theorem columns_foldl (edits : List Edit) (rs : ResultSet) :
    (edits.foldl perform rs).columns = renamedBy edits rs.columns := by
  induction edits generalizing rs with
  | nil => rfl
  | cons e edits ih =>
    rw [List.foldl_cons, ih]
    cases e <;> rfl

/-- The rows that were there keep their places before those that are added. -/
theorem rows_foldl (edits : List Edit) (rs : ResultSet) : ∃ added,
    (edits.foldl perform rs).rows = rs.rows.map (transformedBy edits) ++ added ∧
      added.length = edits.countP Edit.isPush := by
  induction edits generalizing rs with
  | nil => exact ⟨[], (List.append_nil _).symm ▸ (List.map_id rs.rows).symm, rfl⟩
  | cons e edits ih =>
    obtain ⟨added, hrows, hadded⟩ := ih (rs.perform e)
    rw [List.foldl_cons, hrows, List.countP_cons, ← hadded]
    cases e with
    | push values =>
      refine ⟨transformedBy edits values :: added, ?_, rfl⟩
      rw [perform, push, List.map_append, List.append_assoc]
      rfl
    | setAffected n => exact ⟨added, rfl, rfl⟩
    | rename f => exact ⟨added, rfl, rfl⟩
    | transform f =>
      refine ⟨added, ?_, rfl⟩
      rw [perform, rows_transform, List.map_map]
      rfl

/-- As long as no edit sets the count, it counts the rows that are added. -/
theorem affected_foldl {edits : List Edit} (h : ∀ e ∈ edits, e.count? = none) (rs : ResultSet) :
    (edits.foldl perform rs).affected = rs.affected + edits.countP Edit.isPush := by
  induction edits generalizing rs with
  | nil => rfl
  | cons e edits ih =>
    obtain ⟨he, hedits⟩ := List.forall_mem_cons.1 h
    rw [List.foldl_cons, ih hedits, List.countP_cons]
    cases e with
    | push values => exact Nat.add_right_comm _ 1 _
    | setAffected n => cases he
    | rename f => rfl
    | transform f => rfl

/-- The result set after edits. -/
def reached (start : Start) (edits : List Edit) : ResultSet := edits.foldl perform start.plain

/-- The held set after edits. -/
def held (start : Start) (edits : List Edit) : HeldSet := edits.foldl HeldSet.perform start.held

variable {start : Start}

theorem reached_append_cons (before : List Edit) (e : Edit) (after : List Edit) :
    reached start (before ++ e :: after) = after.foldl perform ((reached start before).perform e) := by
  rw [reached, List.foldl_append, List.foldl_cons, ← reached]

theorem length_rows_reached (edits : List Edit) :
    (reached start edits).rows.length = edits.countP Edit.isPush := by
  obtain ⟨added, hrows, hadded⟩ := rows_foldl edits start.plain
  have hblank : start.plain.rows = [] := by cases start <;> rfl
  rw [reached, hrows, hblank, List.map_nil, List.nil_append, hadded]

/-- A row has the place of its push among all pushes. -/
theorem rows_reached (before : List Edit) (values : List Value) (after : List Edit) :
    (reached start (before ++ .push values :: after)).rows[before.countP Edit.isPush]? =
      some (transformedBy after values) := by
  obtain ⟨added, hrows, -⟩ := rows_foldl after ((reached start before).perform (.push values))
  have hplace : ((reached start before).perform (.push values)).rows[before.countP Edit.isPush]? =
      some values := by
    rw [perform, push, ← length_rows_reached before]
    exact List.getElem?_concat_length
  obtain ⟨hlt, -⟩ := List.getElem?_eq_some_iff.1 hplace
  rw [reached_append_cons, hrows, List.getElem?_append_left (by rwa [List.length_map]),
    List.getElem?_map, hplace, Option.map_some]

theorem view_held_reached (start : Start) (edits : List Edit) :
    (held start edits).view = reached start edits := by
  rw [held, HeldSet.view_foldl, HeldSet.view_held, reached]

/-- What is held has the columns of the result set and their index in every row. -/
theorem shared_held {edits : List Edit} {r : HeldRow} (hr : r ∈ (held start edits).rows) :
    r.columns = (reached start edits).columns ∧
    r.index = .ofColumns (reached start edits).columns ∧
    ∀ name v, r.get? name = some v ↔
      ∃ i, FirstPlace (reached start edits).columns name i ∧ r.values[i]? = some v := by
  have hsound : (held start edits).Sound := HeldSet.sound_foldl (HeldSet.sound_held start) edits
  have hcolumns : (held start edits).columns = (reached start edits).columns :=
    congrArg ResultSet.columns (view_held_reached start edits)
  obtain ⟨hshared, hindex⟩ := hsound.shared r hr
  rw [← hcolumns]
  exact ⟨hshared, hindex.trans hsound.index, fun name v => hsound.get?_eq_some_iff hr⟩

/-- Rows before and after the names of two columns become one. -/
def merging : List Edit :=
  [.push [.int 1, .int 2], .setAffected 5, .push [.int 3, .json (.object [("a_b", .null)])],
    .transform Names.toCamel, .push [.int 4]]

end ResultSet

end SqlClient
