import SqlClient.Proofs.Compiler.Chunks
/-!
# Compiler — what a tree binds

`Fragment.bindings` reads off a tree what it binds, from left to right, with no regard to text or to
ordinals. Flattening keeps exactly that (`bindings_pieces`): for records this takes the check that
every row has the columns of the first, so that no null ever stands in for a missing value.
-/

namespace SqlClient

/-! ## What a tree binds -/

/-- A step of binding: one value that gets a placeholder, or values that come with finished text. -/
inductive Binding
  | bound (value : Value)
  | spliced (params : List Value)

namespace Binding

/-- The values of a step. -/
def values : Binding → List Value
  | .bound v => [v]
  | .spliced vs => vs

/-- The positions of the bound values among all values, counted from one, with `k` values before. -/
def positions : Nat → List Binding → List Nat
  | _, [] => []
  | k, .bound _ :: rest => (k + 1) :: positions (k + 1) rest
  | k, .spliced vs :: rest => positions (k + vs.length) rest

end Binding

namespace Fragment

/-- Records bind their values row by row, each row in the order of the first record's columns. -/
def recordBindings : List Record → List Binding
  | [] => []
  | first :: rest =>
    (first :: rest).flatMap fun r => (first.columns.filterMap r.get?).map .bound

mutual

/-- What a fragment binds in a dialect, from left to right. -/
def bindings (d : Dialect) : Fragment → List Binding
  | .raw _ => []
  | .ident _ => []
  | .param v => [.bound v]
  | .list _ items _ => allBindings d items
  | .insert records => recordBindings records
  | .update r omitted =>
    (r.entries.filter fun e => !omitted.contains e.1).map fun e => .bound e.2
  | .array items => items.map .bound
  | .json doc => [.bound (Compiler.documentValue d doc)]
  | .values rows _ => recordBindings rows
  | .spliced _ params => [.spliced params]

/-- What fragments bind one after another. -/
def allBindings (d : Dialect) : List Fragment → List Binding
  | [] => []
  | f :: rest => bindings d f ++ allBindings d rest

end

mutual

/-- Whether a fragment holds finished text. -/
def hasSplice : Fragment → Bool
  | .list _ items _ => anySplice items
  | .spliced _ _ => true
  | _ => false

/-- Whether one of the fragments holds finished text. -/
def anySplice : List Fragment → Bool
  | [] => false
  | f :: rest => hasSplice f || anySplice rest

end

theorem allBindings_append (d : Dialect) (fs gs : List Fragment) :
    allBindings d (fs ++ gs) = allBindings d fs ++ allBindings d gs := by
  induction fs with
  | nil => rfl
  | cons f fs ih => rw [List.cons_append, allBindings, allBindings, ih, List.append_assoc]

end Fragment

/-! ## What pieces bind -/

namespace Piece

/-- What a piece binds, if it is not mere text. -/
def binding? : Piece → Option Binding
  | .text _ => none
  | .bound v => some (.bound v)
  | .spliced _ vs => some (.spliced vs)

/-- What pieces bind, in order. -/
def bindings (parts : List Piece) : List Binding := parts.filterMap binding?

@[simp] theorem bindings_nil : bindings [] = [] := rfl

@[simp] theorem bindings_text (sql : String) (parts : List Piece) :
    bindings (.text sql :: parts) = bindings parts := rfl

@[simp] theorem bindings_bound (v : Value) (parts : List Piece) :
    bindings (.bound v :: parts) = .bound v :: bindings parts := rfl

@[simp] theorem bindings_append (xs ys : List Piece) :
    bindings (xs ++ ys) = bindings xs ++ bindings ys :=
  List.filterMap_append

/-- The values of pieces are those of their bindings. -/
theorem params_eq (parts : List Piece) : params parts = (bindings parts).flatMap Binding.values := by
  fun_induction params parts with
  | case1 => rfl
  | case2 _ _ ih => exact ih
  | case3 _ _ ih => rw [ih, bindings_bound, List.flatMap_cons]; rfl
  | case4 _ _ _ ih => rw [ih]; rfl

/-- **The placeholders of pieces carry the positions of the bound values.** -/
theorem ordinals_chunks (k : Nat) (parts : List Piece) :
    Chunk.ordinals (chunks k parts) = Binding.positions k (bindings parts) := by
  fun_induction chunks k parts with
  | case1 => rfl
  | case2 _ _ _ ih => exact ih
  | case3 k _ _ ih =>
    rw [bindings_bound, Binding.positions, ← ih]
    rfl
  | case4 k _ vs _ ih => exact ih

/-- Separators bind nothing. -/
theorem bindings_separated (separator : String) (parts : List (List Piece)) :
    bindings (separated separator parts) = parts.flatMap bindings := by
  fun_induction separated separator parts with
  | case1 => rfl
  | case2 one => simp
  | case3 one rest _ ih => rw [bindings_append, bindings_text, ih, List.flatMap_cons]

theorem bindings_flatMap {α : Type} (xs : List α) (g : α → List Piece) :
    bindings (xs.flatMap g) = xs.flatMap fun x => bindings (g x) :=
  List.filterMap_flatMap

theorem bindings_separated_map {α : Type} (separator : String) (g : α → List Piece) (xs : List α) :
    bindings (separated separator (xs.map g)) = xs.flatMap fun x => bindings (g x) := by
  rw [bindings_separated, List.flatMap_map]

end Piece

/-! ## Records -/

theorem Record.isSome_get?_iff {r : Record} {name : String} :
    (r.get? name).isSome ↔ name ∈ r.columns := by
  rw [Record.get?, List.lookup_isSome_iff, Record.columns, List.mem_map]
  constructor
  · rintro ⟨entry, hentry, hname⟩
    exact ⟨entry, hentry, (eq_of_beq hname).symm⟩
  · rintro ⟨entry, hentry, rfl⟩
    exact ⟨entry, hentry, by simp⟩

theorem Record.isSome_get?_of_hasColumns {r : Record} {columns : List String}
    (h : r.hasColumns columns = true) {name : String} (hname : name ∈ columns) :
    (r.get? name).isSome := by
  rw [Record.hasColumns, Bool.and_eq_true, List.all_eq_true] at h
  exact h.2 name hname

theorem hasColumns_of_firstMismatch {columns : List String} {row : Nat} {records : List Record}
    (h : firstMismatch columns row records = none) : ∀ r ∈ records, r.hasColumns columns = true := by
  fun_induction firstMismatch columns row records with
  | case1 => simp
  | case2 row r rest hr ih =>
    intro r' hr'
    rcases List.mem_cons.1 hr' with rfl | hr'
    · exact hr
    · exact ih h r' hr'
  | case3 => cases h

/-- Records that share columns all have a value for each of them. -/
theorem exists_of_sharedColumns {records : List Record} {columns : List String}
    (h : sharedColumns records = .ok columns) :
    ∃ first rest, records = first :: rest ∧ columns = first.columns ∧
      ∀ r ∈ records, ∀ name ∈ columns, (r.get? name).isSome := by
  cases records with
  | nil => cases h
  | cons first rest =>
    rw [sharedColumns] at h
    split at h
    · cases h
    · split at h
      · cases h
      · rename_i hnone
        cases h
        -- the first record is not checked: the columns are its own
        refine ⟨first, rest, rfl, rfl, ?_⟩
        intro r hr name hname
        rcases List.mem_cons.1 hr with rfl | hr
        · exact Record.isSome_get?_iff.2 hname
        · exact Record.isSome_get?_of_hasColumns (hasColumns_of_firstMismatch hnone r hr) hname

namespace Compiler

theorem bindings_columnPieces (c : Compiler) (columns : List String) :
    Piece.bindings (c.columnPieces columns) = [] := by
  rw [columnPieces, Piece.bindings_separated_map]
  simp

/-- A row binds the record's own values: the null that stands in for a missing one is never
written. -/
theorem bindings_rowPieces {columns : List String} {r : Record}
    (h : ∀ name ∈ columns, (r.get? name).isSome) :
    Piece.bindings (rowPieces columns r) = (columns.filterMap r.get?).map .bound := by
  rw [rowPieces, Piece.bindings_text, Piece.bindings_append, Piece.bindings_separated_map]
  induction columns with
  | nil => rfl
  | cons name columns ih =>
    obtain ⟨v, hv⟩ := Option.isSome_iff_exists.1 (h name List.mem_cons_self)
    have ih := ih fun other hother => h other (List.mem_cons_of_mem _ hother)
    rw [List.flatMap_cons, List.append_assoc, ih, List.filterMap_cons_some hv, hv]
    rfl

/-- Checked records bind what the tree says they bind. -/
theorem bindings_rowsPieces {records : List Record} {columns : List String}
    (h : sharedColumns records = .ok columns) :
    Piece.bindings (rowsPieces columns records) = Fragment.recordBindings records := by
  obtain ⟨first, rest, rfl, rfl, hall⟩ := exists_of_sharedColumns h
  rw [rowsPieces, Piece.bindings_separated_map, Fragment.recordBindings, List.flatMap_def,
    List.flatMap_def]
  exact congrArg List.flatten (List.map_congr_left fun r hr => bindings_rowPieces (hall r hr))

theorem bindings_insertPieces {c : Compiler} {records : List Record} {parts : List Piece}
    (h : c.insertPieces records = .ok parts) :
    Piece.bindings parts = Fragment.recordBindings records := by
  rw [insertPieces] at h
  split at h
  · cases h
  · rename_i columns hcolumns
    cases h
    simp [bindings_columnPieces, bindings_rowsPieces hcolumns]

theorem bindings_valuesPieces {c : Compiler} {rows : List Record} {table : String}
    {parts : List Piece} (h : c.valuesPieces rows table = .ok parts) :
    Piece.bindings parts = Fragment.recordBindings rows := by
  rw [valuesPieces] at h
  split at h
  · cases h
  · rename_i columns hcolumns
    cases h
    simp [bindings_columnPieces, bindings_rowsPieces hcolumns]

theorem bindings_updatePieces {c : Compiler} {r : Record} {omitted : List String}
    {parts : List Piece} (h : c.updatePieces r omitted = .ok parts) :
    Piece.bindings parts =
      (r.entries.filter fun e => !omitted.contains e.1).map fun e => .bound e.2 := by
  rw [updatePieces] at h
  split at h
  · cases h
  · cases h
    rw [Piece.bindings_separated_map]
    simp [List.map_eq_flatMap]

theorem bindings_arrayPieces {d : Dialect} {items : List Value} {parts : List Piece}
    (h : arrayPieces d items = .ok parts) : Piece.bindings parts = items.map .bound := by
  cases d with
  | postgres =>
    cases h
    rw [Piece.bindings_text, Piece.bindings_append, Piece.bindings_separated_map]
    simp [List.map_eq_flatMap]
  | sqlite => cases h
  | mysql => cases h
  | mssql => cases h

theorem bindings_tablePieces {c : Compiler} {rows : List Record} {table : String}
    {parts : List Piece} (h : c.tablePieces rows table = .ok parts) :
    Piece.bindings parts = Fragment.recordBindings rows := by
  rw [tablePieces] at h
  split at h
  · exact bindings_valuesPieces h
  · exact bindings_valuesPieces h
  · cases h
  · cases h

/-! ## Trees -/

mutual

/-- **Flattening keeps what a tree binds**, in order. -/
theorem bindings_pieces {c : Compiler} : ∀ {f : Fragment} {parts : List Piece},
    c.pieces f = .ok parts → Piece.bindings parts = f.bindings c.dialect
  | .raw _, _, h => by cases h; rfl
  | .ident _, _, h => by cases h; rfl
  | .param _, _, h => by cases h; rfl
  | .list separator items parenthesized, _, h => by
    rw [pieces] at h
    split at h
    · cases h
    · rename_i parts hparts
      have hbody : Piece.bindings (Piece.separated separator parts) =
          Fragment.allBindings c.dialect items := by
        rw [Piece.bindings_separated, bindings_itemPieces hparts]
      cases h
      rw [Fragment.bindings]
      split
      · simp [hbody]
      · exact hbody
  | .insert _, _, h => by
    rw [pieces] at h
    exact bindings_insertPieces h
  | .update _ _, _, h => by
    rw [pieces] at h
    exact bindings_updatePieces h
  | .array _, _, h => by
    rw [pieces] at h
    exact bindings_arrayPieces h
  | .json _, _, h => by cases h; rfl
  | .values _ _, _, h => by
    rw [pieces] at h
    exact bindings_tablePieces h
  | .spliced _ _, _, h => by cases h; rfl

theorem bindings_itemPieces {c : Compiler} : ∀ {items : List Fragment} {parts : List (List Piece)},
    c.itemPieces items = .ok parts →
      parts.flatMap Piece.bindings = Fragment.allBindings c.dialect items
  | [], _, h => by cases h; rfl
  | f :: rest, _, h => by
    rw [itemPieces] at h
    split at h
    · cases h
    · rename_i part hpart
      split at h
      · cases h
      · rename_i parts hparts
        cases h
        rw [List.flatMap_cons, Fragment.allBindings, bindings_pieces hpart,
          bindings_itemPieces hparts]

end

end Compiler

end SqlClient
