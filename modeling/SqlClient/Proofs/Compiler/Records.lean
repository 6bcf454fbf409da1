import SqlClient.Proofs.Compiler.Alignment
import SqlClient.Proofs.Compiler.Faults
import SqlClient.Proofs.Lists
/-!
# Compiler — records in columns

A node that writes records names its columns once and then binds values in rows of this width. The
columns are those of the first record, and every row is written in their order, whatever order its
record has them in. The columns of a record are set in one place each, and the check has seen that
no record lacks one. So the value at a place is the record's own, and every value has a place
(`Fragment.Tabled`).
-/

namespace SqlClient

/-! ## Records that are built -/

namespace Record

variable {r r' : Record}

theorem built_empty : empty.Built := ⟨[], rfl⟩

theorem Built.set (h : r.Built) (column : String) (value : Value) : (r.set column value).Built := by
  obtain ⟨entries, rfl⟩ := h
  exact ⟨entries ++ [(column, value)], by simp [ofList]⟩

theorem built_of_ofJson {doc : Json} (h : ofJson doc = .ok r) : r.Built := by
  cases doc with
  | object members =>
    cases h
    exact ⟨_, rfl⟩
  | _ => cases h

theorem Built.get?_eq_some_iff (h : r.Built) {name : String} {v : Value} :
    r.get? name = some v ↔ (name, v) ∈ r.entries :=
  lookup_eq_some_iff_mem h.nodup

/-- What a column holds does not depend on where it stands. -/
theorem Built.get?_of_perm (h : r.Built) (hperm : r'.entries.Perm r.entries) (name : String) :
    r'.get? name = r.get? name :=
  lookup_perm h.nodup hperm name

theorem Built.hasColumns_of_perm (h : r.Built) (hperm : r'.entries.Perm r.entries)
    (columns : List String) : r'.hasColumns columns = r.hasColumns columns := by
  simp only [hasColumns, size, hperm.length_eq, h.get?_of_perm hperm]

end Record

/-! ## Tables -/

namespace Fragment

/-- The columns that a node writes: those of its first record, without omitted ones. -/
def columns : Fragment → List String
  | .insert (first :: _) => first.columns
  | .values (first :: _) _ => first.columns
  | .update r omitted => r.columns.filter fun name => !omitted.contains name
  | _ => []

/-- The columns that a node leaves out. -/
def omitted : Fragment → List String
  | .update _ omitted => omitted
  | _ => []

/-- **Values in rows and columns.** Every column is there once, all rows have the width of the
columns, each place holds what its record has in its column, and every value of a record that is not
omitted has a place. -/
structure Tabled (g : Fragment) (values : List Value) : Prop where
  distinct : g.columns.Nodup
  size : values.length = g.records.length * g.columns.length
  cell : ∀ (i j : Nat) (r : Record) (column : String), g.records[i]? = some r →
    g.columns[j]? = some column →
    ∃ v, r.get? column = some v ∧ values[i * g.columns.length + j]? = some v
  kept : ∀ (i : Nat) (r : Record) (column : String) (v : Value), g.records[i]? = some r →
    (column, v) ∈ r.entries → column ∉ g.omitted →
    ∃ j : Nat, g.columns[j]? = some column ∧ values[i * g.columns.length + j]? = some v

/-- The same node, with the columns of records after the first in another order. -/
inductive Reordered : Fragment → Fragment → Prop
  | insert {first : Record} {rest rest' : List Record} :
      List.Forall₂ (fun r r' => r'.entries.Perm r.entries) rest rest' →
      Reordered (.insert (first :: rest)) (.insert (first :: rest'))
  | values {first : Record} {rest rest' : List Record} {table : String} :
      List.Forall₂ (fun r r' => r'.entries.Perm r.entries) rest rest' →
      Reordered (.values (first :: rest) table) (.values (first :: rest') table)

variable {g : Fragment}

/-- Rows that are written in the order of the columns make a table. -/
theorem tabled_of_rows {values : List Value} (hbuilt : ∀ r ∈ g.records, r.Built)
    (hdistinct : g.columns.Nodup)
    (hcolumns : ∀ r ∈ g.records, ∀ name, name ∈ g.columns ↔ name ∈ r.columns ∧ name ∉ g.omitted)
    (hvalues : values = g.records.flatMap fun r =>
      g.columns.map fun name => (r.get? name).getD .null) : g.Tabled values := by
  have hwidth : ∀ r ∈ g.records,
      (g.columns.map fun name => (r.get? name).getD .null).length = g.columns.length :=
    fun _ _ => List.length_map _
  have hcell : ∀ (i j : Nat) (r : Record) (column : String), g.records[i]? = some r →
      g.columns[j]? = some column →
      ∃ v, r.get? column = some v ∧ values[i * g.columns.length + j]? = some v := by
    intro i j r column hi hj
    obtain ⟨hin, -⟩ := (hcolumns r (List.mem_of_getElem? hi) column).1 (List.mem_of_getElem? hj)
    -- the record has the column, so nothing is filled in
    obtain ⟨v, hv⟩ := Option.isSome_iff_exists.1 (Record.isSome_get?_iff.2 hin)
    refine ⟨v, hv, ?_⟩
    rw [hvalues, getElem?_flatMap_of_length hwidth hi (List.getElem?_eq_some_iff.1 hj).1,
      List.getElem?_map, hj, Option.map_some, hv, Option.getD_some]
  refine ⟨hdistinct, hvalues ▸ length_flatMap_of_length hwidth, hcell, ?_⟩
  intro i r column v hi hentry hout
  have hr := List.mem_of_getElem? hi
  have hmem : column ∈ g.columns :=
    (hcolumns r hr column).2 ⟨List.mem_map.2 ⟨_, hentry, rfl⟩, hout⟩
  obtain ⟨j, hj⟩ := List.mem_iff_getElem?.1 hmem
  -- no column is set twice, so the value at the place is this one
  obtain ⟨v', hv', hplace⟩ := hcell i j r column hi hj
  rw [(hbuilt r hr).get?_eq_some_iff.2 hentry] at hv'
  cases hv'
  exact ⟨j, hj, hplace⟩

end Fragment

/-! ## Texts -/

namespace Compiler

/-- Names with commas between them. -/
def namesText (c : Compiler) (names : List String) : String :=
  ", ".intercalate (names.map c.quoteIdentifier)

/-- A row of placeholders in parentheses, with `k` values before them. -/
def rowText (style : PlaceholderStyle) (k width : Nat) : String :=
  "(" ++ ", ".intercalate ((List.range width).map fun j => style.write (k + j + 1)) ++ ")"

/-- Rows of placeholders, with `k` values before them. -/
def rowsText (style : PlaceholderStyle) (k count width : Nat) : String :=
  ", ".intercalate ((List.range count).map fun i => rowText style (k + i * width) width)

/-- The text of a node that writes records, with `k` values before it. -/
def recordText (c : Compiler) (k : Nat) (g : Fragment) : String :=
  match g with
  | .insert records =>
    "(" ++ c.namesText g.columns ++ ") VALUES " ++
      rowsText c.placeholder k records.length g.columns.length
  | .values rows table =>
    "(values " ++ rowsText c.placeholder k rows.length g.columns.length ++ ") AS " ++
      c.quoteIdentifier table ++ "(" ++ c.namesText g.columns ++ ")"
  | .update _ _ =>
    ", ".intercalate (g.columns.zipIdx.map fun column =>
      c.quoteIdentifier column.1 ++ " = " ++ c.placeholder.write (k + column.2 + 1))
  | _ => ""

end Compiler

namespace Piece

variable {α : Type}

theorem params_separated_map (separator : String) (g : α → List Piece) (xs : List α) :
    params (separated separator (xs.map g)) = xs.flatMap fun x => params (g x) := by
  simp only [params_eq, bindings_separated_map, List.flatMap_assoc]

theorem written_separated_from (style : PlaceholderStyle) (separator : String) {width : Nat}
    {g : α → List Piece} {xs : List α} (h : ∀ x ∈ xs, (params (g x)).length = width) (k n : Nat) :
    Chunk.written style (chunks (k + n * width) (separated separator (xs.map g))) =
      separator.intercalate ((xs.zipIdx n).map fun x =>
        Chunk.written style (chunks (k + x.2 * width) (g x.1))) := by
  induction xs generalizing n with
  | nil => rfl
  | cons x xs ih =>
    obtain ⟨hx, hxs⟩ := List.forall_mem_cons.1 h
    cases xs with
    | nil => simp [separated]
    | cons y xs =>
      have hnext : k + n * width + width = k + (n + 1) * width := by
        rw [Nat.succ_mul, Nat.add_assoc]
      have ih := ih hxs (n + 1)
      simp only [List.map_cons, List.zipIdx_cons, String.intercalate_cons_cons] at ih ⊢
      rw [separated, chunks_append, hx, chunks, Chunk.written_append, Chunk.written, hnext, ih,
        ← String.append_assoc]
      · rfl
      · simp

/-- **Separated parts that bind equally many values each**: the ordinals of a part start where its
place among them says. -/
theorem written_separated_map (style : PlaceholderStyle) (separator : String) (width : Nat)
    {g : α → List Piece} {xs : List α} (h : ∀ x ∈ xs, (params (g x)).length = width) (k : Nat) :
    Chunk.written style (chunks k (separated separator (xs.map g))) =
      separator.intercalate (xs.zipIdx.map fun x =>
        Chunk.written style (chunks (k + x.2 * width) (g x.1))) := by
  have hfrom := written_separated_from style separator h k 0
  rwa [Nat.zero_mul, Nat.add_zero] at hfrom

end Piece

namespace Compiler

variable {c : Compiler} {columns : List String} {records : List Record} {r : Record}

theorem params_columnPieces (c : Compiler) (columns : List String) :
    Piece.params (c.columnPieces columns) = [] := by
  rw [Piece.params_eq, bindings_columnPieces]
  rfl

theorem written_columnPieces (c : Compiler) (columns : List String) (k : Nat) :
    Chunk.written c.placeholder (Piece.chunks k (c.columnPieces columns)) =
      c.namesText columns := by
  have hname (name : String × Nat) : Chunk.written c.placeholder
      (Piece.chunks (k + name.2 * 0) [.text (c.quoteIdentifier name.1)]) =
        c.quoteIdentifier name.1 :=
    String.append_empty
  rw [columnPieces, Piece.written_separated_map _ _ 0 fun _ _ => rfl, namesText]
  simp only [hname]
  rw [← Function.comp_def c.quoteIdentifier, ← List.map_map, List.zipIdx_map_fst]

theorem params_rowPieces (columns : List String) (r : Record) :
    Piece.params (rowPieces columns r) = columns.map fun name => (r.get? name).getD .null := by
  rw [rowPieces, Piece.params, Piece.params_append, Piece.params_separated_map]
  simp [Piece.params, List.map_eq_flatMap]

/-- A row is written in as many placeholders as there are columns. -/
theorem written_rowPieces (style : PlaceholderStyle) (columns : List String) (r : Record)
    (k : Nat) : Chunk.written style (Piece.chunks k (rowPieces columns r)) =
      rowText style k columns.length := by
  have hvalue (name : String × Nat) : Chunk.written style
      (Piece.chunks (k + name.2 * 1) [.bound ((r.get? name.1).getD .null)]) =
        style.write (k + name.2 + 1) := by
    rw [Nat.mul_one]
    exact String.append_empty
  rw [rowPieces, Piece.chunks, Piece.chunks_append, Chunk.written, Chunk.written_append,
    Piece.written_separated_map _ _ 1 fun _ _ => rfl]
  simp only [hvalue]
  rw [map_snd_zipIdx fun j => style.write (k + j + 1), rowText, String.append_assoc]
  rfl

theorem params_rowsPieces (columns : List String) (records : List Record) :
    Piece.params (rowsPieces columns records) =
      records.flatMap fun r => columns.map fun name => (r.get? name).getD .null := by
  rw [rowsPieces, Piece.params_separated_map]
  simp only [params_rowPieces]

theorem written_rowsPieces (style : PlaceholderStyle) (columns : List String)
    (records : List Record) (k : Nat) :
    Chunk.written style (Piece.chunks k (rowsPieces columns records)) =
      rowsText style k records.length columns.length := by
  rw [rowsPieces, Piece.written_separated_map _ _ columns.length fun r _ => by
    rw [params_rowPieces, List.length_map]]
  simp only [written_rowPieces]
  rw [map_snd_zipIdx fun i => rowText style (k + i * columns.length) columns.length, rowsText]

/-! ## Nodes -/

/-- The text and the values of an insert. -/
theorem insert_of_pieces {parts : List Piece} (h : c.insertPieces records = .ok parts) (k : Nat) :
    Chunk.written c.placeholder (Piece.chunks k parts) = c.recordText k (.insert records) ∧
      Piece.params parts = records.flatMap fun r =>
        (Fragment.insert records).columns.map fun name => (r.get? name).getD .null := by
  rw [insertPieces] at h
  split at h
  · cases h
  · rename_i columns hcolumns
    obtain ⟨first, rest, rfl, rfl, -⟩ := exists_of_sharedColumns hcolumns
    cases h
    refine ⟨?_, ?_⟩
    · simp only [Piece.chunks, Chunk.written, Piece.chunks_append, Chunk.written_append,
        params_columnPieces, List.length_nil, Nat.add_zero, written_columnPieces,
        written_rowsPieces, recordText, Fragment.columns, Chunk.write, String.append_assoc]
    · simp only [Piece.params, Piece.params_append, params_columnPieces, params_rowsPieces,
        List.nil_append]
      rfl

theorem values_of_pieces {table : String} {parts : List Piece}
    (h : c.valuesPieces records table = .ok parts) (k : Nat) :
    Chunk.written c.placeholder (Piece.chunks k parts) = c.recordText k (.values records table) ∧
      Piece.params parts = records.flatMap fun r =>
        (Fragment.values records table).columns.map fun name => (r.get? name).getD .null := by
  rw [valuesPieces] at h
  split at h
  · cases h
  · rename_i columns hcolumns
    obtain ⟨first, rest, rfl, rfl, -⟩ := exists_of_sharedColumns hcolumns
    cases h
    refine ⟨?_, ?_⟩
    · simp only [Piece.chunks, Chunk.written, Piece.chunks_append, Chunk.written_append,
        written_rowsPieces, written_columnPieces, recordText, Fragment.columns, Chunk.write,
        String.append_assoc, String.append_empty]
    · simp only [Piece.params, Piece.params_append, params_columnPieces, params_rowsPieces,
        List.append_nil]
      rfl

theorem update_of_pieces {omitted : List String} {parts : List Piece} (hr : r.Built)
    (h : c.updatePieces r omitted = .ok parts) (k : Nat) :
    Chunk.written c.placeholder (Piece.chunks k parts) = c.recordText k (.update r omitted) ∧
      Piece.params parts =
        (Fragment.update r omitted).columns.map fun name => (r.get? name).getD .null := by
  have hcolumns : (Fragment.update r omitted).columns =
      (r.entries.filter fun e => !omitted.contains e.1).map Prod.fst := List.filter_map
  have hentry : ∀ e ∈ r.entries.filter fun e => !omitted.contains e.1, r.get? e.1 = some e.2 :=
    fun e he => hr.get?_eq_some_iff.2 (List.mem_of_mem_filter he)
  rw [updatePieces] at h
  split at h
  · cases h
  · cases h
    rw [recordText, hcolumns]
    -- from here on it does not matter which entries an update keeps
    generalize r.entries.filter _ = kept at hentry
    have hvalue (e : (String × Value) × Nat) : Chunk.written c.placeholder
        (Piece.chunks (k + e.2 * 1)
          [.text (c.quoteIdentifier e.1.1), .text " = ", .bound e.1.2]) =
        c.quoteIdentifier e.1.1 ++ " = " ++ c.placeholder.write (k + e.2 + 1) := by
      simp [Piece.chunks, Chunk.written, Chunk.write, String.append_assoc]
    refine ⟨?_, ?_⟩
    · rw [Piece.written_separated_map _ _ 1 fun _ _ => rfl, List.zipIdx_map, List.map_map]
      simp only [hvalue]
      rfl
    · rw [Piece.params_separated_map, List.map_map]
      calc kept.flatMap (fun e => [e.2])
        _ = kept.map Prod.snd := List.map_eq_flatMap.symm
        _ = kept.map ((fun name => (r.get? name).getD .null) ∘ Prod.fst) :=
          List.map_congr_left fun e he => by simp [hentry e he]

/-- **A node that writes records** writes its text, and binds row by row what each record has in its
columns. -/
theorem record_of_pieces {g : Fragment} {parts : List Piece} (hrecords : g.records ≠ [])
    (hbuilt : ∀ r ∈ g.records, r.Built) (h : c.pieces g = .ok parts) (k : Nat) :
    Chunk.written c.placeholder (Piece.chunks k parts) = c.recordText k g ∧
      Piece.params parts = g.records.flatMap fun r =>
        g.columns.map fun name => (r.get? name).getD .null := by
  cases g with
  | insert records =>
    rw [pieces] at h
    exact insert_of_pieces h k
  | values rows table =>
    rw [pieces, tablePieces] at h
    split at h
    · exact values_of_pieces h k
    · exact values_of_pieces h k
    · cases h
    · cases h
  | update r omitted =>
    rw [pieces] at h
    obtain ⟨htext, hvalues⟩ := update_of_pieces (hbuilt r List.mem_cons_self) h k
    exact ⟨htext, hvalues.trans (List.append_nil _).symm⟩
  | _ => exact absurd rfl hrecords

theorem not_faulty_of_pieces {g : Fragment} {parts : List Piece} (hbuilt : ∀ r ∈ g.records, r.Built)
    (h : c.pieces g = .ok parts) : ¬ g.Faulty c.dialect := by
  have hself : g ∈ g.nodes := by
    cases g <;> simp [Fragment.nodes]
  have hwalk : g.nodes.findSome? (Fragment.fault? c.dialect) = none := by
    rw [← failure_pieces, h, failure?]
  rw [Fragment.faulty_iff hbuilt]
  rintro ⟨e, he⟩
  rw [← Fragment.fault_eq_some_iff hbuilt, List.findSome?_eq_none_iff.1 hwalk g hself] at he
  cases he

end Compiler

namespace Fragment

variable {g : Fragment} {d : Dialect}

/-- A node without fault writes, of each of its records, all columns that are not omitted. -/
theorem mem_columns_iff (h : ¬ g.Faulty d) : ∀ r ∈ g.records, ∀ name,
    name ∈ g.columns ↔ name ∈ r.columns ∧ name ∉ g.omitted := by
  have hshared {first : Record} {rest : List Record} (h : ¬ Malformed (first :: rest)) :
      ∀ r ∈ first :: rest, ∀ name, name ∈ first.columns ↔ name ∈ r.columns ∧ name ∉ [] := by
    simp only [Malformed, not_or, not_exists, not_and, not_not] at h
    intro r hr name
    rcases List.mem_cons.1 hr with rfl | hr
    · simp
    · simpa using (h.2 r hr name).symm
  cases g with
  | insert records =>
    cases records with
    | nil => exact absurd trivial h
    | cons first rest => exact hshared h
  | values rows table =>
    cases rows with
    | nil => exact absurd (.inr (.inr trivial)) h
    | cons first rest => exact hshared fun hbad => h (.inr (.inr hbad))
  | update r omitted =>
    intro r' hr' name
    rw [List.mem_singleton.1 hr', columns, List.mem_filter]
    simp [Fragment.omitted]
  | _ => exact fun r hr => absurd hr List.not_mem_nil

theorem nodup_columns (hbuilt : ∀ r ∈ g.records, r.Built) : g.columns.Nodup := by
  cases g with
  | insert records =>
    cases records with
    | nil => exact List.nodup_nil
    | cons first rest => exact (hbuilt first List.mem_cons_self).nodup
  | values rows table =>
    cases rows with
    | nil => exact List.nodup_nil
    | cons first rest => exact (hbuilt first List.mem_cons_self).nodup
  | update r omitted => exact (hbuilt r List.mem_cons_self).nodup.filter _
  | _ => exact List.nodup_nil

end Fragment

/-! ## Records in another order -/

namespace Compiler

section Reordering

variable {c : Compiler} {first : Record} {rest rest' : List Record} {columns : List String}
  (hbuilt : ∀ r ∈ rest, r.Built)
  (hperm : List.Forall₂ (fun r r' => r'.entries.Perm r.entries) rest rest')

include hbuilt hperm

theorem firstMismatch_of_perm (row : Nat) (h : firstMismatch columns row rest = none) :
    firstMismatch columns row rest' = none := by
  induction hperm generalizing row with
  | nil => rfl
  | cons hr _ ih =>
    obtain ⟨hfirst, hbuilt⟩ := List.forall_mem_cons.1 hbuilt
    rw [firstMismatch] at h ⊢
    rw [hfirst.hasColumns_of_perm hr]
    split at h
    case isTrue hcolumns => rw [if_pos hcolumns, ih hbuilt _ h]
    case isFalse => cases h

theorem sharedColumns_of_perm (h : sharedColumns (first :: rest) = .ok columns) :
    sharedColumns (first :: rest') = .ok columns := by
  rw [sharedColumns] at h ⊢
  split at h
  case isTrue => cases h
  case isFalse hsome =>
    rw [if_neg hsome]
    split at h
    case h_1 => cases h
    case h_2 hnone =>
      rw [firstMismatch_of_perm hbuilt hperm 1 hnone]
      exact h

theorem rowsPieces_of_perm (columns : List String) :
    rowsPieces columns (first :: rest') = rowsPieces columns (first :: rest) := by
  have hrows : rest'.map (rowPieces columns) = rest.map (rowPieces columns) := by
    induction hperm with
    | nil => rfl
    | cons hr _ ih =>
      obtain ⟨hfirst, hbuilt⟩ := List.forall_mem_cons.1 hbuilt
      rw [List.map_cons, List.map_cons, ih hbuilt]
      simp only [rowPieces, hfirst.get?_of_perm hr]
  rw [rowsPieces, rowsPieces, List.map_cons, List.map_cons, hrows]

theorem insertPieces_of_perm {parts : List Piece}
    (h : c.insertPieces (first :: rest) = .ok parts) :
    c.insertPieces (first :: rest') = .ok parts := by
  rw [insertPieces] at h ⊢
  split at h
  · cases h
  · rename_i columns hcolumns
    rw [sharedColumns_of_perm hbuilt hperm hcolumns]
    rwa [← rowsPieces_of_perm hbuilt hperm] at h

theorem valuesPieces_of_perm {table : String} {parts : List Piece}
    (h : c.valuesPieces (first :: rest) table = .ok parts) :
    c.valuesPieces (first :: rest') table = .ok parts := by
  rw [valuesPieces] at h ⊢
  split at h
  · cases h
  · rename_i columns hcolumns
    rw [sharedColumns_of_perm hbuilt hperm hcolumns]
    rwa [← rowsPieces_of_perm hbuilt hperm] at h

end Reordering

variable {c : Compiler} {g g' : Fragment} {parts : List Piece}

/-- **Later records are read by name**, so the order of their columns is not seen. -/
theorem pieces_of_reordered (hbuilt : ∀ r ∈ g.records, r.Built) (hg : g.Reordered g')
    (h : c.pieces g = .ok parts) : c.pieces g' = .ok parts := by
  cases hg with
  | insert hperm =>
    rw [pieces] at h ⊢
    exact insertPieces_of_perm (List.forall_mem_cons.1 hbuilt).2 hperm h
  | values hperm =>
    rw [pieces, tablePieces] at h ⊢
    have hrest := (List.forall_mem_cons.1 hbuilt).2
    split at h
    · exact valuesPieces_of_perm hrest hperm h
    · exact valuesPieces_of_perm hrest hperm h
    · cases h
    · cases h

theorem itemPieces_congr (h : c.pieces g = c.pieces g') (before after : List Fragment) :
    c.itemPieces (before ++ g :: after) = c.itemPieces (before ++ g' :: after) := by
  induction before with
  | nil => rw [List.nil_append, List.nil_append, itemPieces, itemPieces, h]
  | cons f before ih => rw [List.cons_append, List.cons_append, itemPieces, itemPieces, ih]

/-- A context writes alike what is flattened alike. -/
theorem compile_plug_congr (h : c.pieces g = c.pieces g') (K : Fragment.Context) :
    c.compile (K.plug g) = c.compile (K.plug g') := by
  have hpieces : c.pieces (K.plug g) = c.pieces (K.plug g') := by
    induction K with
    | here => exact h
    | item separator before K after parenthesized ih =>
      rw [Fragment.Context.plug, Fragment.Context.plug, pieces, pieces, itemPieces_congr ih]
  rw [compile, compile, hpieces]

/-- **Every value in its column.** A node that writes records, anywhere in a tree that compiles,
writes the columns of its first record, or those that an update does not omit. Its values are those
of the records, row by row and each in its column; none is lost and none made up. Its placeholders
count on from the values before it, in rows of one width. In records after the first, the order of
columns does not show. -/
theorem record_values_in_columns {K : Fragment.Context} {stmt : Compiled}
    (hrecords : g.records ≠ []) (hbuilt : ∀ r ∈ g.records, r.Built)
    (h : c.compile (K.plug g) = .ok stmt) :
    (∃ before after values,
      stmt.sql = before ++ c.recordText (K.offset c.dialect) g ++ after ∧
      stmt.params = (K.earlier c.dialect).flatMap Binding.values ++ values ++
        (K.later c.dialect).flatMap Binding.values ∧
      g.Tabled values) ∧
    ∀ g', g.Reordered g' → c.compile (K.plug g') = .ok stmt := by
  obtain ⟨parts, hparts, rfl⟩ := compile_eq_ok_iff.1 h
  obtain ⟨left, inner, right, hinner, rfl, hleft, hright⟩ := pieces_plug hparts
  refine ⟨?_, fun g' hg' => ?_⟩
  · obtain ⟨htext, hvalues⟩ := record_of_pieces hrecords hbuilt hinner (K.offset c.dialect)
    have hbefore : Piece.params left = (K.earlier c.dialect).flatMap Binding.values := by
      rw [Piece.params_eq, hleft]
    refine ⟨Chunk.written c.placeholder (Piece.chunks 0 left), Chunk.written c.placeholder
      (Piece.chunks (0 + (Piece.params (left ++ inner)).length) right), Piece.params inner,
      ?_, ?_, ?_⟩
    · have hoffset : 0 + (Piece.params left).length = K.offset c.dialect := by
        rw [hbefore, Nat.zero_add, Fragment.Context.offset]
      rw [Piece.chunks_append, Piece.chunks_append, Chunk.written_append, Chunk.written_append,
        hoffset, htext]
    · rw [Piece.params_append, Piece.params_append, hbefore, Piece.params_eq right, hright]
    · exact Fragment.tabled_of_rows hbuilt (Fragment.nodup_columns hbuilt)
        (Fragment.mem_columns_iff (not_faulty_of_pieces hbuilt hinner)) hvalues
  · rw [← compile_plug_congr (hinner.trans (pieces_of_reordered hbuilt hg' hinner).symm), h]

/-- A record whose columns were set in this order. -/
def al : Record := (Record.empty.set "id" (.int 1)).set "name" (.text "Al")

/-- A record whose name came first, and whose number was set twice. -/
def bo : Record := ((Record.empty.set "name" (.text "Bo")).set "id" (.int 0)).set "id" (.int 2)

/-- The same columns in the order of the other record. -/
def boByNumber : Record := ⟨[("id", .int 2), ("name", .text "Bo")]⟩

/-- The record of a document. -/
def cy : Record := ⟨[("id", .int 3), ("name", .text "Cy")]⟩

/-- What stands around an insert: a value before it, and text after it. -/
def aroundInsert : Fragment.Context :=
  .item "" [.raw "WITH n AS (SELECT ", .param (.int 7), .raw ") INSERT INTO people "] .here
    [.raw " RETURNING id"] false

/-- Three people, each in the columns of the first, whichever way the second is put. -/
theorem record_values_in_columns_people :
    (Fragment.insert [al, bo, cy]).records ≠ [] ∧
    (∀ r ∈ (Fragment.insert [al, bo, cy]).records, r.Built) ∧
    (ofDialect .postgres).compile (aroundInsert.plug (.insert [al, bo, cy])) = .ok
      ⟨"WITH n AS (SELECT $1) INSERT INTO people (\"id\", \"name\") " ++
          "VALUES ($2, $3), ($4, $5), ($6, $7) RETURNING id",
        [.int 7, .int 1, .text "Al", .int 2, .text "Bo", .int 3, .text "Cy"]⟩ ∧
    (∃ values, (Fragment.insert [al, bo, cy]).Tabled values) ∧
    (ofDialect .postgres).compile (aroundInsert.plug (.insert [al, boByNumber, cy])) =
      (ofDialect .postgres).compile (aroundInsert.plug (.insert [al, bo, cy])) := by
  have hbuilt : ∀ r ∈ (Fragment.insert [al, bo, cy]).records, r.Built := by
    have hal : al.Built := (Record.built_empty.set ..).set ..
    have hbo : bo.Built := ((Record.built_empty.set ..).set ..).set ..
    have hcy : Record.ofJson (.object [("id", .ofInt 3), ("name", .string "Cy")]) = .ok cy := rfl
    simpa [Fragment.records] using ⟨hal, hbo, Record.built_of_ofJson hcy⟩
  have hrecords : (Fragment.insert [al, bo, cy]).records ≠ [] := List.cons_ne_nil _ _
  have h : (ofDialect .postgres).compile (aroundInsert.plug (.insert [al, bo, cy])) = .ok
      ⟨"WITH n AS (SELECT $1) INSERT INTO people (\"id\", \"name\") " ++
          "VALUES ($2, $3), ($4, $5), ($6, $7) RETURNING id",
        [.int 7, .int 1, .text "Al", .int 2, .text "Bo", .int 3, .text "Cy"]⟩ := rfl
  obtain ⟨⟨_, _, values, -, -, htabled⟩, hreordered⟩ := record_values_in_columns hrecords hbuilt h
  have hbo : List.Forall₂ (fun r r' : Record => r'.entries.Perm r.entries) [bo, cy]
      [boByNumber, cy] :=
    .cons (List.Perm.swap ..) (.cons (.refl _) .nil)
  refine ⟨hrecords, hbuilt, h, ⟨values, htabled⟩, ?_⟩
  rw [h, hreordered _ (.insert hbo)]

end Compiler

end SqlClient
