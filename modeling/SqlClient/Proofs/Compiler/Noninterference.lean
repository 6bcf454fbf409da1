import SqlClient.Proofs.Compiler.Bindings
/-!
# Compiler — bound values leave the text alone

Two fragments have the same shape if they differ in bound values only: lists keep their lengths and
records their columns. An `Outline` is a piece without its values, and fragments of one shape are
flattened into the same outlines or refused with the same fault (`agree_pieces`). Since chunks are
settled by outlines, no bound value has a say in the text of a statement
(`compile_of_sameShape`).
-/

namespace SqlClient

namespace Fragment

/-! ## Shapes -/

mutual

/-- Fragments that differ in bound values only. -/
inductive SameShape : Fragment → Fragment → Prop
  | raw (sql : String) : SameShape (.raw sql) (.raw sql)
  | ident (name : String) : SameShape (.ident name) (.ident name)
  | param (v w : Value) : SameShape (.param v) (.param w)
  | list {items items' : List Fragment} (separator : String) (parenthesized : Bool) :
      SameShapes items items' →
      SameShape (.list separator items parenthesized) (.list separator items' parenthesized)
  | insert {records records' : List Record} :
      records.map Record.columns = records'.map Record.columns →
      SameShape (.insert records) (.insert records')
  | update {r r' : Record} (omitted : List String) :
      r.columns = r'.columns → SameShape (.update r omitted) (.update r' omitted)
  | array {items items' : List Value} :
      items.length = items'.length → SameShape (.array items) (.array items')
  | json (doc doc' : Json) : SameShape (.json doc) (.json doc')
  | values {rows rows' : List Record} (table : String) :
      rows.map Record.columns = rows'.map Record.columns →
      SameShape (.values rows table) (.values rows' table)
  | spliced {params params' : List Value} (sql : String) :
      params.length = params'.length → SameShape (.spliced sql params) (.spliced sql params')

/-- Fragments that have the same shape one by one. -/
inductive SameShapes : List Fragment → List Fragment → Prop
  | nil : SameShapes [] []
  | cons {f g : Fragment} {fs gs : List Fragment} :
      SameShape f g → SameShapes fs gs → SameShapes (f :: fs) (g :: gs)

end

end Fragment

/-! ## Outlines -/

namespace Piece

/-- A piece without its values: its text, if it has one, and how many values it takes. -/
def outline : Piece → Option String × Nat
  | .text sql => (some sql, 0)
  | .bound _ => (none, 1)
  | .spliced sql vs => (some sql, vs.length)

/-- The outlines of pieces. -/
def outlines (parts : List Piece) : List (Option String × Nat) := parts.map outline

@[simp] theorem outlines_cons (part : Piece) (parts : List Piece) :
    outlines (part :: parts) = part.outline :: outlines parts := rfl

@[simp] theorem outlines_append (xs ys : List Piece) :
    outlines (xs ++ ys) = outlines xs ++ outlines ys :=
  List.map_append

/-- The chunks that an outline stands for behind `k` values. -/
def outlineChunk (k : Nat) : Option String × Nat → Chunk
  | (some sql, _) => .text sql
  | (none, _) => .placeholder (k + 1)

theorem chunks_cons (k : Nat) (part : Piece) (parts : List Piece) :
    chunks k (part :: parts) = outlineChunk k part.outline :: chunks (k + part.outline.2) parts := by
  cases part <;> rfl

theorem length_params_cons (part : Piece) (parts : List Piece) :
    (params (part :: parts)).length = part.outline.2 + (params parts).length := by
  cases part with
  | text sql => exact (Nat.zero_add _).symm
  | bound v => exact Nat.add_comm _ _
  | spliced sql vs => exact List.length_append

/-- **Outlines settle what is written** and how many values go with it. -/
theorem chunks_eq_of_outlines {xs ys : List Piece} (h : outlines xs = outlines ys) (k : Nat) :
    chunks k xs = chunks k ys ∧ (params xs).length = (params ys).length := by
  induction xs generalizing ys k with
  | nil =>
    rw [List.map_eq_nil_iff.1 h.symm]
    exact ⟨rfl, rfl⟩
  | cons x xs ih =>
    cases ys with
    | nil => cases h
    | cons y ys =>
      rw [outlines_cons, outlines_cons, List.cons_eq_cons] at h
      obtain ⟨hhead, htail⟩ := h
      obtain ⟨hchunks, hparams⟩ := ih htail (k + y.outline.2)
      rw [chunks_cons, chunks_cons, length_params_cons, length_params_cons, hhead, hchunks, hparams]
      exact ⟨rfl, rfl⟩

/-- Parts of the same outlines are separated into the same outlines. -/
theorem outlines_separated {parts parts' : List (List Piece)} (separator : String)
    (h : parts.map outlines = parts'.map outlines) :
    outlines (separated separator parts) = outlines (separated separator parts') := by
  induction parts generalizing parts' with
  | nil => rw [List.map_eq_nil_iff.1 h.symm]
  | cons part rest ih =>
    cases parts' with
    | nil => cases h
    | cons part' rest' =>
      rw [List.map_cons, List.map_cons, List.cons_eq_cons] at h
      obtain ⟨hhead, htail⟩ := h
      have ih := ih htail
      cases rest with
      | nil =>
        rw [List.map_eq_nil_iff.1 htail.symm]
        exact hhead
      | cons next rest =>
        cases rest' with
        | nil => cases htail
        | cons next' rest' => simp [separated, hhead, ih]

/-- Equally many parts whose outlines are all the same are separated into the same outlines. -/
theorem outlines_separated_map {α : Type} (separator : String) {g : α → List Piece} {xs ys : List α}
    (hg : ∀ x y, outlines (g x) = outlines (g y)) (h : xs.length = ys.length) :
    outlines (separated separator (xs.map g)) = outlines (separated separator (ys.map g)) := by
  refine outlines_separated separator (List.ext_getElem (by simpa using h) fun i hi hi' => ?_)
  simp only [List.getElem_map]
  exact hg _ _

end Piece

/-! ## Records of the same columns -/

theorem Record.hasColumns_congr {r r' : Record} (h : r.columns = r'.columns)
    (columns : List String) : r.hasColumns columns = r'.hasColumns columns := by
  have hsize : r.size = r'.size := by
    have := congrArg List.length h
    simpa [Record.columns, Record.size] using this
  have hget : (fun name => (r.get? name).isSome) = fun name => (r'.get? name).isSome := by
    funext name
    rw [Bool.eq_iff_iff, Record.isSome_get?_iff, Record.isSome_get?_iff, h]
  rw [Record.hasColumns, Record.hasColumns, hsize, hget]

theorem firstMismatch_congr {records records' : List Record}
    (h : records.map Record.columns = records'.map Record.columns) (columns : List String)
    (row : Nat) : firstMismatch columns row records = firstMismatch columns row records' := by
  induction records generalizing records' row with
  | nil => rw [List.map_eq_nil_iff.1 h.symm]
  | cons r rest ih =>
    cases records' with
    | nil => cases h
    | cons r' rest' =>
      rw [List.map_cons, List.map_cons, List.cons_eq_cons] at h
      obtain ⟨hhead, htail⟩ := h
      rw [firstMismatch, firstMismatch, Record.hasColumns_congr hhead, ih htail, hhead]

/-- The check of records looks at their columns only, and so do its complaints. -/
theorem sharedColumns_congr {records records' : List Record}
    (h : records.map Record.columns = records'.map Record.columns) :
    sharedColumns records = sharedColumns records' := by
  cases records with
  | nil => rw [List.map_eq_nil_iff.1 h.symm]
  | cons r rest =>
    cases records' with
    | nil => cases h
    | cons r' rest' =>
      rw [List.map_cons, List.map_cons, List.cons_eq_cons] at h
      obtain ⟨hhead, htail⟩ := h
      have hempty : r.isEmpty = r'.isEmpty := by
        have := congrArg List.isEmpty hhead
        simpa [Record.columns, Record.isEmpty] using this
      rw [sharedColumns, sharedColumns, hempty, hhead, firstMismatch_congr htail]

/-! ## Flattening -/

/-- Two outcomes agree in a view of their results: both are refused with the same fault, or both
have results that look the same. -/
def Outcome.Agree {α β : Type} (view : α → β) (x y : Outcome α) : Prop :=
  (∃ e, x = .error e ∧ y = .error e) ∨ ∃ a b, x = .ok a ∧ y = .ok b ∧ view a = view b

namespace Compiler

open Outcome (Agree)

/-- A row is outlined by its columns. -/
theorem outlines_rowPieces (columns : List String) (r r' : Record) :
    Piece.outlines (rowPieces columns r) = Piece.outlines (rowPieces columns r') := by
  -- each column takes one value, whichever it is
  have hvalues : ∀ r r' : Record,
      (columns.map fun name => [Piece.bound ((r.get? name).getD .null)]).map Piece.outlines =
        (columns.map fun name => [Piece.bound ((r'.get? name).getD .null)]).map Piece.outlines := by
    intro r r'
    rw [List.map_map, List.map_map]
    rfl
  rw [rowPieces, rowPieces, Piece.outlines_cons, Piece.outlines_cons, Piece.outlines_append,
    Piece.outlines_append, Piece.outlines_separated ", " (hvalues r r')]

theorem outlines_rowsPieces {records records' : List Record}
    (h : records.map Record.columns = records'.map Record.columns) (columns : List String) :
    Piece.outlines (rowsPieces columns records) = Piece.outlines (rowsPieces columns records') := by
  have hlength : records.length = records'.length := by
    simpa using congrArg List.length h
  exact Piece.outlines_separated_map ", " (outlines_rowPieces columns) hlength

theorem agree_insertPieces (c : Compiler) {records records' : List Record}
    (h : records.map Record.columns = records'.map Record.columns) :
    Agree Piece.outlines (c.insertPieces records) (c.insertPieces records') := by
  rw [insertPieces, insertPieces, sharedColumns_congr h]
  cases sharedColumns records' with
  | error fault => exact .inl ⟨_, rfl, rfl⟩
  | ok columns =>
    refine .inr ⟨_, _, rfl, rfl, ?_⟩
    simp [outlines_rowsPieces h]

theorem agree_valuesPieces (c : Compiler) {rows rows' : List Record} (table : String)
    (h : rows.map Record.columns = rows'.map Record.columns) :
    Agree Piece.outlines (c.valuesPieces rows table) (c.valuesPieces rows' table) := by
  rw [valuesPieces, valuesPieces, sharedColumns_congr h]
  cases sharedColumns rows' with
  | error fault => exact .inl ⟨_, rfl, rfl⟩
  | ok columns =>
    refine .inr ⟨_, _, rfl, rfl, ?_⟩
    simp [outlines_rowsPieces h]

theorem agree_tablePieces (c : Compiler) {rows rows' : List Record} (table : String)
    (h : rows.map Record.columns = rows'.map Record.columns) :
    Agree Piece.outlines (c.tablePieces rows table) (c.tablePieces rows' table) := by
  rw [tablePieces, tablePieces]
  split
  · exact agree_valuesPieces c table h
  · exact agree_valuesPieces c table h
  · exact .inl ⟨_, rfl, rfl⟩
  · exact .inl ⟨_, rfl, rfl⟩

theorem agree_updatePieces (c : Compiler) {r r' : Record} (omitted : List String)
    (h : r.columns = r'.columns) :
    Agree Piece.outlines (c.updatePieces r omitted) (c.updatePieces r' omitted) := by
  -- what is kept is settled by the columns, so the two sides keep the same ones
  have hkept : (r.entries.filter fun e => !omitted.contains e.1).map Prod.fst =
      (r'.entries.filter fun e => !omitted.contains e.1).map Prod.fst := by
    have hfilter : ∀ entries : List (String × Value),
        (entries.filter fun e => !omitted.contains e.1).map Prod.fst =
          (entries.map Prod.fst).filter fun name => !omitted.contains name := by
      intro entries
      rw [List.filter_map]
      rfl
    rw [hfilter, hfilter]
    exact congrArg _ h
  rw [updatePieces, updatePieces]
  generalize r.entries.filter (fun e => !omitted.contains e.1) = kept at hkept ⊢
  generalize r'.entries.filter (fun e => !omitted.contains e.1) = kept' at hkept ⊢
  cases kept with
  | nil =>
    rw [List.map_eq_nil_iff.1 hkept.symm]
    exact .inl ⟨_, rfl, rfl⟩
  | cons e kept =>
    cases kept' with
    | nil => cases hkept
    | cons e' kept' =>
      refine .inr ⟨_, _, rfl, rfl, Piece.outlines_separated ", " ?_⟩
      have hview : ∀ kept : List (String × Value),
          (kept.map fun e => [Piece.text (c.quoteIdentifier e.1), .text " = ", .bound e.2]).map
              Piece.outlines =
            (kept.map Prod.fst).map fun name =>
              [(some (c.quoteIdentifier name), 0), (some " = ", 0), (none, 1)] := by
        intro kept
        rw [List.map_map, List.map_map]
        rfl
      rw [hview, hview, hkept]

theorem agree_arrayPieces (d : Dialect) {items items' : List Value}
    (h : items.length = items'.length) :
    Agree Piece.outlines (arrayPieces d items) (arrayPieces d items') := by
  have hitems : Piece.outlines (Piece.separated ", " (items.map fun v => [.bound v])) =
      Piece.outlines (Piece.separated ", " (items'.map fun v => [.bound v])) :=
    Piece.outlines_separated_map ", " (fun _ _ => rfl) h
  cases d with
  | postgres =>
    refine .inr ⟨_, _, rfl, rfl, ?_⟩
    simp [hitems]
  | sqlite => exact .inl ⟨_, rfl, rfl⟩
  | mysql => exact .inl ⟨_, rfl, rfl⟩
  | mssql => exact .inl ⟨_, rfl, rfl⟩

mutual

/-- **Fragments of one shape are flattened alike.** -/
theorem agree_pieces {c : Compiler} : ∀ {f g : Fragment}, f.SameShape g →
    Agree Piece.outlines (c.pieces f) (c.pieces g)
  | _, _, .raw sql => .inr ⟨_, _, rfl, rfl, rfl⟩
  | _, _, .ident name => .inr ⟨_, _, rfl, rfl, rfl⟩
  | _, _, .param v w => .inr ⟨_, _, rfl, rfl, rfl⟩
  | _, _, .list separator parenthesized hitems => by
    obtain ⟨e, hf, hg⟩ | ⟨parts, parts', hf, hg, hparts⟩ := agree_itemPieces hitems
    · rw [pieces, pieces, hf, hg]
      exact .inl ⟨e, rfl, rfl⟩
    · rw [pieces, pieces, hf, hg]
      refine .inr ⟨_, _, rfl, rfl, ?_⟩
      have hbody := Piece.outlines_separated separator hparts
      cases parenthesized with
      | false => exact hbody
      | true => simp [hbody]
  | _, _, .insert hcolumns => agree_insertPieces c hcolumns
  | _, _, .update omitted hcolumns => agree_updatePieces c omitted hcolumns
  | _, _, .array hlength => agree_arrayPieces c.dialect hlength
  | _, _, .json doc doc' => .inr ⟨_, _, rfl, rfl, rfl⟩
  | _, _, .values table hcolumns => agree_tablePieces c table hcolumns
  | _, _, .spliced sql hlength => .inr ⟨_, _, rfl, rfl, by simp [Piece.outlines, Piece.outline, hlength]⟩

theorem agree_itemPieces {c : Compiler} : ∀ {fs gs : List Fragment}, Fragment.SameShapes fs gs →
    Agree (List.map Piece.outlines) (c.itemPieces fs) (c.itemPieces gs)
  | _, _, .nil => .inr ⟨[], [], rfl, rfl, rfl⟩
  | _, _, .cons hhead htail => by
    rw [itemPieces, itemPieces]
    obtain ⟨e, hf, hg⟩ | ⟨part, part', hf, hg, hpart⟩ := agree_pieces (c := c) hhead
    · rw [hf, hg]
      exact .inl ⟨e, rfl, rfl⟩
    · rw [hf, hg]
      obtain ⟨e, hfs, hgs⟩ | ⟨parts, parts', hfs, hgs, hparts⟩ := agree_itemPieces (c := c) htail
      · rw [hfs, hgs]
        exact .inl ⟨e, rfl, rfl⟩
      · rw [hfs, hgs]
        refine .inr ⟨_, _, rfl, rfl, ?_⟩
        rw [List.map_cons, List.map_cons, hpart, hparts]

end

/-! ## Noninterference -/

/-- **No bound value has a say in the text.** Whatever the compiler, two fragments of one shape are
refused with the same error, or their statements have the same text and take equally many values. -/
theorem compile_of_sameShape {f g : Fragment} (h : f.SameShape g) (c : Compiler) :
    (∃ e, c.compile f = .error e ∧ c.compile g = .error e) ∨
    ∃ stmt stmt', c.compile f = .ok stmt ∧ c.compile g = .ok stmt' ∧
      stmt.sql = stmt'.sql ∧ stmt.params.length = stmt'.params.length := by
  obtain ⟨e, hf, hg⟩ | ⟨xs, ys, hf, hg, houtlines⟩ := agree_pieces (c := c) h
  · left
    refine ⟨e, ?_, ?_⟩
    · rw [compile, hf]
    · rw [compile, hg]
  · right
    obtain ⟨hchunks, hparams⟩ := Piece.chunks_eq_of_outlines houtlines 0
    refine ⟨_, _, compile_eq_ok_iff.2 ⟨xs, hf, rfl⟩, compile_eq_ok_iff.2 ⟨ys, hg, rfl⟩, ?_, hparams⟩
    rw [hchunks]

/-- Two rows of a table whose values differ, and one of them tries to end its quotes. -/
theorem compile_of_sameShape_values :
    ∃ stmt stmt',
      (ofDialect .mssql).compile (.values [⟨[("id", .int 1), ("name", .text "a")]⟩] "v") = .ok stmt ∧
      (ofDialect .mssql).compile (.values [⟨[("id", .null), ("name", .text "'); --")]⟩] "v") =
        .ok stmt' ∧ stmt.sql = stmt'.sql := by
  have hshape : Fragment.SameShape
      (.values [⟨[("id", .int 1), ("name", .text "a")]⟩] "v")
      (.values [⟨[("id", .null), ("name", .text "'); --")]⟩] "v") := .values "v" rfl
  obtain ⟨e, he, -⟩ | ⟨stmt, stmt', h, h', hsql, -⟩ := compile_of_sameShape hshape (ofDialect .mssql)
  · cases he
  · exact ⟨stmt, stmt', h, h', hsql⟩

end Compiler

/-! ## Building -/

namespace Fragment

mutual

theorem SameShape.refl : ∀ f : Fragment, f.SameShape f
  | .raw sql => .raw sql
  | .ident name => .ident name
  | .param v => .param v v
  | .list separator items parenthesized => .list separator parenthesized (SameShapes.refl items)
  | .insert _ => .insert rfl
  | .update _ omitted => .update omitted rfl
  | .array _ => .array rfl
  | .json doc => .json doc doc
  | .values _ table => .values table rfl
  | .spliced sql _ => .spliced sql rfl

theorem SameShapes.refl : ∀ fs : List Fragment, SameShapes fs fs
  | [] => .nil
  | f :: fs => .cons (SameShape.refl f) (SameShapes.refl fs)

end

mutual

/-- Whether a fragment writes anything is a matter of its shape. -/
theorem SameShape.isEmpty_eq : ∀ {f g : Fragment}, f.SameShape g → f.isEmpty = g.isEmpty
  | _, _, .raw _ => rfl
  | _, _, .ident _ => rfl
  | _, _, .param _ _ => rfl
  | _, _, .list _ _ hitems => by rw [isEmpty, isEmpty, SameShapes.allEmpty_eq hitems]
  | _, _, .insert _ => rfl
  | _, _, .update _ _ => rfl
  | _, _, .array _ => rfl
  | _, _, .json _ _ => rfl
  | _, _, .values _ _ => rfl
  | _, _, .spliced _ _ => rfl

theorem SameShapes.allEmpty_eq : ∀ {fs gs : List Fragment}, SameShapes fs gs →
    allEmpty fs = allEmpty gs
  | _, _, .nil => rfl
  | _, _, .cons hhead htail => by
    rw [allEmpty, allEmpty, SameShape.isEmpty_eq hhead, SameShapes.allEmpty_eq htail]

end

theorem SameShapes.filter_not_isEmpty {fs gs : List Fragment} (h : SameShapes fs gs) :
    SameShapes (fs.filter fun f => !f.isEmpty) (gs.filter fun g => !g.isEmpty) := by
  induction fs generalizing gs with
  | nil =>
    cases h
    exact .nil
  | cons f fs ih =>
    cases h with
    | cons hhead htail =>
      rw [List.filter_cons, List.filter_cons, hhead.isEmpty_eq]
      split
      · exact .cons hhead (ih htail)
      · exact ih htail

/-- Equally many values go into an `IN` alike. -/
theorem SameShape.inList {xs ys : List Value} (h : xs.length = ys.length) :
    (inList xs).SameShape (inList ys) := by
  have hparams : ∀ {xs ys : List Value}, xs.length = ys.length →
      SameShapes (xs.map .param) (ys.map .param) := by
    intro xs
    induction xs with
    | nil =>
      intro ys h
      rw [List.length_eq_zero_iff.1 h.symm]
      exact .nil
    | cons x xs ih =>
      intro ys h
      cases ys with
      | nil => cases h
      | cons y ys => exact .cons (.param x y) (ih (Nat.succ.inj h))
  have hempty : xs.isEmpty = ys.isEmpty := by
    rw [Bool.eq_iff_iff, List.isEmpty_iff_length_eq_zero, List.isEmpty_iff_length_eq_zero, h]
  rw [Fragment.inList, Fragment.inList, hempty]
  split
  · exact .raw _
  · exact .list ", " true (hparams h)

/-- Clauses of the same shapes are joined alike: the same ones are left out. -/
theorem SameShape.join {fs gs : List Fragment} (literal : String) (parens : Bool)
    (fallback : String) (h : SameShapes fs gs) :
    (join literal parens fallback fs).SameShape (join literal parens fallback gs) := by
  rw [Fragment.join, Fragment.join]
  have hkept := h.filter_not_isEmpty
  generalize fs.filter (fun f => !f.isEmpty) = kept at hkept ⊢
  generalize gs.filter (fun g => !g.isEmpty) = kept' at hkept ⊢
  obtain _ | ⟨hfirst, hrest⟩ := hkept
  · exact .raw fallback
  · obtain _ | ⟨hsecond, hothers⟩ := hrest
    · exact hfirst
    · exact .list literal parens (.cons hfirst (.cons hsecond hothers))

/-- Parts gathered one by one make fragments of one shape if they have the same shapes. -/
theorem SameShape.ofParts {fs gs : List Fragment} (h : SameShapes fs gs) :
    (ofParts fs).SameShape (ofParts gs) := by
  obtain _ | ⟨hfirst, hrest⟩ := h
  · exact .list "" false .nil
  · obtain _ | ⟨hsecond, hothers⟩ := hrest
    · exact hfirst
    · exact .list "" false (.cons hfirst (.cons hsecond hothers))

end Fragment

end SqlClient
