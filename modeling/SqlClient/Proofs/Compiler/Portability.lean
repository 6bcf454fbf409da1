import SqlClient.Proofs.Compiler.Faults
/-!
# Compiler — one tree for every dialect

`Fragment.slots` lists what a tree binds before a dialect has its say: values, and documents, which
some dialects carry as text. The values of a statement are these slots as the dialect carries them
(`values_bindings`), so two dialects disagree about documents and about nothing else. What a dialect
accepts grows with what it has: from SQLite and MySQL to SQL Server to Postgres (`accepts_mono`).
-/

namespace SqlClient

/-! ## Slots -/

/-- What a tree binds at one position. -/
inductive Slot
  | value (v : Value)
  | document (doc : Json)

/-- What a dialect binds for a slot. -/
def Slot.bound (d : Dialect) : Slot → Value
  | .value v => v
  | .document doc => Compiler.documentValue d doc

@[simp] theorem Slot.map_bound_value (d : Dialect) (vs : List Value) :
    (vs.map Slot.value).map (Slot.bound d) = vs := by
  rw [List.map_map]
  exact List.map_id vs

/-- The two forms in which dialects carry a document. -/
inductive Carries (d : Dialect) (doc : Json) : Value → Prop
  | json : d = .postgres ∨ d = .mysql → Carries d doc (.json doc)
  | text : d = .sqlite ∨ d = .mssql → Carries d doc (.text doc.write)

theorem carries_documentValue (d : Dialect) (doc : Json) :
    Carries d doc (Compiler.documentValue d doc) := by
  cases d with
  | postgres => exact .json (.inl rfl)
  | sqlite => exact .text (.inl rfl)
  | mysql => exact .json (.inr rfl)
  | mssql => exact .text (.inr rfl)

namespace Fragment

mutual

/-- What a fragment binds in any dialect, from left to right. -/
def slots : Fragment → List Slot
  | .raw _ => []
  | .ident _ => []
  | .param v => [.value v]
  | .list _ items _ => allSlots items
  | .insert records => ((recordBindings records).flatMap Binding.values).map .value
  | .update r omitted => (r.entries.filter fun e => !omitted.contains e.1).map fun e => .value e.2
  | .array items => items.map .value
  | .json doc => [.document doc]
  | .values rows _ => ((recordBindings rows).flatMap Binding.values).map .value
  | .spliced _ params => params.map .value

/-- What fragments bind one after another. -/
def allSlots : List Fragment → List Slot
  | [] => []
  | f :: rest => slots f ++ allSlots rest

end

theorem values_map_bound {α : Type} (g : α → Value) (xs : List α) :
    (xs.map fun x => Binding.bound (g x)).flatMap Binding.values = xs.map g := by
  rw [List.flatMap_map, List.map_eq_flatMap]
  rfl

mutual

/-- **A dialect has a say in documents only.** -/
theorem values_bindings (d : Dialect) : ∀ f : Fragment,
    (f.bindings d).flatMap Binding.values = f.slots.map (Slot.bound d)
  | .raw _ => rfl
  | .ident _ => rfl
  | .param _ => rfl
  | .list _ items _ => by
    rw [bindings, slots]
    exact values_allBindings d items
  | .insert records => by rw [bindings, slots, Slot.map_bound_value]
  | .update r omitted => by
    rw [bindings, slots, values_map_bound, List.map_map]
    rfl
  | .array items => by
    rw [bindings, slots, Slot.map_bound_value]
    exact (values_map_bound id items).trans (List.map_id items)
  | .json _ => rfl
  | .values rows _ => by rw [bindings, slots, Slot.map_bound_value]
  | .spliced _ params => by
    rw [bindings, slots, Slot.map_bound_value]
    exact List.append_nil params

theorem values_allBindings (d : Dialect) : ∀ items : List Fragment,
    (allBindings d items).flatMap Binding.values = (allSlots items).map (Slot.bound d)
  | [] => rfl
  | f :: rest => by
    rw [allBindings, allSlots, List.flatMap_append, List.map_append, values_bindings d f,
      values_allBindings d rest]

end

end Fragment

/-- How much a dialect has beyond the common ground: tables of values, then also arrays. -/
def Dialect.extent : Dialect → Nat
  | .sqlite | .mysql => 0
  | .mssql => 1
  | .postgres => 2

namespace Compiler

variable {c c' : Compiler} {f : Fragment}

theorem params_of_compile {stmt : Compiled} (h : c.compile f = .ok stmt) :
    stmt.params = f.slots.map (Slot.bound c.dialect) := by
  obtain ⟨parts, hparts, rfl⟩ := compile_eq_ok_iff.1 h
  rw [← Fragment.values_bindings, ← bindings_pieces hparts, Piece.params_eq]

/-! ## What compiles -/

/-- A compiler has a statement for a fragment. -/
def Accepts (c : Compiler) (f : Fragment) : Prop := ∃ stmt, c.compile f = .ok stmt

theorem accepts_iff : c.Accepts f ↔ ∀ g ∈ f.nodes, g.fault? c.dialect = none := by
  rw [Accepts, ← failure_eq_none_iff, failure_compile, List.findSome?_eq_none_iff]

/-- A dialect that has as much is at fault with no more nodes. -/
theorem fault_eq_none_of_extent_le {d d' : Dialect} (hd : d.extent ≤ d'.extent) {g : Fragment}
    (h : g.fault? d = none) : g.fault? d' = none := by
  cases g with
  | array items =>
    cases d <;> cases d' <;> first | rfl | exact absurd hd (by decide) | cases h
  | values rows table =>
    cases d <;> cases d' <;> first | exact h | exact absurd hd (by decide) | cases h
  | _ => exact h

/-- **What a dialect accepts grows with what it has.** -/
theorem accepts_mono (hd : c.dialect.extent ≤ c'.dialect.extent) (h : c.Accepts f) :
    c'.Accepts f :=
  accepts_iff.2 fun g hg => fault_eq_none_of_extent_le hd (accepts_iff.1 h g hg)

/-! ## Portability -/

/-- **One tree, any dialect.** Two statements of a fragment bind the same values in the same order,
except where the tree has a document, which each dialect carries in its own form. Only the dialect
settles whether a fragment compiles: SQLite and MySQL accept the same ones, SQL Server all of these
and Postgres all that SQL Server accepts. -/
theorem portable_between_dialects (f : Fragment) :
    (∀ (c c' : Compiler) (stmt stmt' : Compiled),
      c.compile f = .ok stmt → c'.compile f = .ok stmt' →
        stmt.params.length = f.slots.length ∧ stmt'.params.length = f.slots.length ∧
        (∀ (i : Nat) (v : Value), f.slots[i]? = some (.value v) →
          stmt.params[i]? = some v ∧ stmt'.params[i]? = some v) ∧
        ∀ (i : Nat) (doc : Json), f.slots[i]? = some (.document doc) →
          ∃ v v', stmt.params[i]? = some v ∧ stmt'.params[i]? = some v' ∧
            Carries c.dialect doc v ∧ Carries c'.dialect doc v') ∧
    ∀ c c' : Compiler,
      (c.dialect = c'.dialect → (c.Accepts f ↔ c'.Accepts f)) ∧
      (c.dialect = .sqlite → c'.dialect = .mysql → (c.Accepts f ↔ c'.Accepts f)) ∧
      (c.dialect = .sqlite → c'.dialect = .mssql → c.Accepts f → c'.Accepts f) ∧
      (c.dialect = .mssql → c'.dialect = .postgres → c.Accepts f → c'.Accepts f) := by
  refine ⟨fun c c' stmt stmt' h h' => ?_, fun c c' => ?_⟩
  · rw [params_of_compile h, params_of_compile h']
    refine ⟨List.length_map _, List.length_map _, fun i v hslot => ?_, fun i doc hslot => ?_⟩
    · simp only [List.getElem?_map, hslot]
      exact ⟨rfl, rfl⟩
    · simp only [List.getElem?_map, hslot]
      exact ⟨_, _, rfl, rfl, carries_documentValue _ doc, carries_documentValue _ doc⟩
  -- what a dialect accepts depends on its extent, and extents are numbers
  · have hsame (hd : c.dialect.extent = c'.dialect.extent) : c.Accepts f ↔ c'.Accepts f :=
      ⟨accepts_mono (Nat.le_of_eq hd), accepts_mono (Nat.le_of_eq hd.symm)⟩
    refine ⟨fun hd => hsame (congrArg _ hd), fun hd hd' => hsame ?_, fun hd hd' => accepts_mono ?_,
      fun hd hd' => accepts_mono ?_⟩
    · rw [hd, hd']
      rfl
    · rw [hd, hd']
      decide
    · rw [hd, hd']
      decide

/-- A value before a document. -/
def labelled : Fragment := .list ", " [.param (.int 1), .json (.object [("a", .bool true)])] false

/-- The document is a text for one database and stays a document for the other. -/
theorem portable_labelled :
    ∃ v v', (ofDialect .sqlite).compile labelled = .ok ⟨"?, ?", [.int 1, v]⟩ ∧
      (ofDialect .postgres).compile labelled = .ok ⟨"$1, $2", [.int 1, v']⟩ ∧
      Carries .sqlite (.object [("a", .bool true)]) v ∧
      Carries .postgres (.object [("a", .bool true)]) v' := by
  have h : (ofDialect .sqlite).compile labelled =
      .ok ⟨"?, ?", [.int 1, .text "\x7b\"a\":true\x7d"]⟩ := rfl
  have h' : (ofDialect .postgres).compile labelled =
      .ok ⟨"$1, $2", [.int 1, .json (.object [("a", .bool true)])]⟩ := rfl
  obtain ⟨-, -, -, hdocument⟩ := (portable_between_dialects labelled).1 _ _ _ _ h h'
  obtain ⟨v, v', hv, hv', hcarries, hcarries'⟩ := hdocument 1 _ rfl
  cases hv
  cases hv'
  exact ⟨_, _, h, h', hcarries, hcarries'⟩

end Compiler

end SqlClient
