import Mathlib.Data.List.Perm.Subperm
import SqlClient.Proofs.Compiler.Bindings
import SqlClient.Proofs.Lists
/-!
# Compiler — what is refused

A fragment is refused if a node of its tree cannot be written: records that do not go together, an
update that is left without columns, an array or a table that the dialect lacks. `Faulty` says which
nodes these are, and `Refusal` what each is refused with. The walk ends at the first of them
(`failure_pieces`), so nothing but the dialect and the tree has a say in the error
(`refuses_first_fault`).
-/

namespace SqlClient

/-- The error of an outcome, if it is one. -/
def failure? {ε α : Type} : Except ε α → Option ε
  | .error e => some e
  | .ok _ => none

theorem failure_eq_some_iff {ε α : Type} {x : Except ε α} {e : ε} :
    failure? x = some e ↔ x = .error e := by
  cases x with
  | error e' => simp [failure?]
  | ok a => simp [failure?]

theorem failure_eq_none_iff {ε α : Type} {x : Except ε α} :
    failure? x = none ↔ ∃ a, x = .ok a := by
  cases x with
  | error e => simp [failure?]
  | ok a => simp [failure?]

/-! ## Columns -/

namespace Record

variable {r first : Record}

/-- Made by setting columns one after another, as every record is. -/
def Built (r : Record) : Prop := ∃ entries, r = ofList entries

theorem map_fst_setEntry (column : String) (value : Value) (entries : List (String × Value)) :
    (setEntry column value entries).map Prod.fst =
      if column ∈ entries.map Prod.fst then entries.map Prod.fst
      else entries.map Prod.fst ++ [column] := by
  induction entries with
  | nil => rfl
  | cons e rest ih =>
    rw [setEntry]
    by_cases h : e.1 = column
    · simp [h]
    · have hne : ¬ column = e.1 := fun h' => h h'.symm
      rw [if_neg h, List.map_cons, ih, List.map_cons]
      simp only [List.mem_cons, hne, false_or]
      split <;> rfl

theorem nodup_set (column : String) (value : Value) (h : r.columns.Nodup) :
    (r.set column value).columns.Nodup := by
  rw [columns, set, map_fst_setEntry]
  exact nodup_addNew h column

/-- No column is set in two places. -/
theorem Built.nodup (h : r.Built) : r.columns.Nodup := by
  obtain ⟨entries, rfl⟩ := h
  have hfold : ∀ r : Record, r.columns.Nodup →
      (entries.foldl (fun r e => r.set e.1 e.2) r).columns.Nodup := by
    induction entries with
    | nil => exact fun _ hr => hr
    | cons e rest ih => exact fun r hr => ih _ (nodup_set e.1 e.2 hr)
  exact hfold empty List.nodup_nil

/-- Records of the same columns, in whatever order. -/
def SameColumns (r first : Record) : Prop := ∀ name, name ∈ r.columns ↔ name ∈ first.columns

/-- **The check of a record compares sets of columns**: if there are as many as in the first record
and none of those is missing, there is no room for another. -/
theorem hasColumns_iff (hr : r.Built) (hfirst : first.Built) :
    r.hasColumns first.columns = true ↔ r.SameColumns first := by
  have hsize : r.size = r.columns.length := by rw [size, columns, List.length_map]
  rw [hasColumns, Bool.and_eq_true, beq_iff_eq, List.all_eq_true, hsize]
  constructor
  · rintro ⟨hlength, hall⟩
    have hsubset : first.columns ⊆ r.columns :=
      fun name hname => isSome_get?_iff.1 (hall name hname)
    have hperm : first.columns.Perm r.columns :=
      (List.subperm_of_subset hfirst.nodup hsubset).perm_of_length_le (Nat.le_of_eq hlength)
    exact fun name => hperm.mem_iff.symm
  · intro hsame
    have hperm : r.columns.Perm first.columns :=
      (List.perm_ext_iff_of_nodup hr.nodup hfirst.nodup).2 hsame
    exact ⟨hperm.length_eq, fun name hname => isSome_get?_iff.2 ((hsame name).2 hname)⟩

end Record

/-! ## Records of a helper -/

/-- Records that a helper cannot write: there are none, the first is empty, or another has columns
of its own. -/
def Malformed : List Record → Prop
  | [] => True
  | first :: rest => first.columns = [] ∨ ∃ r ∈ rest, ¬ r.SameColumns first

/-- What is wrong with records: of several that differ from the first, the first one counts. -/
inductive RecordFault.In : RecordFault → List Record → Prop
  | noRecords : In .noRecords []
  | noColumns {first : Record} {rest : List Record} :
      first.columns = [] → In .noColumns (first :: rest)
  | mismatch {first r : Record} {before after : List Record} :
      first.columns ≠ [] → (∀ r' ∈ before, r'.SameColumns first) → ¬ r.SameColumns first →
      In (.mismatch (before.length + 1) r.columns first.columns) (first :: (before ++ r :: after))

section Records

variable {records : List Record} {fault : RecordFault}

theorem firstMismatch_eq_some_iff {columns : List String} {row : Nat} :
    firstMismatch columns row records = some fault ↔
      ∃ before r after, records = before ++ r :: after ∧
        (∀ r' ∈ before, r'.hasColumns columns = true) ∧ ¬ r.hasColumns columns = true ∧
        fault = .mismatch (before.length + row) r.columns columns := by
  fun_induction firstMismatch columns row records with
  | case1 => simp
  | case2 row r rest hr ih =>
    rw [ih]
    constructor
    · rintro ⟨before, r', after, rfl, hbefore, hr', rfl⟩
      refine ⟨r :: before, r', after, rfl, ?_, hr', ?_⟩
      · exact List.forall_mem_cons.2 ⟨hr, hbefore⟩
      · rw [List.length_cons, Nat.add_right_comm, Nat.add_assoc]
    · rintro ⟨before, r', after, hsplit, hbefore, hr', rfl⟩
      -- the record in front passes the check, so it is not the one at fault
      cases before with
      | nil =>
        obtain ⟨rfl, rfl⟩ := List.cons.inj hsplit
        exact absurd hr hr'
      | cons r'' before =>
        obtain ⟨rfl, rfl⟩ := List.cons.inj hsplit
        refine ⟨before, r', after, rfl, (List.forall_mem_cons.1 hbefore).2, hr', ?_⟩
        rw [List.length_cons, Nat.add_right_comm, Nat.add_assoc]
  | case3 row r rest hr =>
    rw [Option.some_inj]
    constructor
    · rintro rfl
      exact ⟨[], r, rest, rfl, by simp, hr, by simp⟩
    · rintro ⟨before, r', after, hsplit, hbefore, hr', rfl⟩
      -- the record in front fails the check, so none that passes stands before it
      cases before with
      | nil =>
        obtain ⟨rfl, rfl⟩ := List.cons.inj hsplit
        simp
      | cons r'' before =>
        obtain ⟨rfl, rfl⟩ := List.cons.inj hsplit
        exact absurd (List.forall_mem_cons.1 hbefore).1 hr

theorem sharedColumns_eq_error_iff (h : ∀ r ∈ records, r.Built) :
    sharedColumns records = .error fault ↔ fault.In records := by
  cases records with
  | nil =>
    rw [sharedColumns]
    constructor
    · rintro ⟨⟩
      exact .noRecords
    · rintro ⟨⟩
      rfl
  | cons first rest =>
    obtain ⟨hfirst, hrest⟩ := List.forall_mem_cons.1 h
    have hempty : first.isEmpty = true ↔ first.columns = [] := by
      simp [Record.isEmpty, Record.columns]
    rw [sharedColumns]
    split
    case isTrue hnone =>
      rw [hempty] at hnone
      constructor
      · rintro ⟨⟩
        exact .noColumns hnone
      · rintro (_ | _ | ⟨hsome, -, -⟩)
        · rfl
        · exact absurd hnone hsome
    case isFalse hsome =>
      rw [hempty] at hsome
      constructor
      · intro herror
        split at herror
        · rename_i fault' hfault
          cases herror
          obtain ⟨before, r, after, rfl, hbefore, hr, rfl⟩ := firstMismatch_eq_some_iff.1 hfault
          -- the check compares columns as sets, since no record has a column twice
          refine .mismatch hsome (fun r' hr' => ?_) ?_
          · exact (Record.hasColumns_iff (hrest r' (List.mem_append_left _ hr')) hfirst).1
              (hbefore r' hr')
          · rwa [← Record.hasColumns_iff (hrest r (by simp)) hfirst]
        · cases herror
      · rintro (_ | hnone | ⟨-, hbefore, hr⟩)
        · exact absurd hnone hsome
        · rename_i r before after
          have hfault : firstMismatch first.columns 1 (before ++ r :: after) =
              some (.mismatch (before.length + 1) r.columns first.columns) := by
            refine firstMismatch_eq_some_iff.2 ⟨before, r, after, rfl, fun r' hr' => ?_, ?_, rfl⟩
            · exact (Record.hasColumns_iff (hrest r' (List.mem_append_left _ hr')) hfirst).2
                (hbefore r' hr')
            · rwa [Record.hasColumns_iff (hrest r (by simp)) hfirst]
          rw [hfault]

theorem sameColumns_of_sharedColumns {first : Record} {rest : List Record} {columns : List String}
    (h : ∀ r ∈ first :: rest, r.Built) (hshared : sharedColumns (first :: rest) = .ok columns) :
    first.columns ≠ [] ∧ ∀ r ∈ rest, r.SameColumns first := by
  obtain ⟨hfirst, hrest⟩ := List.forall_mem_cons.1 h
  rw [sharedColumns] at hshared
  split at hshared
  · cases hshared
  · rename_i hsome
    split at hshared
    · cases hshared
    · rename_i hnone
      refine ⟨by simpa [Record.isEmpty, Record.columns] using hsome, fun r hr => ?_⟩
      exact (Record.hasColumns_iff (hrest r hr) hfirst).1 (hasColumns_of_firstMismatch hnone r hr)

theorem malformed_iff (h : ∀ r ∈ records, r.Built) :
    Malformed records ↔ ∃ fault : RecordFault, fault.In records := by
  constructor
  · intro hbad
    cases hshared : sharedColumns records with
    | error fault => exact ⟨fault, (sharedColumns_eq_error_iff h).1 hshared⟩
    | ok columns =>
      cases records with
      | nil => cases hshared
      | cons first rest =>
        obtain ⟨hsome, hsame⟩ := sameColumns_of_sharedColumns h hshared
        obtain hnone | ⟨r, hr, hdiffers⟩ := hbad
        · exact absurd hnone hsome
        · exact absurd (hsame r hr) hdiffers
  · rintro ⟨fault, hfault⟩
    cases hfault with
    | noRecords => trivial
    | noColumns hnone => exact .inl hnone
    | mismatch _ _ hr => exact .inr ⟨_, by simp, hr⟩

end Records

/-! ## Nodes -/

namespace Fragment

mutual

/-- A fragment and all fragments inside it, depth first from the left. -/
def nodes : Fragment → List Fragment
  | .list separator items parenthesized => .list separator items parenthesized :: allNodes items
  | f => [f]

/-- The nodes of fragments one after another. -/
def allNodes : List Fragment → List Fragment
  | [] => []
  | f :: rest => nodes f ++ allNodes rest

end

/-- The records that a node writes. -/
def records : Fragment → List Record
  | .insert records => records
  | .update r _ => [r]
  | .values rows _ => rows
  | _ => []

/-- A node that a dialect has no way to write. -/
def Faulty (d : Dialect) : Fragment → Prop
  | .insert records => Malformed records
  | .update r omitted => ∀ name ∈ r.columns, name ∈ omitted
  | .array _ => d ≠ .postgres
  | .values rows _ => d = .sqlite ∨ d = .mysql ∨ Malformed rows
  | _ => False

/-- What a dialect refuses a node with: what it lacks is unimplemented, records at fault do not
compile. -/
inductive Refusal (d : Dialect) : Fragment → Error → Prop
  | insert {records : List Record} {fault : RecordFault} :
      fault.In records → Refusal d (.insert records) (.compile (fault.message "insert"))
  | update {r : Record} {omitted : List String} : (∀ name ∈ r.columns, name ∈ omitted) →
      Refusal d (.update r omitted) (.compile "update requires at least one column")
  | array {items : List Value} : d ≠ .postgres →
      Refusal d (.array items) (.unimplemented ("array literals are not supported by " ++ d.name))
  | table {rows : List Record} {table : String} : d = .sqlite ∨ d = .mysql →
      Refusal d (.values rows table)
        (.unimplemented ("values tables are not supported by " ++ d.name))
  | values {rows : List Record} {table : String} {fault : RecordFault} :
      d = .postgres ∨ d = .mssql → fault.In rows →
      Refusal d (.values rows table) (.compile (fault.message "values table"))

/-- The error of a node itself, whatever is inside it. -/
def fault? (d : Dialect) : Fragment → Option Error
  | .insert records =>
    (failure? (sharedColumns records)).map fun fault => .compile (fault.message "insert")
  | .update r omitted =>
    if r.columns.all omitted.contains then some (.compile "update requires at least one column")
    else none
  | .array _ => if d = .postgres then none else some (Compiler.unsupported d "array literals")
  | .values rows _ =>
    if d = .sqlite ∨ d = .mysql then some (Compiler.unsupported d "values tables")
    else (failure? (sharedColumns rows)).map fun fault => .compile (fault.message "values table")
  | _ => none

variable {d : Dialect} {g : Fragment} {e : Error}

theorem map_failure_sharedColumns {rows : List Record} (h : ∀ r ∈ rows, r.Built) (what : String) :
    (failure? (sharedColumns rows)).map (fun fault => Error.compile (fault.message what)) = some e ↔
      ∃ fault : RecordFault, fault.In rows ∧ Error.compile (fault.message what) = e := by
  simp only [Option.map_eq_some_iff, failure_eq_some_iff, sharedColumns_eq_error_iff h]

/-- Faults are met where there is something to refuse. -/
theorem fault_eq_some_iff (h : ∀ r ∈ g.records, r.Built) : g.fault? d = some e ↔ g.Refusal d e := by
  cases g with
  | insert records =>
    refine (map_failure_sharedColumns h "insert").trans ?_
    constructor
    · rintro ⟨fault, hfault, rfl⟩
      exact .insert hfault
    · rintro ⟨⟩
      exact ⟨_, ‹_›, rfl⟩
  | update r omitted =>
    have hall : r.columns.all omitted.contains = true ↔ ∀ name ∈ r.columns, name ∈ omitted := by
      simp
    rw [fault?, ← Option.some_inj]
    split
    case isTrue hnone =>
      constructor
      · rintro ⟨⟩
        exact .update (hall.1 hnone)
      · rintro ⟨⟩
        rfl
    case isFalse hsome =>
      constructor
      · rintro ⟨⟩
      · rintro (_ | hnone)
        exact absurd (hall.2 hnone) hsome
  | array items =>
    rw [fault?]
    split
    case isTrue hpostgres =>
      constructor
      · rintro ⟨⟩
      · rintro ⟨⟩
        contradiction
    case isFalse hother =>
      constructor
      · rintro ⟨⟩
        exact .array hother
      · rintro ⟨⟩
        rfl
  | values rows table =>
    rw [fault?]
    split
    case isTrue hlacks =>
      constructor
      · rintro ⟨⟩
        exact .table hlacks
      · rintro (_ | _ | _ | _ | ⟨hhas, -⟩)
        · rfl
        · rcases hlacks with rfl | rfl <;> simp at hhas
    case isFalse hhas =>
      -- only a dialect that has tables looks at the records
      refine (map_failure_sharedColumns h "values table").trans ?_
      constructor
      · rintro ⟨fault, hfault, rfl⟩
        refine .values ?_ hfault
        cases d <;> simp at hhas ⊢
      · rintro (_ | _ | _ | hlacks | ⟨-, hfault⟩)
        · exact absurd hlacks hhas
        · exact ⟨_, hfault, rfl⟩
  | raw sql => exact ⟨nofun, nofun⟩
  | ident name => exact ⟨nofun, nofun⟩
  | param v => exact ⟨nofun, nofun⟩
  | list separator items parenthesized => exact ⟨nofun, nofun⟩
  | json doc => exact ⟨nofun, nofun⟩
  | spliced sql params => exact ⟨nofun, nofun⟩

/-- The nodes at fault are those that are refused. -/
theorem faulty_iff (h : ∀ r ∈ g.records, r.Built) : g.Faulty d ↔ ∃ e, g.Refusal d e := by
  constructor
  · intro hfaulty
    cases g with
    | insert records =>
      obtain ⟨fault, hfault⟩ := (malformed_iff h).1 hfaulty
      exact ⟨_, .insert hfault⟩
    | update r omitted => exact ⟨_, .update hfaulty⟩
    | array items => exact ⟨_, .array hfaulty⟩
    | values rows table =>
      by_cases hlacks : d = .sqlite ∨ d = .mysql
      · exact ⟨_, .table hlacks⟩
      · have hhas : d = .postgres ∨ d = .mssql := by cases d <;> simp at hlacks ⊢
        obtain hd | hd | hbad := hfaulty
        · exact absurd (.inl hd) hlacks
        · exact absurd (.inr hd) hlacks
        · obtain ⟨fault, hfault⟩ := (malformed_iff h).1 hbad
          exact ⟨_, .values hhas hfault⟩
    | raw sql => cases hfaulty
    | ident name => cases hfaulty
    | param v => cases hfaulty
    | list separator items parenthesized => cases hfaulty
    | json doc => cases hfaulty
    | spliced sql params => cases hfaulty
  · rintro ⟨e, hrefusal⟩
    cases hrefusal with
    | insert hfault => exact (malformed_iff h).2 ⟨_, hfault⟩
    | update hnone => exact hnone
    | array hother => exact hother
    | table hlacks => exact hlacks.imp_right .inl
    | values _ hfault => exact .inr (.inr ((malformed_iff h).2 ⟨_, hfault⟩))

end Fragment

namespace Compiler

/-! ## The walk -/

theorem failure_insertPieces (c : Compiler) (records : List Record) :
    failure? (c.insertPieces records) = (Fragment.insert records).fault? c.dialect := by
  rw [insertPieces]
  change _ = (failure? (sharedColumns records)).map _
  cases sharedColumns records <;> rfl

theorem failure_arrayPieces (d : Dialect) (items : List Value) :
    failure? (arrayPieces d items) = (Fragment.array items).fault? d := by
  cases d <;> rfl

theorem failure_tablePieces (c : Compiler) (rows : List Record) (table : String) :
    failure? (c.tablePieces rows table) = (Fragment.values rows table).fault? c.dialect := by
  have hvalues : failure? (c.valuesPieces rows table) = (failure? (sharedColumns rows)).map
      fun fault => .compile (fault.message "values table") := by
    rw [valuesPieces]
    cases sharedColumns rows <;> rfl
  rw [tablePieces]
  change _ = if c.dialect = .sqlite ∨ c.dialect = .mysql then _ else _
  cases c.dialect
  · exact hvalues
  · rfl
  · rfl
  · exact hvalues

theorem failure_updatePieces (c : Compiler) (r : Record) (omitted : List String) :
    failure? (c.updatePieces r omitted) = (Fragment.update r omitted).fault? c.dialect := by
  have hkept : (r.entries.filter fun e => !omitted.contains e.1) = [] ↔
      r.columns.all omitted.contains = true := by
    simp [Record.columns, List.filter_eq_nil_iff]
  rw [updatePieces, Fragment.fault?]
  split
  case h_1 hnone => rw [if_pos (hkept.1 hnone), failure?]
  case h_2 hsome => rw [if_neg fun hall => hsome (hkept.2 hall), failure?]

mutual

/-- **The walk ends at the first node at fault.** -/
theorem failure_pieces (c : Compiler) : ∀ f : Fragment,
    failure? (c.pieces f) = f.nodes.findSome? (Fragment.fault? c.dialect)
  | .raw _ => rfl
  | .ident _ => rfl
  | .param _ => rfl
  | .list _ items _ => by
    -- the list itself is never at fault
    refine Eq.trans ?_ (failure_itemPieces c items)
    rw [pieces]
    cases c.itemPieces items <;> rfl
  | .insert records => by
    rw [pieces, failure_insertPieces]
    exact List.findSome?_singleton.symm
  | .update r omitted => by
    rw [pieces, failure_updatePieces]
    exact List.findSome?_singleton.symm
  | .array items => by
    rw [pieces, failure_arrayPieces]
    exact List.findSome?_singleton.symm
  | .json _ => rfl
  | .values rows table => by
    rw [pieces, failure_tablePieces]
    exact List.findSome?_singleton.symm
  | .spliced _ _ => rfl

theorem failure_itemPieces (c : Compiler) : ∀ items : List Fragment,
    failure? (c.itemPieces items) = (Fragment.allNodes items).findSome? (Fragment.fault? c.dialect)
  | [] => rfl
  | f :: rest => by
    rw [Fragment.allNodes, List.findSome?_append, ← failure_pieces c f, ← failure_itemPieces c rest,
      itemPieces]
    cases c.pieces f with
    | error e => rfl
    | ok part => cases c.itemPieces rest <;> rfl

end

/-- A fragment compiles exactly if its pieces do, and is refused for the same reason if not. -/
theorem failure_compile (c : Compiler) (f : Fragment) :
    failure? (c.compile f) = f.nodes.findSome? (Fragment.fault? c.dialect) := by
  rw [← failure_pieces, compile]
  cases c.pieces f <;> rfl

/-- **The first node at fault is the one that counts.** A fragment is refused exactly if a node of
its tree is at fault, with the error of the first such node, depth first from the left. Compilers of
one dialect refuse it alike, whatever their placeholders, quotes and transforms. -/
theorem refuses_first_fault {f : Fragment} (h : ∀ g ∈ f.nodes, ∀ r ∈ g.records, r.Built)
    (c : Compiler) :
    ((∃ e, c.compile f = .error e) ↔ ∃ g ∈ f.nodes, g.Faulty c.dialect) ∧
    (∀ e, c.compile f = .error e ↔
      ∃ before g after, f.nodes = before ++ g :: after ∧
        (∀ g' ∈ before, ¬ g'.Faulty c.dialect) ∧ g.Refusal c.dialect e) ∧
    ∀ c' : Compiler, c'.dialect = c.dialect →
      ∀ e, c'.compile f = .error e ↔ c.compile f = .error e := by
  -- a node is at fault if its own check gives an error, whichever that is
  have hfaulty {g : Fragment} (hg : g ∈ f.nodes) :
      g.Faulty c.dialect ↔ g.fault? c.dialect ≠ none := by
    rw [Fragment.faulty_iff (h g hg), Option.ne_none_iff_exists']
    simp only [Fragment.fault_eq_some_iff (h g hg)]
  refine ⟨?_, fun e => ?_, fun c' hc e => ?_⟩
  · have hsome : (∃ e, c.compile f = .error e) ↔ failure? (c.compile f) ≠ none := by
      simp only [← failure_eq_some_iff, Option.ne_none_iff_exists']
    rw [hsome, failure_compile, ne_eq, List.findSome?_eq_none_iff]
    push Not
    exact exists_congr fun g => and_congr_right fun hg => (hfaulty hg).symm
  · rw [← failure_eq_some_iff, failure_compile, List.findSome?_eq_some_iff]
    constructor
    · rintro ⟨before, g, after, hsplit, hg, hbefore⟩
      have hmem : ∀ g' ∈ before ++ g :: after, g' ∈ f.nodes := fun g' hg' => hsplit ▸ hg'
      refine ⟨before, g, after, hsplit, fun g' hg' => ?_, ?_⟩
      · rw [hfaulty (hmem g' (List.mem_append_left _ hg')), hbefore g' hg']
        exact fun h => h rfl
      · exact (Fragment.fault_eq_some_iff (h g (hmem g (by simp)))).1 hg
    · rintro ⟨before, g, after, hsplit, hbefore, hg⟩
      have hmem : ∀ g' ∈ before ++ g :: after, g' ∈ f.nodes := fun g' hg' => hsplit ▸ hg'
      refine ⟨before, g, after, hsplit, ?_, fun g' hg' => ?_⟩
      · exact (Fragment.fault_eq_some_iff (h g (hmem g (by simp)))).2 hg
      · by_contra hne
        exact hbefore g' hg' ((hfaulty (hmem g' (List.mem_append_left _ hg'))).2 hne)
  · -- the walk reads nothing of a compiler but its dialect
    rw [← failure_eq_some_iff, ← failure_eq_some_iff, failure_compile, failure_compile, hc]

/-- Rows that do not go together, in front of an array that the dialect lacks. -/
def mixedFaults : Fragment :=
  .list ", " [.ident "t", .insert [.ofList [("a", .int 1)], .ofList [("b", .int 2)]],
    .array [.int 1]] true

/-- The rows come first, so it is their fault that is reported. -/
theorem refuses_mixedFaults :
    (∀ g ∈ mixedFaults.nodes, ∀ r ∈ g.records, r.Built) ∧
    (ofDialect .sqlite).compile mixedFaults =
      .error (.compile "insert record 1 has columns [b], expected [a]") := by
  have hbuilt : ∀ g ∈ mixedFaults.nodes, ∀ r ∈ g.records, r.Built := by
    intro g hg r hr
    simp only [mixedFaults, Fragment.nodes, Fragment.allNodes, List.append_nil, List.cons_append,
      List.nil_append, List.mem_cons, List.not_mem_nil, or_false] at hg
    rcases hg with rfl | rfl | rfl | rfl
    · cases hr
    · cases hr
    · simp only [Fragment.records, List.mem_cons, List.not_mem_nil, or_false] at hr
      rcases hr with rfl | rfl
      · exact ⟨_, rfl⟩
      · exact ⟨_, rfl⟩
    · cases hr
  have hfault : RecordFault.In (.mismatch 1 ["b"] ["a"])
      [.ofList [("a", .int 1)], .ofList [("b", .int 2)]] := by
    refine @RecordFault.In.mismatch (.ofList [("a", .int 1)]) (.ofList [("b", .int 2)]) [] []
      (by decide) nofun fun hsame => ?_
    exact absurd ((hsame "a").2 (by decide)) (by decide)
  refine ⟨hbuilt, ((refuses_first_fault hbuilt (ofDialect .sqlite)).2.1 _).2 ?_⟩
  refine ⟨[mixedFaults, .ident "t"], .insert [.ofList [("a", .int 1)], .ofList [("b", .int 2)]],
    [.array [.int 1]], rfl, ?_, .insert hfault⟩
  simp [mixedFaults, Fragment.Faulty]

end Compiler

end SqlClient
