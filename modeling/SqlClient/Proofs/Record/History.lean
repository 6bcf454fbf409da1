import Mathlib.Data.Finset.Card
import Mathlib.Data.List.Induction
import SqlClient.Proofs.Compiler.Records
/-!
# Records — what has been set

A record is made empty, of columns one after another or of a document, and then has columns set. Every way
to make one is a `Recipe`, and comes down to a history of columns that are set to values. `Reflects` says
what a record shows of its history: each name once, the names in the order in which they were first set, and
under each the value that it was set to last. One more setting keeps this (`Reflects.set`), whether it adds a
column or replaces a value where it stands, so every recipe makes a record that reflects its history. There is
no other record that does (`Reflects.unique`), and `record_reflects` has both.
-/

namespace SqlClient

namespace Record

variable {r r' : Record} {history : List (String × Value)} {name name' column : String} {v value : Value}

/-! ## Histories -/

/-- The value that a name was set to last. -/
def LastSet (history : List (String × Value)) (name : String) (v : Value) : Prop :=
  ∃ before after, history = before ++ (name, v) :: after ∧ name ∉ after.map Prod.fst

/-- One name was first set before another one was. -/
def SetEarlier (history : List (String × Value)) (name name' : String) : Prop :=
  (history.map Prod.fst).idxOf name < (history.map Prod.fst).idxOf name'

/-- Read from its end, a history gives what a name was set to last. -/
theorem lastSet_iff : LastSet history name v ↔ history.reverse.lookup name = some v := by
  have hnotMem (after : List (String × Value)) :
      (∀ e ∈ after, (name != e.1) = true) ↔ name ∉ after.reverse.map Prod.fst := by
    simp only [bne_iff_ne, List.map_reverse, List.mem_reverse, List.mem_map, not_exists, not_and]
    exact forall₂_congr fun e _ => ne_comm
  rw [List.lookup_eq_some_iff]
  constructor
  · rintro ⟨before, after, rfl, hafter⟩
    refine ⟨after.reverse, before.reverse, by simp, (hnotMem _).2 ?_⟩
    rwa [List.reverse_reverse]
  · rintro ⟨after, before, hsplit, hafter⟩
    refine ⟨before.reverse, after.reverse, ?_, (hnotMem _).1 hafter⟩
    rw [List.reverse_eq_append_iff.1 hsplit, List.reverse_cons, List.append_assoc, List.singleton_append]

theorem lastSet_concat : LastSet (history ++ [(column, value)]) name v ↔
    if name = column then value = v else LastSet history name v := by
  rw [lastSet_iff, List.reverse_append, List.reverse_singleton, List.singleton_append, lookup_cons_ite]
  split
  case isTrue => exact Option.some_inj
  case isFalse => exact lastSet_iff.symm

theorem not_lastSet_nil : ¬ LastSet [] name v := fun h => by
  cases lastSet_iff.1 h

/-- What is set later has no say in the order of names that have been set. -/
theorem SetEarlier.append (h : SetEarlier history name name') (hname : name ∈ history.map Prod.fst)
    (hname' : name' ∈ history.map Prod.fst) (later : List (String × Value)) :
    SetEarlier (history ++ later) name name' := by
  rw [SetEarlier, List.map_append, List.idxOf_append_of_mem hname, List.idxOf_append_of_mem hname']
  exact h

/-- A name that has been set was set before a new one. -/
theorem setEarlier_concat (hname : name ∈ history.map Prod.fst) (hnew : column ∉ history.map Prod.fst) :
    SetEarlier (history ++ [(column, value)]) name column := by
  rw [SetEarlier, List.map_append, List.idxOf_append_of_mem hname, List.idxOf_append_of_notMem hnew]
  exact Nat.lt_add_right _ (List.idxOf_lt_length_iff.2 hname)

/-! ## One more column -/

theorem columns_set (r : Record) (column : String) (value : Value) :
    (r.set column value).columns = if column ∈ r.columns then r.columns else r.columns ++ [column] :=
  map_fst_setEntry column value r.entries

theorem mem_columns_set : name ∈ (r.set column value).columns ↔ name ∈ r.columns ∨ name = column := by
  rw [columns_set]
  split
  case isTrue hthere => exact ⟨.inl, fun h => h.elim id fun heq => heq ▸ hthere⟩
  case isFalse => rw [List.mem_append, List.mem_singleton]

theorem lookup_setEntry (column : String) (value : Value) (entries : List (String × Value)) (name : String) :
    (setEntry column value entries).lookup name =
      if name = column then some value else entries.lookup name := by
  induction entries with
  | nil => rw [setEntry, lookup_cons_ite]
  | cons e rest ih =>
    rw [setEntry]
    split
    case isTrue hhere =>
      rw [lookup_cons_ite, lookup_cons_ite, ← hhere]
      split <;> rfl
    case isFalse hother =>
      rw [lookup_cons_ite, lookup_cons_ite, ih]
      split
      case isTrue hname => rw [if_neg (hname ▸ hother)]
      case isFalse => rfl

/-- **A column that is set answers with its value, and every other as before.** -/
theorem get?_set : (r.set column value).get? name = if name = column then some value else r.get? name :=
  lookup_setEntry column value r.entries name

/-! ## Records that reflect a history -/

/-- What a record shows of the columns that have been set, one after another. -/
structure Reflects (history : List (String × Value)) (r : Record) : Prop where
  /-- No name has two columns. -/
  distinct : r.columns.Nodup
  /-- The columns are the names that have been set. -/
  named : ∀ name, name ∈ r.columns ↔ name ∈ history.map Prod.fst
  /-- They stand in the order in which they were first set. -/
  ordered : r.columns.Pairwise (SetEarlier history)
  /-- A column has the value that it was set to last. -/
  latest : ∀ name v, r.get? name = some v ↔ LastSet history name v
  /-- What has never been set has no value. -/
  unset : ∀ name, r.get? name = none ↔ name ∉ history.map Prod.fst
  /-- There are as many columns as different names have been set. -/
  size : r.size = (history.map Prod.fst).toFinset.card

/-- What has no value and how many columns there are follows from which names have columns. -/
theorem reflects_of_named (distinct : r.columns.Nodup)
    (named : ∀ name, name ∈ r.columns ↔ name ∈ history.map Prod.fst)
    (ordered : r.columns.Pairwise (SetEarlier history))
    (latest : ∀ name v, r.get? name = some v ↔ LastSet history name v) : Reflects history r where
  distinct := distinct
  named := named
  ordered := ordered
  latest := latest
  unset name := by rw [← named, ← isSome_get?_iff, Option.not_isSome_iff_eq_none]
  size := by
    have hnames : r.columns.toFinset = (history.map Prod.fst).toFinset := List.toFinset.ext_iff.2 named
    rw [← hnames, List.toFinset_card_of_nodup distinct, columns, List.length_map, Record.size]

theorem reflects_empty : Reflects [] empty :=
  reflects_of_named List.nodup_nil (fun _ => Iff.rfl) List.Pairwise.nil
    fun _ _ => iff_of_false nofun not_lastSet_nil

/-- **A record that reflects a history goes on to do so when a column is set.** -/
theorem Reflects.set (h : Reflects history r) (column : String) (value : Value) :
    Reflects (history ++ [(column, value)]) (r.set column value) := by
  refine reflects_of_named (nodup_set column value h.distinct) (fun name => ?_) ?_ fun name v => ?_
  · rw [mem_columns_set, h.named, List.map_append, List.mem_append, List.map_singleton, List.mem_singleton]
  · have hbefore : r.columns.Pairwise (SetEarlier (history ++ [(column, value)])) :=
      h.ordered.imp_of_mem fun hname hname' hearlier =>
        hearlier.append ((h.named _).1 hname) ((h.named _).1 hname') _
    -- A column that is there keeps its place, and a new one was set after all others.
    rw [columns_set]
    split
    case isTrue => exact hbefore
    case isFalse hnew =>
      refine List.pairwise_append.2 ⟨hbefore, List.pairwise_singleton .., fun name hname last hlast => ?_⟩
      rw [List.mem_singleton.1 hlast]
      exact setEarlier_concat ((h.named _).1 hname) (mt (h.named _).2 hnew)
  · rw [get?_set, lastSet_concat]
    split
    case isTrue => exact Option.some_inj
    case isFalse => exact h.latest name v

/-- Columns that are set one after another are reflected, repeated ones included. -/
theorem reflects_ofList (history : List (String × Value)) : Reflects history (ofList history) := by
  induction history using List.reverseRecOn with
  | nil => exact reflects_empty
  | append_singleton history e ih =>
    rw [ofList, List.foldl_concat]
    exact ih.set e.1 e.2

/-- **No two records reflect one history.** Names that have been set stand in one order only, and the value
of each is given. -/
theorem Reflects.unique (h : Reflects history r) (h' : Reflects history r') : r = r' := by
  have hperm : r.entries.Perm r'.entries := by
    rw [List.perm_ext_iff_of_nodup (h.distinct.of_map _) (h'.distinct.of_map _)]
    rintro ⟨name, v⟩
    rw [← lookup_eq_some_iff_mem h.distinct, ← lookup_eq_some_iff_mem h'.distinct]
    exact (h.latest name v).trans (h'.latest name v).symm
  -- Names cannot be ordered both ways, so the same entries stand in the same order.
  have hordered {r : Record} (h : Reflects history r) :
      r.entries.Pairwise fun e e' => SetEarlier history e.1 e'.1 := List.pairwise_map.1 h.ordered
  have hentries : r.entries = r'.entries :=
    hperm.eq_of_pairwise (fun _ _ _ _ hearlier hlater => absurd hlater (Nat.lt_asymm hearlier))
      (hordered h) (hordered h')
  exact congrArg Record.mk hentries

/-! ## Recipes -/

/-- A way to make a record: begun empty, with columns or from a document, and continued by setting columns,
be it in place or in a chain. A record that is begun anew has nothing from one before it. -/
inductive Recipe
  | empty
  | ofList (entries : List (String × Value))
  | ofJson (doc : Json)
  | set (recipe : Recipe) (column : String) (value : Value)

namespace Recipe

/-- The record that a recipe makes. -/
def record : Recipe → Outcome Record
  | .empty => .ok .empty
  | .ofList entries => .ok (.ofList entries)
  | .ofJson doc => Record.ofJson doc
  | .set recipe column value => return (← recipe.record).set column value

/-- What a recipe sets, from the first column to the last. An object sets its members; no other document
sets anything. -/
inductive Sets : Recipe → List (String × Value) → Prop
  | empty : Sets .empty []
  | ofList {entries : List (String × Value)} : Sets (.ofList entries) entries
  | ofJson {members : List (String × Json)} :
      Sets (.ofJson (.object members)) (members.map fun m => (m.1, Value.ofJson m.2))
  | set {recipe : Recipe} {history : List (String × Value)} {column : String} {value : Value} :
      Sets recipe history → Sets (.set recipe column value) (history ++ [(column, value)])

variable {recipe : Recipe}

/-- What a recipe sets is reflected by the record that it makes. -/
theorem Sets.made (h : recipe.Sets history) : ∃ r, recipe.record = .ok r ∧ Reflects history r := by
  induction h with
  | empty => exact ⟨_, rfl, reflects_empty⟩
  | ofList => exact ⟨_, rfl, reflects_ofList _⟩
  | ofJson => exact ⟨_, rfl, reflects_ofList _⟩
  | @set recipe history column value _ ih =>
    obtain ⟨r, hr, hreflects⟩ := ih
    refine ⟨r.set column value, ?_, hreflects.set column value⟩
    rw [record, hr]
    rfl

/-- A recipe that makes a record sets something, be it no column at all. -/
theorem exists_sets (h : recipe.record = .ok r) : ∃ history, recipe.Sets history := by
  induction recipe generalizing r with
  | empty => exact ⟨_, .empty⟩
  | ofList => exact ⟨_, .ofList⟩
  | ofJson doc =>
    cases doc with
    | object members => exact ⟨_, .ofJson⟩
    | _ => cases h
  | set recipe column value ih =>
    rw [record] at h
    cases hrecipe : recipe.record with
    | error e =>
      rw [hrecipe] at h
      cases h
    | ok r' =>
      obtain ⟨history, hsets⟩ := ih hrecipe
      exact ⟨_, hsets.set⟩

/-- **A record is what has been set, in the order of first settings and with the last values.** However a
record is made, its columns are the names that have been set, each once, in the order in which they were first
set. A name answers with the value that it was set to last, and with none if it was never set, and there are
as many columns as names. The recipe makes this record and no other one; it makes none only if the document
that it begins with is no object. -/
theorem record_reflects :
    recipe.record = .ok r ↔ ∃ history, recipe.Sets history ∧ Reflects history r := by
  constructor
  · intro h
    obtain ⟨history, hsets⟩ := exists_sets h
    obtain ⟨r', hr', hreflects⟩ := hsets.made
    obtain rfl : r = r' := Except.ok.inj (h.symm.trans hr')
    exact ⟨history, hsets, hreflects⟩
  · rintro ⟨history, hsets, hreflects⟩
    obtain ⟨r', hr', hreflects'⟩ := hsets.made
    rw [hr', hreflects.unique hreflects']

example : (set (set (ofList [("b", .int 1), ("a", .int 2)]) "c" .null) "b" (.int 3)).record =
    .ok ⟨[("b", .int 3), ("a", .int 2), ("c", .null)]⟩ := rfl

end Recipe

end Record

end SqlClient
