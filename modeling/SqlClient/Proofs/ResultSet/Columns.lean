import SqlClient.Proofs.Json.Objects
import SqlClient.Shape
/-!
# Result sets — columns of one name

A name may head several columns: a join has two `id`, and two names can be one after a transform. A row
answers with the value in the first place of a name (`Row.get?_eq_some_iff`). The object that it is decoded
from is filled from left to right and ends with the value in the last one (`Row.member?_toJson`). So the two
agree where a name has one place, and beyond that as far as what stands in its first and in its last place
does (`Row.decoded_from_last`).
-/

namespace SqlClient

/-! ## Places of a name -/

/-- The first place of a name. -/
structure FirstPlace (names : List String) (name : String) (i : Nat) : Prop where
  here : names[i]? = some name
  least : ∀ j < i, names[j]? ≠ some name

/-- The last place of a name. -/
structure LastPlace (names : List String) (name : String) (k : Nat) : Prop where
  here : names[k]? = some name
  greatest : ∀ j, k < j → names[j]? ≠ some name

section Places

variable {names : List String} {name : String} {i k : Nat}

theorem firstPlace_iff : FirstPlace names name i ↔ names.findIdx? (· == name) = some i := by
  rw [List.findIdx?_eq_some_iff_getElem]
  constructor
  · rintro ⟨hhere, hleast⟩
    obtain ⟨hi, hname⟩ := List.getElem?_eq_some_iff.1 hhere
    refine ⟨hi, beq_iff_eq.2 hname, fun j hj heq => hleast j hj ?_⟩
    rw [List.getElem?_eq_getElem (Nat.lt_trans hj hi), eq_of_beq heq]
  · rintro ⟨hi, hname, hleast⟩
    refine ⟨List.getElem?_eq_some_iff.2 ⟨hi, eq_of_beq hname⟩, fun j hj heq => hleast j hj ?_⟩
    obtain ⟨_, heq⟩ := List.getElem?_eq_some_iff.1 heq
    exact beq_iff_eq.2 heq

theorem exists_firstPlace (h : name ∈ names) : ∃ i, FirstPlace names name i := by
  simp only [firstPlace_iff]
  refine Option.ne_none_iff_exists'.1 fun hnone => ?_
  simpa using List.findIdx?_eq_none_iff.1 hnone name h

/-- Behind the last place of a name, the name does not come again. -/
theorem lastPlace_iff : LastPlace names name k ↔
    ∃ before after, names = before ++ name :: after ∧ name ∉ after ∧ k = before.length := by
  constructor
  · rintro ⟨hhere, hgreatest⟩
    obtain ⟨hk, hname⟩ := List.getElem?_eq_some_iff.1 hhere
    refine ⟨names.take k, names.drop (k + 1), ?_, fun hmem => ?_, ?_⟩
    · rw [← hname, List.getElem_cons_drop, List.take_append_drop]
    · obtain ⟨j, hj⟩ := List.mem_iff_getElem?.1 hmem
      rw [List.getElem?_drop] at hj
      exact hgreatest _ (by omega) hj
    · rw [List.length_take, Nat.min_eq_left (Nat.le_of_lt hk)]
  · rintro ⟨before, after, rfl, hafter, rfl⟩
    refine ⟨by simp, fun j hj heq => hafter ?_⟩
    obtain ⟨d, rfl⟩ := Nat.exists_eq_add_of_lt hj
    rw [List.getElem?_append_right (by omega), Nat.add_assoc, Nat.add_sub_cancel_left,
      List.getElem?_cons_succ] at heq
    exact List.mem_of_getElem? heq

theorem exists_lastPlace (h : name ∈ names) : ∃ k, LastPlace names name k := by
  obtain ⟨after, before, hsplit, hafter⟩ := List.eq_append_cons_of_mem (List.mem_reverse.2 h)
  refine ⟨before.length, lastPlace_iff.2 ⟨before.reverse, after.reverse, ?_, by simpa using hafter, by simp⟩⟩
  rw [← List.reverse_reverse names, hsplit]
  simp

/-- Read from behind, entries give what is in the last place of a key. -/
theorem lookup_reverse_of_lastPlace {α : Type} {entries : List (String × α)} {a : α}
    (h : LastPlace (entries.map Prod.fst) name k) (ha : (entries.map Prod.snd)[k]? = some a) :
    entries.reverse.lookup name = some a := by
  obtain ⟨names, names', hsplit, hafter, rfl⟩ := lastPlace_iff.1 h
  obtain ⟨before, rest, rfl, rfl, hrest⟩ := List.map_eq_append_iff.1 hsplit
  obtain ⟨entry, after, rfl, rfl, rfl⟩ := List.map_eq_cons_iff.1 hrest
  have hnone : after.reverse.lookup entry.1 = none := by
    rw [← Option.not_isSome_iff_eq_none, isSome_lookup_iff]
    simpa using hafter
  obtain rfl : entry.2 = a := by simpa using ha
  rw [List.reverse_append, List.reverse_cons, List.append_assoc, List.lookup_append, hnone,
    Option.none_or, List.singleton_append, lookup_cons_ite, if_pos rfl]

end Places

/-! ## Two ways to a value -/

namespace Row

variable {row : Row} {name : String} {k : Nat}

/-- **A row answers with the first column of a name.** -/
theorem get?_eq_some_iff {v : Value} : row.get? name = some v ↔
    ∃ i, FirstPlace row.columns name i ∧ row.values[i]? = some v := by
  simp only [get?, indexOf?, Option.bind_eq_some_iff, firstPlace_iff]

/-- **The object of a row keeps the last column of a name.** -/
theorem member?_toJson (hfull : row.columns.length ≤ row.values.length)
    (hk : LastPlace row.columns name k) {w : Value} (hw : row.values[k]? = some w) :
    row.toJson.member? name = some w.toJson := by
  have hnames : row.members.map Prod.fst = row.columns := by
    rw [members, List.map_map]
    exact List.map_fst_zip hfull
  have hvalue : (row.members.map Prod.snd)[k]? = some w.toJson := by
    have hzip : (row.columns.zip row.values)[k]? = some (name, w) :=
      List.getElem?_zip_eq_some.2 ⟨hk.here, hw⟩
    rw [members, List.map_map, List.getElem?_map, hzip]
    rfl
  have hlookup := lookup_reverse_of_lastPlace (hnames.symm ▸ hk) hvalue
  rw [toJson, Json.ofMembers_eq, Json.member?, Json.lookup_setMembers, hlookup]

/-- **Rows answer with the first column of a name, and are decoded from its last.** In a row with a value
for each column, a name of a column has a first and a last place. The row answers with what is in the first;
the document that every shape is given to decode has what is in the last. So the two agree if these values
are written alike, as they are if the name has no other place. -/
theorem decoded_from_last (row : Row) (hfull : row.values.length = row.columns.length)
    (hname : name ∈ row.columns) :
    (∀ shape, Schema.decodeRow shape row = Schema.decodeFor .result shape row.toJson) ∧
      ∃ i k v w, FirstPlace row.columns name i ∧ LastPlace row.columns name k ∧
        row.values[i]? = some v ∧ row.values[k]? = some w ∧
        row.get? name = some v ∧ row.toJson.member? name = some w.toJson ∧
        ((row.get? name).map Value.toJson = row.toJson.member? name ↔ v.toJson = w.toJson) ∧
        ((∀ j, row.columns[j]? = some name → j = i) →
          (row.get? name).map Value.toJson = row.toJson.member? name) := by
  have hvalue {j : Nat} (hj : row.columns[j]? = some name) : ∃ v, row.values[j]? = some v := by
    obtain ⟨hj, -⟩ := List.getElem?_eq_some_iff.1 hj
    exact ⟨_, List.getElem?_eq_getElem (hfull ▸ hj)⟩
  obtain ⟨i, hi⟩ := exists_firstPlace hname
  obtain ⟨k, hk⟩ := exists_lastPlace hname
  obtain ⟨v, hv⟩ := hvalue hi.here
  obtain ⟨w, hw⟩ := hvalue hk.here
  have hget : row.get? name = some v := get?_eq_some_iff.2 ⟨i, hi, hv⟩
  have hmember : row.toJson.member? name = some w.toJson :=
    member?_toJson (Nat.le_of_eq hfull.symm) hk hw
  have hagree : (row.get? name).map Value.toJson = row.toJson.member? name ↔ v.toJson = w.toJson := by
    rw [hget, hmember, Option.map_some, Option.some_inj]
  refine ⟨fun _ => rfl, i, k, v, w, hi, hk, hv, hw, hget, hmember, hagree, fun hsole => hagree.2 ?_⟩
  rw [hsole k hk.here, hv] at hw
  rw [Option.some.inj hw]

/-- A row of a join: two columns have one name. -/
def joined : Row := ⟨["id", "name", "id"], [.int 1, .text "Ada", .int 2]⟩

/-- A name with one place is decoded as it is looked up. -/
theorem decoded_from_last_joined :
    joined.values.length = joined.columns.length ∧ "name" ∈ joined.columns ∧
      (∀ j, joined.columns[j]? = some "name" → j = 1) ∧
      (joined.get? "name").map Value.toJson = joined.toJson.member? "name" := by
  have hsole : ∀ j, joined.columns[j]? = some "name" → j = 1 := by
    rintro (_ | _ | _ | j) hj
    · exact absurd hj (by decide)
    · rfl
    · exact absurd hj (by decide)
    · cases hj
  obtain ⟨-, i, -, -, -, hi, -, -, -, -, -, -, hagree⟩ :=
    decoded_from_last joined rfl (by decide : "name" ∈ joined.columns)
  obtain rfl : i = 1 := hsole i hi.here
  exact ⟨rfl, by decide, hsole, hagree hsole⟩

/-- A name with two places is looked up as one value and decoded as another. -/
theorem joined_id_differs :
    joined.values.length = joined.columns.length ∧ "id" ∈ joined.columns ∧
      joined.get? "id" = some (.int 1) ∧
      Schema.decodeRow .any joined = .ok joined.toJson ∧
      joined.toJson.member? "id" = some (.ofInt 2) ∧
      (joined.get? "id").map Value.toJson ≠ joined.toJson.member? "id" :=
  ⟨rfl, by decide, rfl, rfl, rfl, by decide⟩

end Row

end SqlClient
