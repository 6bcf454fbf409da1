import SqlClient.Names
import SqlClient.Proofs.Json.Renaming
import SqlClient.ResultSet
/-!
# Result sets — new names

A transform gives new names to the columns of a result set and to the keys of the documents in it. What
it does is said value by value (`Value.Renamed`): a document has the new names, and every other value
stays. Rows and values keep their number and their order, and there is one result set like this
(`transform_renames`).
-/

namespace SqlClient

/-! ## Values -/

namespace Value

/-- `Renamed rename value value'`: a document has new names for its keys, and another value stays. -/
inductive Renamed (rename : String → String) : Value → Value → Prop
  | document {doc doc' : Json} : doc.Renamed rename doc' → Renamed rename (.json doc) (.json doc')
  | other {value : Value} : value.asJson? = none → Renamed rename value value

/-- A value with new names for the keys of its document, if it is one. -/
def renameKeys (rename : String → String) : Value → Value
  | .json doc => .json (doc.renameKeys rename)
  | value => value

theorem renamed_iff {rename : String → String} {value value' : Value}
    (h : ∀ doc ∈ value.asJson?, doc.Ordered) :
    Renamed rename value value' ↔ value' = value.renameKeys rename := by
  cases value with
  | json doc =>
    have hdoc : doc.Ordered := h doc rfl
    constructor
    · rintro (hrenamed | hother)
      · exact congrArg _ ((Json.renamed_iff hdoc).1 hrenamed)
      · cases hother
    · rintro rfl
      exact .document ((Json.renamed_iff hdoc).2 rfl)
  | _ =>
    constructor
    · rintro (_ | _)
      rfl
    · rintro rfl
      exact .other rfl

end Value

/-! ## Rows -/

namespace ResultSet

/-- Something holds of every document in the rows. -/
def EveryDocument (p : Json → Prop) (rs : ResultSet) : Prop :=
  ∀ values ∈ rs.rows, ∀ value ∈ values, ∀ doc ∈ value.asJson?, p doc

theorem rows_transform (rename : String → String) (rs : ResultSet) :
    (rs.transform rename).rows = rs.rows.map (List.map (Value.renameKeys rename)) :=
  rfl

theorem everyDocument_transform {rename : String → String} {rs : ResultSet} {p p' : Json → Prop}
    (h : rs.EveryDocument p) (hp : ∀ doc, p doc → p' (doc.renameKeys rename)) :
    (rs.transform rename).EveryDocument p' := by
  rw [EveryDocument, rows_transform]
  refine List.forall_mem_map.2 fun values hvalues => List.forall_mem_map.2 fun value hvalue => ?_
  cases value with
  | json doc =>
    rintro _ ⟨⟩
    exact hp doc (h values hvalues _ hvalue doc rfl)
  | _ => rintro _ ⟨⟩

theorem transform_transform {inner outer : String → String} {rs : ResultSet}
    (hordered : rs.EveryDocument Json.Ordered) (h : rs.EveryDocument (Json.KeepsApart (outer ∘ inner))) :
    (rs.transform inner).transform outer = rs.transform (outer ∘ inner) := by
  have hvalue : ∀ values ∈ rs.rows, ∀ value ∈ values,
      (value.renameKeys inner).renameKeys outer = value.renameKeys (outer ∘ inner) := by
    intro values hvalues value hvalue
    cases value with
    | json doc =>
      exact congrArg _ (Json.renameKeys_renameKeys (hordered values hvalues _ hvalue doc rfl)
        (h values hvalues _ hvalue doc rfl))
    | _ => rfl
  have hcolumns : ((rs.transform inner).transform outer).columns =
      (rs.transform (outer ∘ inner)).columns :=
    List.map_map
  have hrows : ((rs.transform inner).transform outer).rows = (rs.transform (outer ∘ inner)).rows := by
    rw [rows_transform, rows_transform, rows_transform, List.map_map]
    refine List.map_congr_left fun values hvalues => ?_
    rw [Function.comp_apply, List.map_map]
    exact List.map_congr_left (hvalue values hvalues)
  exact congrArg₂ (fun columns rows => ResultSet.mk columns rows rs.affected) hcolumns hrows

/-- **A transform gives new names.** Columns have their new names, and the count of affected rows stays.
The rows are those whose values are renamed one by one, and there are no other such rows. Documents come
with their keys in order, as all do that are read or built, and keep them so. Two transforms are one if
no two keys of an object meet under their last names. -/
theorem transform_renames (rename : String → String) (rs : ResultSet)
    (h : rs.EveryDocument Json.Ordered) :
    (rs.transform rename).columns = rs.columns.map rename ∧
      (rs.transform rename).affected = rs.affected ∧
      (∀ rows, List.Forall₂ (List.Forall₂ (Value.Renamed rename)) rs.rows rows ↔
        rows = (rs.transform rename).rows) ∧
      (rs.transform rename).EveryDocument Json.Ordered ∧
      ∀ outer, rs.EveryDocument (Json.KeepsApart (outer ∘ rename)) →
        (rs.transform rename).transform outer = rs.transform (outer ∘ rename) := by
  refine ⟨rfl, rfl, fun rows => ?_, everyDocument_transform h fun _ => Json.ordered_renameKeys rename,
    fun outer => transform_transform h⟩
  rw [rows_transform]
  refine forall₂_iff_eq_map fun values hvalues row => forall₂_iff_eq_map fun value hvalue _ => ?_
  exact Value.renamed_iff (h values hvalues value hvalue)

/-- A row with a document. -/
def holding (doc : Json) : ResultSet := ofRows ["id", "some_info"] [[.int 7, .json doc]]

theorem everyDocument_holding {p : Json → Prop} {doc : Json} (h : p doc) :
    (holding doc).EveryDocument p := by
  refine List.forall_mem_singleton.2 (List.forall_mem_cons.2 ⟨?_, List.forall_mem_singleton.2 ?_⟩)
  · rintro _ ⟨⟩
  · rintro _ ⟨⟩
    exact h

/-- A document whose keys meet in camel case. -/
def meeting : Json :=
  .object [("aB", .bool true), ("a_b", .array [.object [("c_d", .null)], .null])]

/-- A document whose keys do not. -/
def apart : Json := .object [("a_b", .object [("c_d", .null)]), ("b", .null)]

/-- In camel case `a_b` has the name of `aB`, whose member is lost. -/
theorem transform_renames_meeting :
    meeting.Ordered ∧ apart.Ordered ∧ apart.KeepsApart (Names.toKebab ∘ Names.toCamel) ∧
      (∀ rows, List.Forall₂ (List.Forall₂ (Value.Renamed Names.toCamel)) (holding meeting).rows rows ↔
        rows = [[.int 7, .json (.object [("aB", .array [.object [("cD", .null)], .null])])]]) ∧
      ((holding apart).transform Names.toCamel).transform Names.toKebab =
        (holding apart).transform (Names.toKebab ∘ Names.toCamel) := by
  have hmeeting : meeting.Ordered :=
    ⟨⟨by decide, trivial⟩, trivial, ⟨⟨trivial, trivial, trivial⟩, trivial, trivial⟩, trivial⟩
  have hapart : apart.Ordered := ⟨⟨by decide, trivial⟩, ⟨trivial, trivial, trivial⟩, trivial, trivial⟩
  have hkeeps : apart.KeepsApart (Names.toKebab ∘ Names.toCamel) := by
    have hnull : Json.KeepsApart (Names.toKebab ∘ Names.toCamel) .null := by rintro _ ⟨⟩
    have hinner : Json.KeepsApart (Names.toKebab ∘ Names.toCamel) (.object [("c_d", .null)]) :=
      Json.keepsApart_object.2 ⟨by decide, List.forall_mem_singleton.2 hnull⟩
    exact Json.keepsApart_object.2
      ⟨by decide, List.forall_mem_cons.2 ⟨hinner, List.forall_mem_singleton.2 hnull⟩⟩
  obtain ⟨-, -, hrows, -⟩ := transform_renames Names.toCamel (holding meeting)
    (everyDocument_holding hmeeting)
  obtain ⟨-, -, -, -, htwice⟩ := transform_renames Names.toCamel (holding apart)
    (everyDocument_holding hapart)
  exact ⟨hmeeting, hapart, hkeeps, hrows, htwice Names.toKebab (everyDocument_holding hkeeps)⟩

end ResultSet

end SqlClient
