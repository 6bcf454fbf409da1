import SqlClient.Proofs.Json.Objects
import SqlClient.Proofs.Text.Order
/-!
# JSON — new names for keys

`Renamed` says what a document is when the keys of its objects have new names, without saying how it is
made: arrays keep their items in order, and an object has a member for each new name. Where keys meet
under one new name, the greatest of them in the order of bytes has it (`Survives`). There is one such
document, and renaming makes it (`renamed_iff`). Renaming twice is renaming once as long as no two keys
of one object meet on the way (`renameKeys_renameKeys`).
-/

namespace SqlClient

namespace Json

variable {rename : String → String} {members : List (String × Json)} {key name : String} {doc : Json}

/-! ## Specification -/

/-- The member with this key has the new name of its key: no member with the same new name has a greater
key, in the order of bytes. -/
structure Survives (rename : String → String) (members : List (String × Json)) (key : String)
    (doc : Json) : Prop where
  mem : (key, doc) ∈ members
  greatest : ∀ other ∈ members, rename other.1 = rename key → ¬ encodeText key < encodeText other.1

/-- `Renamed rename doc doc'`: the second document is the first with new names for the keys of all
objects. -/
inductive Renamed (rename : String → String) : Json → Json → Prop
  | null : Renamed rename .null .null
  | bool (b : Bool) : Renamed rename (.bool b) (.bool b)
  | number (n : JsonNumber) : Renamed rename (.number n) (.number n)
  | string (s : String) : Renamed rename (.string s) (.string s)
  | array {items items' : List Json} (length : items'.length = items.length)
      (renamed : ∀ (i : Nat) x x', items[i]? = some x → items'[i]? = some x' → Renamed rename x x') :
      Renamed rename (.array items) (.array items')
  | object {members members' : List (String × Json)} (ascending : Ascending members')
      (names : ∀ name, name ∈ members'.map Prod.fst ↔ ∃ member ∈ members, rename member.1 = name)
      (renamed : ∀ key doc doc', Survives rename members key doc → (rename key, doc') ∈ members' →
        Renamed rename doc doc') :
      Renamed rename (.object members) (.object members')

/-- A document and the documents in it. -/
inductive Within (part : Json) : Json → Prop
  | self : Within part part
  | item {x : Json} {items : List Json} : x ∈ items → Within part x → Within part (.array items)
  | member {m : String × Json} {members : List (String × Json)} :
      m ∈ members → Within part m.2 → Within part (.object members)

/-- No two keys of an object in the document have one new name. -/
def KeepsApart (rename : String → String) (doc : Json) : Prop :=
  ∀ members, Within (.object members) doc → ∀ key ∈ members.map Prod.fst,
    ∀ other ∈ members.map Prod.fst, rename key = rename other → key = other

/-! ## Survivors -/

theorem renameItems_eq_map (rename : String → String) (items : List Json) :
    renameItems rename items = items.map (renameKeys rename) := by
  induction items with
  | nil => rfl
  | cons x items ih => rw [renameItems, ih, List.map_cons]

theorem renameMembers_eq_map (rename : String → String) (members : List (String × Json)) :
    renameMembers rename members = members.map fun m => (rename m.1, m.2.renameKeys rename) := by
  induction members with
  | nil => rfl
  | cons m members ih => rw [renameMembers, ih, List.map_cons]

theorem keys_renameMembers (rename : String → String) (members : List (String × Json)) :
    (renameMembers rename members).map Prod.fst = (members.map Prod.fst).map rename := by
  rw [renameMembers_eq_map, List.map_map, List.map_map]
  rfl

/-- Of the members with one new name the last survives. -/
theorem survives_iff (h : Ascending members) : Survives rename members key doc ↔
    members.reverse.find? (fun m => rename m.1 = rename key) = some (key, doc) := by
  -- keys ascend, so of two keys the later one is the greater one
  rw [List.find?_eq_some_iff_append]
  constructor
  · rintro ⟨hmem, hgreatest⟩
    obtain ⟨before, after, rfl⟩ := List.append_of_mem hmem
    refine ⟨decide_eq_true rfl, after.reverse, before.reverse, by simp, fun other hother => ?_⟩
    have hother := List.mem_reverse.1 hother
    have hlt : key < other.1 :=
      (List.pairwise_cons.1 (List.pairwise_append.1 (ascending_iff.1 h)).2.1).1 other hother
    have hne : rename other.1 ≠ rename key := fun heq =>
      hgreatest other (by simp [hother]) heq (encodeText_lt_iff.2 hlt)
    simpa using hne
  · rintro ⟨-, after, before, heq, hafter⟩
    have hmembers : members = before.reverse ++ (key, doc) :: after.reverse := by
      rw [← List.reverse_reverse members, heq]
      simp
    rw [ascending_iff, hmembers, List.pairwise_append] at h
    refine ⟨by simp [hmembers], fun other hother hname hlt => ?_⟩
    rw [encodeText_lt_iff] at hlt
    rw [hmembers, List.mem_append, List.mem_cons] at hother
    rcases hother with hbefore | rfl | hother
    · exact String.lt_asymm hlt (h.2.2 other hbefore _ List.mem_cons_self)
    · exact String.lt_irrefl _ hlt
    · have hne := hafter other (List.mem_reverse.1 hother)
      simp [hname] at hne

theorem lookup_renameMembers (rename : String → String) (members : List (String × Json))
    (name : String) : (renameMembers rename members).lookup name =
      (members.find? fun m => rename m.1 = name).map fun m => m.2.renameKeys rename := by
  induction members with
  | nil => rfl
  | cons m members ih =>
    rw [renameMembers, lookup_cons_ite, ih, List.find?_cons]
    by_cases h : rename m.1 = name
    · simp [h]
    · simp [h, Ne.symm h]

/-- The member of a new name is the one that survives. -/
theorem lookup_setMembers_renameMembers (rename : String → String) (members : List (String × Json))
    (name : String) : (setMembers (renameMembers rename members)).lookup name =
      (members.reverse.find? fun m => rename m.1 = name).map fun m => m.2.renameKeys rename := by
  rw [lookup_setMembers, ← lookup_renameMembers, renameMembers_eq_map, renameMembers_eq_map,
    List.map_reverse]

/-! ## Renaming meets its specification -/

theorem renamed_renameKeys (hdoc : Ordered doc) : Renamed rename doc (doc.renameKeys rename) := by
  induction doc using induct with
  | null => exact .null
  | bool b => exact .bool b
  | number n => exact .number n
  | string s => exact .string s
  | array items ih =>
    rw [renameKeys, renameItems_eq_map]
    refine .array (List.length_map _) fun i x x' hx hx' => ?_
    rw [List.getElem?_map, hx] at hx'
    obtain rfl := Option.some.inj hx'
    have hmem := List.mem_of_getElem? hx
    exact ih x hmem (ordered_array.1 hdoc x hmem)
  | object members ih =>
    obtain ⟨hmembers, hordered⟩ := ordered_object.1 hdoc
    have hascending := ascending_setMembers (renameMembers rename members)
    rw [renameKeys, ofMembers_eq]
    refine .object hascending (fun name => ?_) fun key doc doc' hsurvives hmem => ?_
    · rw [mem_keys_setMembers, keys_renameMembers, List.map_map, List.mem_map]
      rfl
    · rw [← hascending.lookup_eq_some_iff, lookup_setMembers_renameMembers,
        (survives_iff hmembers).1 hsurvives] at hmem
      obtain rfl := Option.some.inj hmem
      exact ih _ hsurvives.mem (hordered _ hsurvives.mem)

theorem Renamed.eq_renameKeys {doc' : Json} (h : Renamed rename doc doc') (hdoc : Ordered doc) :
    doc' = doc.renameKeys rename := by
  induction h with
  | null | bool | number | string => rfl
  | @array items items' hlength _ ih =>
    rw [renameKeys, renameItems_eq_map]
    refine congrArg _ (List.ext_getElem? fun i => ?_)
    rw [List.getElem?_map]
    cases hx : items[i]? with
    | none =>
      rw [List.getElem?_eq_none_iff] at hx
      exact List.getElem?_eq_none (hlength ▸ hx)
    | some x =>
      obtain ⟨hi, -⟩ := List.getElem?_eq_some_iff.1 hx
      have hx' := List.getElem?_eq_getElem (hlength ▸ hi : i < items'.length)
      rw [hx', ih i x _ hx hx' (ordered_array.1 hdoc x (List.mem_of_getElem? hx))]
      rfl
  | @object members members' hascending hnames _ ih =>
    obtain ⟨hmembers, hordered⟩ := ordered_object.1 hdoc
    rw [renameKeys, ofMembers_eq]
    -- objects are equal if they answer alike under every name
    refine congrArg _ (eq_of_lookup_eq hascending (ascending_setMembers _) fun name => ?_)
    rw [lookup_setMembers_renameMembers]
    cases hfind : members.reverse.find? fun m => decide (rename m.1 = name) with
    | none =>
      rw [Option.map_none, ← Option.not_isSome_iff_eq_none, isSome_lookup_iff, hnames]
      rintro ⟨m, hm, hname⟩
      have hnone := List.find?_eq_none.1 hfind m (List.mem_reverse.2 hm)
      exact hnone (decide_eq_true hname)
    | some m =>
      obtain ⟨key, doc⟩ := m
      have hname := List.find?_some hfind
      obtain rfl : rename key = name := of_decide_eq_true hname
      have hsurvives := (survives_iff hmembers).2 hfind
      have hsome := isSome_lookup_iff.2 ((hnames (rename key)).2 ⟨_, hsurvives.mem, rfl⟩)
      obtain ⟨doc', hdoc'⟩ := Option.isSome_iff_exists.1 hsome
      rw [hdoc', ih key doc doc' hsurvives (hascending.lookup_eq_some_iff.1 hdoc')
        (hordered _ hsurvives.mem)]
      rfl

/-- **There is one document with the new names, and renaming makes it.** -/
theorem renamed_iff {doc' : Json} (hdoc : Ordered doc) :
    Renamed rename doc doc' ↔ doc' = doc.renameKeys rename :=
  ⟨fun h => h.eq_renameKeys hdoc, fun h => h ▸ renamed_renameKeys hdoc⟩

theorem ordered_renameKeys (rename : String → String) (hdoc : Ordered doc) :
    Ordered (doc.renameKeys rename) := by
  induction doc using induct with
  | null | bool | number | string => exact hdoc
  | array items ih =>
    rw [renameKeys, renameItems_eq_map, ordered_array]
    exact List.forall_mem_map.2 fun x hx => ih x hx (ordered_array.1 hdoc x hx)
  | object members ih =>
    rw [renameKeys, renameMembers_eq_map]
    exact ordered_ofMembers (List.forall_mem_map.2 fun m hm => ih m hm ((ordered_object.1 hdoc).2 m hm))

/-! ## Renaming twice -/

theorem keepsApart_array {items : List Json} :
    KeepsApart rename (.array items) ↔ ∀ x ∈ items, KeepsApart rename x := by
  constructor
  · exact fun h x hx members hwithin => h members (.item hx hwithin)
  · rintro h members (_ | ⟨hx, hwithin⟩)
    exact h _ hx members hwithin

theorem keepsApart_object : KeepsApart rename (.object members) ↔
    (∀ key ∈ members.map Prod.fst, ∀ other ∈ members.map Prod.fst, rename key = rename other →
      key = other) ∧ ∀ m ∈ members, KeepsApart rename m.2 := by
  constructor
  · exact fun h => ⟨h members .self, fun m hm members hwithin => h members (.member hm hwithin)⟩
  · rintro ⟨hkeys, hmembers⟩ members' (_ | _ | ⟨hm, hwithin⟩)
    · exact hkeys
    · exact hmembers _ hm members' hwithin

/-- **Renaming twice is renaming once**, if no two keys of one object meet. -/
theorem renameKeys_renameKeys {inner outer : String → String} (hdoc : Ordered doc)
    (h : KeepsApart (outer ∘ inner) doc) :
    (doc.renameKeys inner).renameKeys outer = doc.renameKeys (outer ∘ inner) := by
  induction doc using induct with
  | null | bool | number | string => rfl
  | array items ih =>
    rw [renameKeys, renameKeys, renameKeys, renameItems_eq_map, renameItems_eq_map, renameItems_eq_map,
      List.map_map]
    refine congrArg _ (List.map_congr_left fun x hx => ?_)
    exact ih x hx (ordered_array.1 hdoc x hx) (keepsApart_array.1 h x hx)
  | object members ih =>
    obtain ⟨hmembers, hordered⟩ := ordered_object.1 hdoc
    obtain ⟨hkeys, hparts⟩ := keepsApart_object.1 h
    have hnodup {f : String → String} (hf : ∀ key ∈ members.map Prod.fst,
        ∀ other ∈ members.map Prod.fst, f key = f other → key = other) :
        ((renameMembers f members).map Prod.fst).Nodup := by
      rw [keys_renameMembers]
      exact hmembers.nodup_keys.map_on hf
    -- no member is lost under its first new name, and members that are all kept may be set in any order
    have hinner := perm_setMembers (hnodup (f := inner) fun key hkey other hother heq =>
      hkeys key hkey other hother (congrArg outer heq))
    have htwice : renameMembers outer (renameMembers inner members) =
        renameMembers (outer ∘ inner) members := by
      rw [renameMembers_eq_map, renameMembers_eq_map, renameMembers_eq_map, List.map_map]
      refine List.map_congr_left fun m hm => ?_
      exact congrArg (Prod.mk _) (ih m hm (hordered m hm) (hparts m hm))
    rw [renameKeys, renameKeys, ofMembers_eq, ofMembers_eq, renameKeys, ofMembers_eq]
    refine congrArg _ (setMembers_perm (hnodup hkeys) ?_)
    rw [← htwice, renameMembers_eq_map outer, renameMembers_eq_map outer]
    exact hinner.map _

end Json

end SqlClient
