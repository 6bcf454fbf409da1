import Mathlib.Data.List.Induction
import SqlClient.Json.Read
import SqlClient.Proofs.Lists
/-!
# JSON — members of objects

An object is built by setting its members one after the other. Under each key it has the last member
that was given for it (`lookup_setMembers`), and its keys ascend (`ascending_setMembers`). Members with
ascending keys are settled by what they have under each key (`eq_of_lookup_eq`), so the order in which
members with different keys are set has no say (`setMembers_perm`). A reader builds its objects like
this, so whatever it gives is ordered (`ordered_of_read`).
-/

namespace SqlClient

namespace Json

variable {items : List Json} {members members' : List (String × Json)}

/-! ## Parts of a document -/

/-- What holds of an array if it holds of its items, and of an object if it holds of its members, holds
of every document. -/
@[elab_as_elim]
theorem induct {motive : Json → Prop} (null : motive .null) (bool : ∀ b, motive (.bool b))
    (number : ∀ n, motive (.number n)) (string : ∀ s, motive (.string s))
    (array : ∀ items, (∀ x ∈ items, motive x) → motive (.array items))
    (object : ∀ members, (∀ m ∈ members, motive m.2) → motive (.object members)) :
    ∀ doc, motive doc
  | .null => null
  | .bool b => bool b
  | .number n => number n
  | .string s => string s
  | .array items => array items fun x _ => induct null bool number string array object x
  | .object members => object members fun m _ => induct null bool number string array object m.2
termination_by doc => sizeOf doc
decreasing_by
  · have hx := List.sizeOf_lt_of_mem ‹x ∈ items›
    simp only [Json.array.sizeOf_spec]
    omega
  · have hm := List.sizeOf_lt_of_mem ‹m ∈ members›
    have hdoc : sizeOf m.2 < sizeOf m := by
      cases m
      simp only [Prod.mk.sizeOf_spec]
      omega
    simp only [Json.object.sizeOf_spec]
    omega

theorem orderedItems_iff : OrderedItems items ↔ ∀ x ∈ items, Ordered x := by
  induction items with
  | nil => exact iff_of_true trivial fun x hx => by cases hx
  | cons x items ih => rw [OrderedItems, List.forall_mem_cons, ih]

theorem orderedMembers_iff : OrderedMembers members ↔ ∀ m ∈ members, Ordered m.2 := by
  induction members with
  | nil => exact iff_of_true trivial fun m hm => by cases hm
  | cons m members ih => rw [OrderedMembers, List.forall_mem_cons, ih]

theorem ordered_array : Ordered (.array items) ↔ ∀ x ∈ items, Ordered x := by
  rw [Ordered, orderedItems_iff]

theorem ordered_object :
    Ordered (.object members) ↔ Ascending members ∧ ∀ m ∈ members, Ordered m.2 := by
  rw [Ordered, orderedMembers_iff]

/-! ## Ascending keys -/

theorem ascending_iff : Ascending members ↔ members.Pairwise fun m n => m.1 < n.1 := by
  induction members with
  | nil => exact iff_of_true trivial .nil
  | cons m members ih =>
    cases members with
    | nil => exact iff_of_true trivial (List.pairwise_singleton _ _)
    | cons n members =>
      rw [Ascending, ih, List.pairwise_cons (a := m)]
      refine and_congr_left fun hrest => ?_
      constructor
      · intro hmn k hk
        rcases List.mem_cons.1 hk with rfl | hk
        · exact hmn
        · exact String.lt_trans hmn ((List.pairwise_cons.1 hrest).1 k hk)
      · intro hall
        exact hall n List.mem_cons_self

theorem Ascending.nodup_keys (h : Ascending members) : (members.map Prod.fst).Nodup :=
  List.pairwise_map.2 ((ascending_iff.1 h).imp String.ne_of_lt)

theorem Ascending.lookup_eq_some_iff (h : Ascending members) {key : String} {doc : Json} :
    members.lookup key = some doc ↔ (key, doc) ∈ members :=
  lookup_eq_some_iff_mem h.nodup_keys

/-- **Ascending members are settled by what they have under each key.** -/
theorem eq_of_lookup_eq (h : Ascending members) (h' : Ascending members')
    (hlookup : ∀ key, members.lookup key = members'.lookup key) : members = members' := by
  have hperm : members.Perm members' := by
    rw [List.perm_ext_iff_of_nodup h.nodup_keys.of_map h'.nodup_keys.of_map]
    rintro ⟨key, doc⟩
    rw [← h.lookup_eq_some_iff, ← h'.lookup_eq_some_iff, hlookup]
  exact hperm.eq_of_pairwise (fun _ _ _ _ hlt hgt => absurd hgt (String.lt_asymm hlt))
    (ascending_iff.1 h) (ascending_iff.1 h')

/-! ## Setting members -/

section Insert

variable (key : String) (doc : Json)

theorem lookup_insertMember (members : List (String × Json)) (k : String) :
    (insertMember key doc members).lookup k = if k = key then some doc else members.lookup k := by
  induction members with
  | nil => rw [insertMember, lookup_cons_ite]
  | cons m members ih =>
    rw [insertMember]
    split
    · rw [lookup_cons_ite]
    · split
      case isTrue heq =>
        rw [lookup_cons_ite, lookup_cons_ite]
        split
        · rfl
        · rw [if_neg (by rwa [← heq])]
      case isFalse hne =>
        rw [lookup_cons_ite, lookup_cons_ite, ih]
        split
        case isTrue hk => rw [if_neg (by rw [hk]; exact fun h => hne h.symm)]
        case isFalse => rfl

variable {key doc}

theorem mem_of_mem_insertMember {m : String × Json} (h : m ∈ insertMember key doc members) :
    m = (key, doc) ∨ m ∈ members := by
  induction members with
  | nil => exact .inl (List.mem_singleton.1 h)
  | cons n members ih =>
    rw [insertMember] at h
    split at h
    · exact List.mem_cons.1 h
    · split at h
      · exact (List.mem_cons.1 h).imp_right (List.mem_cons_of_mem _)
      · rcases List.mem_cons.1 h with rfl | h
        · exact .inr List.mem_cons_self
        · exact (ih h).imp_right (List.mem_cons_of_mem _)

theorem ascending_insertMember (h : Ascending members) : Ascending (insertMember key doc members) := by
  rw [ascending_iff] at h ⊢
  induction members with
  | nil => exact List.pairwise_singleton _ _
  | cons n members ih =>
    obtain ⟨hn, hmembers⟩ := List.pairwise_cons.1 h
    rw [insertMember]
    split
    case isTrue hlt =>
      refine List.pairwise_cons.2 ⟨fun m hm => ?_, h⟩
      rcases List.mem_cons.1 hm with rfl | hm
      · exact hlt
      · exact String.lt_trans hlt (hn m hm)
    case isFalse hle =>
      split
      case isTrue heq => exact List.pairwise_cons.2 ⟨fun m hm => heq ▸ hn m hm, hmembers⟩
      case isFalse hne =>
        refine List.pairwise_cons.2 ⟨fun m hm => ?_, ih hmembers⟩
        rcases mem_of_mem_insertMember hm with rfl | hm
        · exact Decidable.byContradiction fun h => hne (String.le_antisymm h hle)
        · exact hn m hm

end Insert

/-- Members set one after the other. -/
def setMembers (members : List (String × Json)) : List (String × Json) :=
  members.foldl (fun acc m => insertMember m.1 m.2 acc) []

theorem ofMembers_eq (members : List (String × Json)) : ofMembers members = .object (setMembers members) :=
  rfl

theorem setMembers_concat (members : List (String × Json)) (m : String × Json) :
    setMembers (members ++ [m]) = insertMember m.1 m.2 (setMembers members) := by
  rw [setMembers, List.foldl_concat, setMembers]

/-- **Of members with one key the last stays.** -/
theorem lookup_setMembers (members : List (String × Json)) (key : String) :
    (setMembers members).lookup key = members.reverse.lookup key := by
  induction members using List.reverseRecOn with
  | nil => rfl
  | append_singleton members m ih =>
    rw [setMembers_concat, lookup_insertMember, ih, List.reverse_concat, lookup_cons_ite]

theorem mem_keys_setMembers {key : String} :
    key ∈ (setMembers members).map Prod.fst ↔ key ∈ members.map Prod.fst := by
  rw [← isSome_lookup_iff, lookup_setMembers, isSome_lookup_iff, List.map_reverse, List.mem_reverse]

theorem ascending_setMembers (members : List (String × Json)) : Ascending (setMembers members) :=
  List.foldlRecOn members _ trivial fun _ h _ _ => ascending_insertMember h

theorem mem_of_mem_setMembers {m : String × Json} (h : m ∈ setMembers members) : m ∈ members := by
  induction members using List.reverseRecOn with
  | nil => exact h
  | append_singleton members n ih =>
    rw [setMembers_concat] at h
    rcases mem_of_mem_insertMember h with rfl | h
    · exact List.mem_append_right _ List.mem_cons_self
    · exact List.mem_append_left _ (ih h)

/-- Members with different keys are all kept. -/
theorem perm_setMembers (hkeys : (members.map Prod.fst).Nodup) : (setMembers members).Perm members := by
  rw [List.perm_ext_iff_of_nodup (ascending_setMembers members).nodup_keys.of_map hkeys.of_map]
  rintro ⟨key, doc⟩
  rw [← (ascending_setMembers members).lookup_eq_some_iff, lookup_setMembers,
    lookup_perm hkeys (List.reverse_perm members), lookup_eq_some_iff_mem hkeys]

/-- The order in which members with different keys are set has no say. -/
theorem setMembers_perm (hkeys : (members.map Prod.fst).Nodup) (h : members'.Perm members) :
    setMembers members' = setMembers members := by
  refine eq_of_lookup_eq (ascending_setMembers _) (ascending_setMembers _) fun key => ?_
  rw [lookup_setMembers, lookup_setMembers]
  exact lookup_perm (by rwa [List.map_reverse, List.nodup_reverse])
    ((List.reverse_perm _).trans (h.trans (List.reverse_perm _).symm)) key

/-- What is built of ordered documents is ordered. -/
theorem ordered_ofMembers (h : ∀ m ∈ members, Ordered m.2) : Ordered (ofMembers members) :=
  ordered_object.2 ⟨ascending_setMembers members, fun m hm => h m (mem_of_mem_setMembers hm)⟩

/-! ## Documents that are read -/

theorem ordered_of_readLiteral {literal : String} {value doc : Json} {cs rest : List Char}
    (h : readLiteral literal value cs = some (doc, rest)) (hvalue : Ordered value) : Ordered doc := by
  rw [readLiteral] at h
  split at h
  · cases h
    exact hvalue
  · cases h

/-- Whatever a reader with this fuel gives is ordered, as long as what was read before is. -/
structure ReadsOrdered (fuel : Nat) : Prop where
  value : ∀ {depth cs doc rest}, readValue fuel depth cs = some (doc, rest) → Ordered doc
  items : ∀ {depth acc cs doc rest}, readItems fuel depth acc cs = some (doc, rest) →
    (∀ x ∈ acc, Ordered x) → Ordered doc
  members : ∀ {depth acc cs doc rest}, readMembers fuel depth acc cs = some (doc, rest) →
    (∀ m ∈ acc, Ordered m.2) → Ordered doc

section Step

variable {fuel depth : Nat} {cs rest : List Char} {doc : Json} (hreads : ReadsOrdered fuel)
include hreads

theorem ReadsOrdered.value_succ (h : readValue (fuel + 1) depth cs = some (doc, rest)) : Ordered doc := by
  rw [readValue] at h
  split at h
  · obtain ⟨_, -, heq⟩ := Option.map_eq_some_iff.1 h
    cases heq
    trivial
  · split at h
    · cases h
    · split at h
      · cases h
        exact ordered_array.2 (List.forall_mem_nil _)
      · exact hreads.items h (List.forall_mem_nil _)
  · split at h
    · cases h
    · split at h
      · cases h
        exact ordered_object.2 ⟨trivial, List.forall_mem_nil _⟩
      · exact hreads.members h (List.forall_mem_nil _)
  · exact ordered_of_readLiteral h trivial
  · exact ordered_of_readLiteral h trivial
  · exact ordered_of_readLiteral h trivial
  · obtain ⟨_, -, heq⟩ := Option.map_eq_some_iff.1 h
    cases heq
    trivial

theorem ReadsOrdered.items_succ {acc : List Json}
    (h : readItems (fuel + 1) depth acc cs = some (doc, rest)) (hacc : ∀ x ∈ acc, Ordered x) :
    Ordered doc := by
  rw [readItems] at h
  split at h
  · cases h
  · rename_i x _ hx
    have hacc' := List.forall_mem_cons.2 ⟨hreads.value hx, hacc⟩
    split at h
    · exact hreads.items h hacc'
    · cases h
      exact ordered_array.2 fun y hy => hacc' y (List.mem_reverse.1 hy)
    · cases h

theorem ReadsOrdered.members_succ {acc : List (String × Json)}
    (h : readMembers (fuel + 1) depth acc cs = some (doc, rest)) (hacc : ∀ m ∈ acc, Ordered m.2) :
    Ordered doc := by
  rw [readMembers] at h
  split at h
  · split at h
    · cases h
    · rename_i k _ _
      split at h
      · split at h
        · cases h
        · rename_i x _ hx
          have hacc' : ∀ m ∈ (k, x) :: acc, Ordered m.2 :=
            List.forall_mem_cons.2 ⟨hreads.value hx, hacc⟩
          split at h
          · exact hreads.members h hacc'
          · cases h
            exact ordered_ofMembers fun m hm => hacc' m (List.mem_reverse.1 hm)
          · cases h
      · cases h
  · cases h

end Step

theorem readsOrdered (fuel : Nat) : ReadsOrdered fuel := by
  induction fuel with
  | zero =>
    refine ⟨fun h => ?_, fun h => ?_, fun h => ?_⟩
    · rw [readValue.eq_def] at h
      cases h
    · rw [readItems.eq_def] at h
      cases h
    · rw [readMembers.eq_def] at h
      cases h
  | succ fuel ih => exact ⟨ih.value_succ, ih.items_succ, ih.members_succ⟩

/-- **What is read is ordered.** -/
theorem ordered_of_read {s : String} {doc : Json} (h : read? s = some doc) : Ordered doc := by
  rw [read?] at h
  split at h
  · rename_i hread
    split at h
    · cases h
      exact (readsOrdered _).value hread
    · cases h
  · cases h

end Json

end SqlClient
