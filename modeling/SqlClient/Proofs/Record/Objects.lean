import SqlClient.Proofs.Compiler.Records
import SqlClient.Proofs.Json.Objects
import SqlClient.Proofs.Json.Texts
import SqlClient.Proofs.Number.Nearest
import SqlClient.Proofs.Text.Order
/-!
# Records — objects as records

A record is made of an object member by member. The keys of an object ascend, so every member is set in a
new column behind the others (`entries_ofList`), and the columns are the keys in the order of their bytes.
Each value is written again as the document that it was made of, unless that is an integer that 64 bits
with a sign do not hold (`Value.toJson_ofJson_iff`). Such a count is held as the nearest double
(`Value.ofJson_count`).
-/

namespace SqlClient

/-! ## Documents as values -/

namespace Json

/-- An integer that 64 bits with a sign do not hold. -/
def Beyond (doc : Json) : Prop :=
  ∃ i : Int, doc = .ofInt i ∧ ¬ (-(pow2 63 : Int) ≤ i ∧ i < pow2 63)

theorem finiteMembers_iff {members : List (String × Json)} :
    FiniteMembers members ↔ ∀ m ∈ members, Finite m.2 := by
  induction members with
  | nil => exact iff_of_true trivial fun m hm => by cases hm
  | cons m members ih => rw [FiniteMembers, List.forall_mem_cons, ih]

end Json

namespace Value

variable {doc : Json} {i : Int}

theorem ofJson_of_beyond (hi : ¬ (-(pow2 63 : Int) ≤ i ∧ i < pow2 63)) :
    ofJson (.ofInt i) = .double (.ofInt i) :=
  if_neg hi

theorem toJson_ofJson_int (hi : -(pow2 63 : Int) ≤ i ∧ i < pow2 63) :
    (ofJson (.ofInt i)).toJson = .ofInt i := by
  have hint : ofJson (.ofInt i) = .int (Int64.ofInt i) := if_pos hi
  rw [hint, toJson, Int64.toInt_ofInt_of_le hi.1 hi.2]

theorem ofDouble_ne_ofInt (x : Double) (i : Int) : Json.ofDouble x ≠ .ofInt i := by
  rw [Json.ofDouble]
  split
  · intro h
    cases h
  · intro h
    cases h

/-- **A finite document is written as it was read, unless it is an integer beyond 64 bits.** -/
theorem toJson_ofJson_iff (hdoc : doc.Finite) : (ofJson doc).toJson = doc ↔ ¬ doc.Beyond := by
  cases doc with
  | number n =>
    cases n with
    | int i =>
      constructor
      · rintro h ⟨j, hj, hbeyond⟩
        cases hj
        exact ofDouble_ne_ofInt _ _ ((congrArg toJson (ofJson_of_beyond hbeyond)).symm.trans h)
      · intro h
        refine toJson_ofJson_int ?_
        by_contra hbeyond
        exact h ⟨i, rfl, hbeyond⟩
    | double x =>
      refine iff_of_true (if_pos hdoc) ?_
      rintro ⟨i, hi, -⟩
      cases hi
  | _ =>
    refine iff_of_true rfl ?_
    rintro ⟨i, hi, -⟩
    cases hi

/-- **A count beyond 63 bits is held as the nearest double.** -/
theorem ofJson_count {n : Nat} (hleast : pow2 63 ≤ n) (hgreatest : n < pow2 64) :
    ∃ x : Double, ofJson (.ofInt n) = .double x ∧ x.NearestTo n ∧
      (ofJson (.ofInt n)).toJson = .number (.double x) := by
  have hnearest := Double.nearestTo_ofInt hleast hgreatest
  have hheld : ofJson (.ofInt n) = .double (.ofInt n) := ofJson_of_beyond (by omega)
  refine ⟨.ofInt n, hheld, hnearest, ?_⟩
  rw [hheld]
  exact if_pos hnearest.finite

end Value

/-! ## Members as columns -/

namespace Record

variable {r : Record} {entries : List (String × Value)} {members : List (String × Json)}

/-- A new column is set behind the others. -/
theorem setEntry_of_notMem {column : String} (value : Value) (h : column ∉ entries.map Prod.fst) :
    setEntry column value entries = entries ++ [(column, value)] := by
  induction entries with
  | nil => rfl
  | cons e rest ih =>
    rw [List.map_cons, List.mem_cons, not_or] at h
    rw [setEntry, if_neg (Ne.symm h.1), ih h.2, List.cons_append]

/-- Columns that are all new and all different are set one behind the other. -/
theorem entries_foldl_set (h : (r.columns ++ entries.map Prod.fst).Nodup) :
    (entries.foldl (fun r e => r.set e.1 e.2) r).entries = r.entries ++ entries := by
  induction entries generalizing r with
  | nil => exact (List.append_nil _).symm
  | cons e rest ih =>
    have hnew : e.1 ∉ r.columns := fun hmem =>
      (List.nodup_append.1 h).2.2 _ hmem _ List.mem_cons_self rfl
    have hset : (r.set e.1 e.2).entries = r.entries ++ [e] := setEntry_of_notMem e.2 hnew
    have hcolumns : (r.set e.1 e.2).columns = r.columns ++ [e.1] := by
      rw [columns, hset, List.map_append]
      rfl
    rw [List.foldl_cons, ih (by simpa [hcolumns] using h), hset, List.append_assoc,
      List.singleton_append]

theorem entries_ofList (h : (entries.map Prod.fst).Nodup) : (ofList entries).entries = entries :=
  entries_foldl_set (r := empty) h

/-- **An object becomes a record with its keys and its values.** The record has the keys as columns, in
the order of their bytes. Under each key it holds a value that is written as the member, unless the member
is an integer beyond 64 bits; a count that only 64 bits without a sign hold is there as the nearest
double. -/
theorem record_of_object (hordered : (Json.object members).Ordered) (hfinite : (Json.object members).Finite) :
    ∃ r, ofJson (.object members) = .ok r ∧
      r.columns = members.map Prod.fst ∧
      r.columns.Pairwise (fun c c' => encodeText c < encodeText c') ∧
      ∀ key doc, (Json.object members).member? key = some doc →
        ∃ v, r.get? key = some v ∧ (v.toJson = doc ↔ ¬ doc.Beyond) ∧
          ∀ n : Nat, doc = .ofInt n → pow2 63 ≤ n → n < pow2 64 →
            ∃ x, v = .double x ∧ x.NearestTo n ∧ v.toJson = .number (.double x) := by
  obtain ⟨hascending, -⟩ := Json.ordered_object.1 hordered
  have hkeys : (members.map fun m => (m.1, Value.ofJson m.2)).map Prod.fst = members.map Prod.fst := by
    rw [List.map_map]
    rfl
  -- no key of an object is repeated, so every member makes an entry of its own
  have hentries : (ofList (members.map fun m => (m.1, Value.ofJson m.2))).entries =
      members.map fun m => (m.1, Value.ofJson m.2) :=
    entries_ofList (hkeys.symm ▸ hascending.nodup_keys)
  refine ⟨ofList (members.map fun m => (m.1, Value.ofJson m.2)), rfl, ?_, ?_, ?_⟩
  · rw [columns, hentries, hkeys]
  · rw [columns, hentries, hkeys, List.pairwise_map]
    exact (Json.ascending_iff.1 hascending).imp encodeText_lt
  · intro key doc hdoc
    have hmem : (key, doc) ∈ members := hascending.lookup_eq_some_iff.1 hdoc
    refine ⟨Value.ofJson doc, ?_, ?_, ?_⟩
    · rw [Built.get?_eq_some_iff ⟨_, rfl⟩, hentries]
      exact List.mem_map_of_mem hmem
    · exact Value.toJson_ofJson_iff (Json.finiteMembers_iff.1 hfinite _ hmem)
    · rintro n rfl hleast hgreatest
      exact Value.ofJson_count hleast hgreatest

/-- Members at the limits of 64 bits with a sign, one of them beyond. -/
def limits : List (String × Json) :=
  [("doc", .object [("least", .ofInt (-9223372036854775808)), ("over", .ofInt 9223372036854775809)]),
    ("most", .ofInt 9223372036854775807), ("over", .ofInt 9223372036854775809)]

/-- The greatest integer and the document are kept; the count that is greater is not. -/
theorem record_of_object_limits :
    (Json.object limits).Ordered ∧ (Json.object limits).Finite ∧
      ∃ r, ofJson (.object limits) = .ok r ∧ r.columns = ["doc", "most", "over"] ∧
        (∃ v, r.get? "doc" = some v ∧ some v.toJson = (Json.object limits).member? "doc") ∧
        (∃ v, r.get? "most" = some v ∧ v.toJson = .ofInt 9223372036854775807) ∧
        ∃ x, r.get? "over" = some (.double x) ∧ x.NearestTo 9223372036854775809 := by
  have hordered : (Json.object limits).Ordered := by
    simp only [limits, Json.Ordered, Json.OrderedMembers, Json.Ascending, Json.ofInt]
    decide
  have hfinite : (Json.object limits).Finite := by
    simp only [limits, Json.Finite, Json.FiniteMembers, Json.ofInt, and_self]
  obtain ⟨r, hr, hcolumns, -, hvalues⟩ := record_of_object hordered hfinite
  obtain ⟨doc, hdoc, hkept, -⟩ := hvalues "doc" _ rfl
  obtain ⟨most, hmost, hkept', -⟩ := hvalues "most" _ rfl
  obtain ⟨wide, hwide, -, hnearest⟩ := hvalues "over" _ rfl
  obtain ⟨x, rfl, hx, -⟩ := hnearest 9223372036854775809 rfl (by decide) (by decide)
  refine ⟨hordered, hfinite, r, hr, hcolumns, ⟨doc, hdoc, congrArg some (hkept.2 ?_)⟩,
    ⟨most, hmost, hkept'.2 ?_⟩, x, hwide, hx⟩
  · rintro ⟨i, hi, -⟩
    cases hi
  · rintro ⟨i, hi, hbeyond⟩
    cases hi
    exact hbeyond (by decide)

/-- A member that only 64 bits without a sign hold. -/
def beyond : List (String × Json) := [("over", .ofInt 9223372036854775809)]

/-- A count beyond 63 bits is not written as it was read. -/
theorem beyond_changes :
    (Json.object beyond).Ordered ∧ (Json.object beyond).Finite ∧
      ∃ r v, ofJson (.object beyond) = .ok r ∧ r.get? "over" = some v ∧
        (Json.object beyond).member? "over" = some (.ofInt 9223372036854775809) ∧
        v.toJson ≠ .ofInt 9223372036854775809 :=
  ⟨⟨trivial, trivial, trivial⟩, ⟨trivial, trivial⟩, _, _, rfl, rfl, rfl, by decide⟩

end Record

end SqlClient
