import Mathlib.Data.List.Forall2
import Mathlib.Data.List.Nodup
/-!
# Lists — entries, places and outcomes

Facts about lists that no module of the client owns: what a list of entries by key answers when
entries are taken out, added or put in another order, where the places of rows of one width are, what
is related to a list item by item, how joined lists are appended and where a list comes apart, and when
an outcome for each member comes to an outcome for all.
-/

namespace SqlClient

/-! ## Entries by key -/

section Entries

variable {κ α : Type} [DecidableEq κ] {entries entries' : List (κ × α)} {key k : κ} {a : α}

theorem lookup_cons_ite (entry : κ × α) (entries : List (κ × α)) (key : κ) :
    (entry :: entries).lookup key =
      if key = entry.1 then some entry.2 else entries.lookup key := by
  rw [List.lookup_cons]
  by_cases h : key = entry.1
  · simp [h]
  · have hbeq : (key == entry.1) = false := by simpa using h
    rw [hbeq, if_neg h]

theorem lookup_filter_of_ne (h : k ≠ key) (entries : List (κ × α)) :
    (entries.filter fun w => w.1 ≠ key).lookup k = entries.lookup k := by
  induction entries with
  | nil => rfl
  | cons w entries ih =>
    rw [List.filter_cons, lookup_cons_ite]
    by_cases hw : w.1 = key
    · rw [if_neg (by simpa using hw), if_neg (hw ▸ h)]
      exact ih
    · rw [if_pos (by simpa using hw), lookup_cons_ite, ih]

theorem lookup_filter_self (key : κ) (entries : List (κ × α)) :
    (entries.filter fun w => w.1 ≠ key).lookup key = none := by
  rw [List.lookup_eq_none_iff]
  intro w hw
  have hne : w.1 ≠ key := by simpa using (List.mem_filter.1 hw).2
  simpa using hne.symm

theorem lookup_eq_some_iff_mem (hkeys : (entries.map Prod.fst).Nodup) :
    entries.lookup key = some a ↔ (key, a) ∈ entries := by
  induction entries with
  | nil => simp
  | cons v entries ih =>
    obtain ⟨hv, hkeys⟩ := List.nodup_cons.1 hkeys
    rw [lookup_cons_ite, List.mem_cons]
    by_cases hkey : key = v.1
    · have hout : (key, a) ∉ entries := fun hmem => hv (hkey ▸ List.mem_map.2 ⟨_, hmem, rfl⟩)
      simp [hkey, hkey ▸ hout, Prod.ext_iff, eq_comm]
    · have hne : (key, a) ≠ v := by
        rintro rfl
        exact hkey rfl
      simp [hkey, hne, ih hkeys]

theorem isSome_lookup_iff : (entries.lookup key).isSome = true ↔ key ∈ entries.map Prod.fst := by
  rw [List.lookup_isSome_iff, List.mem_map]
  exact exists_congr fun entry => and_congr_right' (beq_iff_eq.trans eq_comm)

/-- Where no key has two entries, their order has no say in what is found. -/
theorem lookup_perm (hkeys : (entries.map Prod.fst).Nodup) (h : entries'.Perm entries) (key : κ) :
    entries'.lookup key = entries.lookup key := by
  have hkeys' : (entries'.map Prod.fst).Nodup := (h.map _).nodup_iff.2 hkeys
  refine Option.ext fun a => ?_
  rw [lookup_eq_some_iff_mem hkeys', lookup_eq_some_iff_mem hkeys, h.mem_iff]

/-- A key that is added unless it is there stands in one place. -/
theorem nodup_addNew {keys : List κ} (h : keys.Nodup) (key : κ) :
    (if key ∈ keys then keys else keys ++ [key]).Nodup := by
  split
  case isTrue => exact h
  case isFalse hnew =>
    refine List.nodup_append.2 ⟨h, by simp, fun k hk other hother => ?_⟩
    rw [List.mem_singleton.1 hother]
    rintro rfl
    exact hnew hk

end Entries

/-! ## Places -/

section Places

variable {α β : Type}

/-- A place in rows of one width that stand one after another. -/
theorem getElem?_flatMap_of_length {f : α → List β} {width : Nat} {xs : List α}
    (h : ∀ x ∈ xs, (f x).length = width) {i j : Nat} {x : α} (hi : xs[i]? = some x)
    (hj : j < width) : (xs.flatMap f)[i * width + j]? = (f x)[j]? := by
  induction xs generalizing i with
  | nil => cases hi
  | cons y xs ih =>
    obtain ⟨hy, hxs⟩ := List.forall_mem_cons.1 h
    rw [List.flatMap_cons]
    cases i with
    | zero =>
      obtain rfl : y = x := by simpa using hi
      rw [Nat.zero_mul, Nat.zero_add, List.getElem?_append_left (hy.symm ▸ hj)]
    | succ i =>
      have hplace : (i + 1) * width + j = (f y).length + (i * width + j) := by
        rw [hy, Nat.succ_mul]
        omega
      rw [hplace, List.getElem?_append_right (Nat.le_add_right _ _), Nat.add_sub_cancel_left]
      exact ih hxs (by simpa using hi)

theorem length_flatMap_of_length {f : α → List β} {width : Nat} {xs : List α}
    (h : ∀ x ∈ xs, (f x).length = width) : (xs.flatMap f).length = xs.length * width := by
  induction xs with
  | nil => simp
  | cons y xs ih =>
    obtain ⟨hy, hxs⟩ := List.forall_mem_cons.1 h
    rw [List.flatMap_cons, List.length_append, hy, ih hxs, List.length_cons, Nat.succ_mul,
      Nat.add_comm]

theorem map_snd_zipIdx (f : Nat → β) (xs : List α) :
    (xs.zipIdx.map fun x => f x.2) = (List.range xs.length).map f := by
  have hplaces : xs.zipIdx.map Prod.snd = List.range xs.length := by
    rw [List.zipIdx_map_snd, List.range_eq_range']
  rw [← hplaces, List.map_map]
  rfl

end Places

/-! ## Lists that are related, lists that are joined -/

section Joined

variable {α β : Type} {r : α → β → Prop} {f : α → β}

/-- What is related to the items of a list in one way only is related to the list in one way only. -/
theorem forall₂_iff_eq_map {xs : List α} {ys : List β} (h : ∀ x ∈ xs, ∀ y, r x y ↔ y = f x) :
    List.Forall₂ r xs ys ↔ ys = xs.map f := by
  induction xs generalizing ys with
  | nil => rw [List.forall₂_nil_left_iff, List.map_nil]
  | cons x xs ih =>
    obtain ⟨hx, hxs⟩ := List.forall_mem_cons.1 h
    rw [List.forall₂_cons_left_iff, List.map_cons]
    constructor
    · rintro ⟨y, ys, hy, hys, rfl⟩
      rw [(hx y).1 hy, (ih hxs).1 hys]
    · rintro rfl
      exact ⟨_, _, (hx _).2 rfl, (ih hxs).2 rfl, rfl⟩

/-- A run of items of some kind ends where an item of another kind comes. -/
theorem append_inj_of_forall {p : α → Bool} {as bs rest rest' : List α} (has : ∀ a ∈ as, p a = true)
    (hbs : ∀ a ∈ bs, p a = true) (hrest : ∀ a ∈ rest.head?, p a = false)
    (hrest' : ∀ a ∈ rest'.head?, p a = false) (h : as ++ rest = bs ++ rest') :
    as = bs ∧ rest = rest' := by
  have hstop {rest : List α} (hrest : ∀ a ∈ rest.head?, p a = false) : rest.takeWhile p = [] := by
    cases rest with
    | nil => rfl
    | cons a rest => rw [List.takeWhile_cons, hrest a rfl, if_neg Bool.false_ne_true]
  have htake := congrArg (List.takeWhile p) h
  rw [List.takeWhile_append_of_pos has, List.takeWhile_append_of_pos hbs, hstop hrest, hstop hrest',
    List.append_nil, List.append_nil] at htake
  subst htake
  exact ⟨rfl, List.append_cancel_left h⟩

theorem intercalate_append {separator : List α} {xs ys : List (List α)} (hxs : xs ≠ [])
    (hys : ys ≠ []) : separator.intercalate (xs ++ ys) =
      separator.intercalate xs ++ separator ++ separator.intercalate ys := by
  induction xs with
  | nil => exact absurd rfl hxs
  | cons x xs ih =>
    cases xs with
    | nil => rw [List.singleton_append, List.intercalate_cons_of_ne_nil hys, List.intercalate_singleton]
    | cons x' xs =>
      rw [List.cons_append, List.cons_append, List.intercalate_cons_cons, List.intercalate_cons_cons,
        ← List.cons_append, ih (List.cons_ne_nil _ _)]
      simp only [List.append_assoc]

/-- What becomes of the joined lists, joined. -/
theorem flatMap_intercalate (g : α → List β) (separator : List α) (xss : List (List α)) :
    (separator.intercalate xss).flatMap g =
      (separator.flatMap g).intercalate (xss.map (List.flatMap g)) := by
  induction xss with
  | nil => rfl
  | cons xs xss ih =>
    cases xss with
    | nil => rw [List.intercalate_singleton, List.map_singleton, List.intercalate_singleton]
    | cons xs' xss =>
      rw [List.intercalate_cons_cons, List.flatMap_append, List.flatMap_append, ih, List.map_cons,
        List.map_cons, List.map_cons, List.intercalate_cons_cons]

end Joined

/-! ## Outcomes of all members -/

section Outcomes

variable {ε α β : Type} {f : α → Except ε β} {xs before after : List α} {x : α} {ys : List β}
  {e : ε}

theorem mapM_of_map_ok (h : xs.map f = ys.map .ok) : xs.mapM f = .ok ys := by
  induction xs generalizing ys with
  | nil =>
    obtain rfl := List.map_eq_nil_iff.1 h.symm
    rfl
  | cons x xs ih =>
    obtain ⟨y, ys, rfl, hy, hys⟩ := List.map_eq_cons_iff.1 h.symm
    rw [List.mapM_cons, ← hy, ih hys.symm]
    rfl

/-- The first member that fails is what the whole list fails with. -/
theorem mapM_of_first_error (hbefore : ∀ y ∈ before, ∃ b, f y = .ok b) (hx : f x = .error e) :
    (before ++ x :: after).mapM f = .error e := by
  induction before with
  | nil =>
    rw [List.nil_append, List.mapM_cons, hx]
    rfl
  | cons y before ih =>
    obtain ⟨b, hb⟩ := hbefore y (by simp)
    rw [List.cons_append, List.mapM_cons, hb, ih fun y hy => hbefore y (List.mem_cons_of_mem _ hy)]
    rfl

theorem all_ok_or_first_error (f : α → Except ε β) (xs : List α) :
    (∃ ys : List β, xs.map f = ys.map .ok) ∨ ∃ before x after e,
      xs = before ++ x :: after ∧ (∀ y ∈ before, ∃ b, f y = .ok b) ∧ f x = .error e := by
  induction xs with
  | nil => exact .inl ⟨[], rfl⟩
  | cons x xs ih =>
    cases hx : f x with
    | error e => exact .inr ⟨[], x, xs, e, rfl, fun _ hy => absurd hy List.not_mem_nil, hx⟩
    | ok b =>
      rcases ih with ⟨ys, hys⟩ | ⟨before, x', after, e, rfl, hbefore, hx'⟩
      · exact .inl ⟨b :: ys, by rw [List.map_cons, hx, hys, List.map_cons]⟩
      · exact .inr ⟨x :: before, x', after, e, rfl, List.forall_mem_cons.2 ⟨⟨b, hx⟩, hbefore⟩, hx'⟩

theorem mapM_eq_ok_iff : xs.mapM f = .ok ys ↔ xs.map f = ys.map .ok := by
  refine ⟨fun h => ?_, mapM_of_map_ok⟩
  rcases all_ok_or_first_error f xs with ⟨ys', hys'⟩ | ⟨before, x, after, e, rfl, hbefore, hx⟩
  · rw [mapM_of_map_ok hys'] at h
    rw [hys', Except.ok.inj h]
  · rw [mapM_of_first_error hbefore hx] at h
    cases h

theorem mapM_eq_error_iff :
    xs.mapM f = .error e ↔ ∃ before x after,
      xs = before ++ x :: after ∧ (∀ y ∈ before, ∃ b, f y = .ok b) ∧ f x = .error e := by
  refine ⟨fun h => ?_, ?_⟩
  · rcases all_ok_or_first_error f xs with ⟨ys, hys⟩ | ⟨before, x, after, e', rfl, hbefore, hx⟩
    · rw [mapM_of_map_ok hys] at h
      cases h
    · rw [mapM_of_first_error hbefore hx] at h
      exact ⟨before, x, after, rfl, hbefore, Except.error.inj h ▸ hx⟩
  · rintro ⟨before, x, after, rfl, hbefore, hx⟩
    exact mapM_of_first_error hbefore hx

end Outcomes

end SqlClient
