import Mathlib.Data.List.Nodup
import SqlClient.Proofs.Lists
import SqlClient.Resolver.Answers
/-!
# Resolvers — rows matched to requests by key

The rows of a batch are gone through once, and each is written to the places that wait for its key.
Both kinds of matching come to a function of the key alone: `firstAnswer`, the first row that has
the key, and `allAnswer`, all rows that have it. A step of the first takes its key out of the map
(`Underway` says what is left in it), a step of the second leaves the map as it is.

A map of keys is asked for single keys only, so no order of its entries shows in the answers
(`Shuffled`).
-/

namespace SqlClient

namespace Answers

variable {ι κ α : Type} [DecidableEq κ] {keys : List κ} {key k : κ} {place i : Nat}

/-! ## Places -/

/-- The places of a key among the keys of a batch, in order. -/
def placesOf (keys : List κ) (key : κ) : List Nat :=
  (keys.zipIdx.filter fun k => k.1 = key).map Prod.snd

theorem mem_placesOf : i ∈ placesOf keys key ↔ keys[i]? = some key := by
  rw [placesOf, List.mem_map]
  constructor
  · rintro ⟨⟨k, j⟩, hmem, rfl⟩
    obtain ⟨hfiled, hkey⟩ := List.mem_filter.1 hmem
    obtain rfl : k = key := by simpa using hkey
    exact List.mem_zipIdx_iff_getElem?.1 hfiled
  · intro h
    exact ⟨(key, i), List.mem_filter.2 ⟨List.mem_zipIdx_iff_getElem?.2 h, by simp⟩, rfl⟩

theorem nodup_placesOf (keys : List κ) (key : κ) : (placesOf keys key).Nodup := by
  have hall : (keys.zipIdx.map Prod.snd).Nodup := by
    rw [List.zipIdx_map_snd]
    exact List.nodup_range'
  exact hall.sublist (List.filter_sublist.map _)

/-- The places that wait for a key. -/
def Waiting.places (w : Waiting κ) (key : κ) : List Nat := (List.lookup key w).getD []

theorem Waiting.places_add (w : Waiting κ) (key : κ) (place : Nat) (k : κ) :
    (w.add key place).places k = if k = key then w.places k ++ [place] else w.places k := by
  induction w with
  | nil =>
    rw [add, places, places, lookup_cons_ite]
    split <;> rfl
  | cons entry w ih =>
    obtain ⟨other, waiting⟩ := entry
    simp only [places] at ih
    rw [add]
    split
    case isTrue hother =>
      subst hother
      simp only [places, lookup_cons_ite]
      split <;> rfl
    case isFalse hother =>
      simp only [places, lookup_cons_ite]
      by_cases hk : k = other
      · subst hk
        simp [hother]
      · simpa [hk] using ih

theorem places_foldl_add (pairs : List (κ × Nat)) (w : Waiting κ) (key : κ) :
    (pairs.foldl (fun w k => w.add k.1 k.2) w).places key =
      w.places key ++ (pairs.filter fun k => k.1 = key).map Prod.snd := by
  induction pairs generalizing w with
  | nil => simp
  | cons pair pairs ih =>
    rw [List.foldl_cons, ih, Waiting.places_add, List.filter_cons]
    by_cases hkey : pair.1 = key
    · simp [hkey]
    · have hne : ¬ key = pair.1 := fun h => hkey h.symm
      simp [hkey, hne]

/-- **Every place waits for its key.** -/
theorem places_ofKeys (keys : List κ) (key : κ) :
    (Waiting.ofKeys keys).places key = placesOf keys key := by
  rw [Waiting.ofKeys, places_foldl_add]
  rfl

theorem Waiting.map_fst_add (w : Waiting κ) (key : κ) (place : Nat) :
    (w.add key place).map Prod.fst =
      if key ∈ w.map Prod.fst then w.map Prod.fst else w.map Prod.fst ++ [key] := by
  induction w with
  | nil => rfl
  | cons entry w ih =>
    rw [add]
    by_cases hkey : entry.1 = key
    · simp [hkey]
    · have hne : ¬ key = entry.1 := fun h => hkey h.symm
      rw [if_neg hkey, List.map_cons, ih, List.map_cons]
      simp only [List.mem_cons, hne, false_or]
      split <;> rfl

theorem nodup_ofKeys (keys : List κ) : ((Waiting.ofKeys keys).map Prod.fst).Nodup := by
  have hrun (pairs : List (κ × Nat)) : ∀ w : Waiting κ, (w.map Prod.fst).Nodup →
      ((pairs.foldl (fun w k => w.add k.1 k.2) w).map Prod.fst).Nodup := by
    induction pairs with
    | nil => exact fun _ hw => hw
    | cons pair pairs ih =>
      exact fun w hw => ih _ (w.map_fst_add pair.1 pair.2 ▸ nodup_addNew hw pair.1)
  exact hrun keys.zipIdx [] List.nodup_nil

/-! ## Writing -/

/-- Everything that waits does so at a place that has an answer. -/
def InRange (waiting : Waiting κ) (answers : List (Outcome α)) : Prop :=
  ∀ key places, List.lookup key waiting = some places → ∀ place ∈ places, place < answers.length

theorem inRange_of_places {waiting : Waiting κ} {answers : List (Outcome α)}
    (h : ∀ key, ∀ place ∈ waiting.places key, place < answers.length) :
    InRange waiting answers := by
  intro key places hplaces
  have hall := h key
  rwa [Waiting.places, hplaces] at hall

theorem getElem?_changeAt (f : Outcome α → Outcome α) {places : List Nat} (hplaces : places.Nodup)
    (answers : List (Outcome α)) (i : Nat) :
    (changeAt f places answers)[i]? = if i ∈ places then answers[i]?.map f else answers[i]? := by
  rw [changeAt]
  induction places generalizing answers with
  | nil => simp
  | cons place places ih =>
    obtain ⟨hfresh, hplaces⟩ := List.nodup_cons.1 hplaces
    rw [List.foldl_cons, ih hplaces, List.getElem?_modify]
    by_cases hi : place = i
    · subst hi
      simp [hfresh]
    · have hne : ¬ i = place := fun h => hi h.symm
      simp [hi, hne]

/-- **A write at the places of a key** is a change of what this key is answered. -/
theorem changeAt_placesOf (f : Outcome α → Outcome α) (answer : κ → Outcome α) (keys : List κ)
    (key : κ) : changeAt f (placesOf keys key) (keys.map answer) =
      keys.map fun k => if k = key then f (answer k) else answer k := by
  refine List.ext_getElem? fun i => ?_
  rw [getElem?_changeAt f (nodup_placesOf keys key), List.getElem?_map, List.getElem?_map]
  simp only [mem_placesOf]
  cases hi : keys[i]? with
  | none => simp
  | some k => by_cases hk : k = key <;> simp [hk]

variable {rowKey : Row → Option κ} {decode : Row → Outcome α} {row : Row}
  {before after seen rows : List Row}

/-! ## The first row of a key -/

/-- What answers a key when some rows have come: the first of them that has it. -/
def firstAnswer (rowKey : Row → Option κ) (decode : Row → Outcome α) (rows : List Row) (key : κ) :
    Outcome (Option α) :=
  match rows.find? fun row => rowKey row = some key with
  | none => .ok none
  | some row => (decode row).map some

theorem firstAnswer_of_forall_ne (h : ∀ row ∈ rows, rowKey row ≠ some key) :
    firstAnswer rowKey decode rows key = .ok none := by
  have hnone : rows.find? (fun row => rowKey row = some key) = none :=
    List.find?_eq_none.2 fun row hrow => by simpa using h row hrow
  rw [firstAnswer, hnone]

theorem firstAnswer_append_of_first (hbefore : ∀ row ∈ before, rowKey row ≠ some key)
    (h : rowKey row = some key) :
    firstAnswer rowKey decode (before ++ row :: after) key = (decode row).map some := by
  have hnone : before.find? (fun row => rowKey row = some key) = none :=
    List.find?_eq_none.2 fun row hrow => by simpa using hbefore row hrow
  rw [firstAnswer, List.find?_append, hnone, Option.none_or,
    List.find?_cons_of_pos (by simpa using h)]

/-- A row of another key changes nothing, wherever it stands. -/
theorem firstAnswer_of_ne (h : rowKey row ≠ some key) (before after : List Row) :
    firstAnswer rowKey decode (before ++ row :: after) key =
      firstAnswer rowKey decode (before ++ after) key := by
  rw [firstAnswer, firstAnswer, List.find?_append, List.find?_append,
    List.find?_cons_of_neg (by simpa using h)]

theorem firstAnswer_append_of_ne (h : rowKey row ≠ some key) (seen : List Row) :
    firstAnswer rowKey decode (seen ++ [row]) key = firstAnswer rowKey decode seen key := by
  rw [firstAnswer_of_ne h, List.append_nil]

/-- A row whose key has been seen comes too late. -/
theorem firstAnswer_append_of_seen (h : rowKey row = some key)
    (hseen : ∃ r ∈ seen, rowKey r = some key) :
    firstAnswer rowKey decode (seen ++ [row]) = firstAnswer rowKey decode seen := by
  funext k
  by_cases hk : rowKey row = some k
  · obtain ⟨r, hr, hkey⟩ := hseen
    obtain ⟨first, hfirst⟩ : ∃ first, seen.find? (fun r => rowKey r = some k) = some first :=
      Option.isSome_iff_exists.1 (List.find?_isSome.2 ⟨r, hr, by simp [hkey, ← h, hk]⟩)
    rw [firstAnswer, List.find?_append, hfirst, firstAnswer, hfirst]
    rfl
  · exact firstAnswer_append_of_ne hk seen

/-- A row whose key is new answers all requests with this key. -/
theorem map_firstAnswer_append_of_new (keys : List κ) (h : rowKey row = some key)
    (hnew : ∀ r ∈ seen, rowKey r ≠ some key) :
    keys.map (firstAnswer rowKey decode (seen ++ [row])) =
      changeAt (fun _ => (decode row).map some) (placesOf keys key)
        (keys.map (firstAnswer rowKey decode seen)) := by
  rw [changeAt_placesOf]
  refine List.map_congr_left fun k _ => ?_
  split
  case isTrue hk => rw [hk, firstAnswer_append_of_first hnew h]
  case isFalse hk => rw [firstAnswer_append_of_ne (by simpa [h] using fun heq => hk heq.symm)]

/-- After some rows: keys that none of them has wait at all their places, the others no longer, and
the answers are those of the first rows. -/
structure Underway (rowKey : Row → Option κ) (decode : Row → Outcome α) (keys : List κ)
    (seen : List Row) (state : Waiting κ × List (Outcome (Option α))) : Prop where
  distinct : (state.1.map Prod.fst).Nodup
  waiting : ∀ key, (∀ row ∈ seen, rowKey row ≠ some key) → state.1.places key = placesOf keys key
  answered : ∀ key, (∃ row ∈ seen, rowKey row = some key) → state.1.places key = []
  answers : state.2 = keys.map (firstAnswer rowKey decode seen)

variable {state : Waiting κ × List (Outcome (Option α))}

theorem underway_start (rowKey : Row → Option κ) (decode : Row → Outcome α) (keys : List κ) :
    Underway rowKey decode keys []
      (Waiting.ofKeys keys, List.replicate keys.length (.ok none)) := by
  refine ⟨nodup_ofKeys keys, fun key _ => places_ofKeys keys key, ?_, ?_⟩
  · rintro _ ⟨row, hrow, -⟩
    exact absurd hrow List.not_mem_nil
  · exact (List.map_const' ..).symm

theorem Underway.perm (h : Underway rowKey decode keys seen state) {waiting : Waiting κ}
    (hperm : waiting.Perm state.1) : Underway rowKey decode keys seen (waiting, state.2) := by
  have hplaces (key : κ) : waiting.places key = state.1.places key := by
    rw [Waiting.places, lookup_perm h.distinct hperm]
    rfl
  exact
    { distinct := (hperm.map _).nodup_iff.2 h.distinct
      waiting := fun key hseen => (hplaces key).trans (h.waiting key hseen)
      answered := fun key hseen => (hplaces key).trans (h.answered key hseen)
      answers := h.answers }

theorem Underway.inRange (h : Underway rowKey decode keys seen state) :
    InRange state.1 state.2 := by
  refine inRange_of_places fun key place hplace => ?_
  rw [h.answers, List.length_map]
  by_cases hseen : ∃ row ∈ seen, rowKey row = some key
  · rw [h.answered key hseen] at hplace
    cases hplace
  · rw [h.waiting key fun row hrow hkey => hseen ⟨row, hrow, hkey⟩] at hplace
    exact (List.getElem?_eq_some_iff.1 (mem_placesOf.1 hplace)).1

theorem answerFirst_of_none (h : rowKey row = none)
    (state : Waiting κ × List (Outcome (Option α))) :
    answerFirst rowKey decode state row = state := by
  rw [answerFirst, h]

theorem answerFirst_of_some (h : rowKey row = some key)
    (state : Waiting κ × List (Outcome (Option α))) :
    answerFirst rowKey decode state row =
      (state.1.filter fun w => w.1 ≠ key,
        changeAt (fun _ => (decode row).map some) (state.1.places key) state.2) := by
  simp only [answerFirst, h, Waiting.places]
  split
  case h_1 hnone =>
    have hkeep : state.1.filter (fun w => w.1 ≠ key) = state.1 := by
      refine List.filter_eq_self.2 fun w hw => ?_
      have hne : key ≠ w.1 := by simpa using List.lookup_eq_none_iff.1 hnone w hw
      simpa using hne.symm
    rw [hkeep, hnone]
    rfl
  case h_2 places hplaces =>
    rw [hplaces]
    rfl

/-- **One row.** It takes its key out of the map, and answers this key if no row did so before. -/
theorem Underway.answerFirst (h : Underway rowKey decode keys seen state) (row : Row) :
    Underway rowKey decode keys (seen ++ [row]) (answerFirst rowKey decode state row) := by
  cases hrow : rowKey row with
  | none =>
    rw [answerFirst_of_none hrow]
    refine ⟨h.distinct, fun k hall => ?_, fun k hex => ?_, ?_⟩
    · exact h.waiting k fun r hr => hall r (List.mem_append_left _ hr)
    · exact h.answered k (by simpa [hrow] using hex)
    · rw [h.answers]
      exact List.map_congr_left fun k _ => (firstAnswer_append_of_ne (by simp [hrow]) seen).symm
  | some key =>
    rw [answerFirst_of_some hrow]
    refine ⟨h.distinct.sublist (List.filter_sublist.map _), fun k hall => ?_, fun k hex => ?_, ?_⟩
    · have hne : k ≠ key := fun heq => hall row (by simp) (heq ▸ hrow)
      rw [Waiting.places, lookup_filter_of_ne hne]
      exact h.waiting k fun r hr => hall r (List.mem_append_left _ hr)
    · rw [Waiting.places]
      by_cases hk : k = key
      · -- taken out by this row
        rw [hk, lookup_filter_self, Option.getD_none]
      · rw [lookup_filter_of_ne hk]
        exact h.answered k (by simpa [hrow, Ne.symm hk] using hex)
    · by_cases hseen : ∃ r ∈ seen, rowKey r = some key
      · -- the key is no longer in the map, so the row is written nowhere
        rw [h.answered key hseen, firstAnswer_append_of_seen hrow hseen]
        exact h.answers
      · have hnew : ∀ r ∈ seen, rowKey r ≠ some key := fun r hr hkey => hseen ⟨r, hr, hkey⟩
        rw [h.waiting key hnew, h.answers, map_firstAnswer_append_of_new keys hrow hnew]

/-- **A run over the rows**, where the entries of the map stand in any order before each of them. -/
inductive Shuffled (rowKey : Row → Option κ) (decode : Row → Outcome α) :
    Waiting κ × List (Outcome (Option α)) → List Row → Waiting κ × List (Outcome (Option α)) → Prop
  | done {state : Waiting κ × List (Outcome (Option α))} : Shuffled rowKey decode state [] state
  | row {state state' : Waiting κ × List (Outcome (Option α))} {waiting : Waiting κ} {row : Row}
      {rows : List Row} : waiting.Perm state.1 →
      Shuffled rowKey decode (answerFirst rowKey decode (waiting, state.2) row) rows state' →
      Shuffled rowKey decode state (row :: rows) state'

theorem shuffled_foldl (rowKey : Row → Option κ) (decode : Row → Outcome α) (rows : List Row)
    (state : Waiting κ × List (Outcome (Option α))) :
    Shuffled rowKey decode state rows (rows.foldl (answerFirst rowKey decode) state) := by
  induction rows generalizing state with
  | nil => exact .done
  | cons row rows ih => exact .row (.refl _) (ih _)

theorem Underway.run {state' : Waiting κ × List (Outcome (Option α))}
    (h : Underway rowKey decode keys seen state)
    (hrun : Shuffled rowKey decode state rows state') :
    Underway rowKey decode keys (seen ++ rows) state' := by
  induction hrun generalizing seen with
  | done => rwa [List.append_nil]
  | row hperm _ ih =>
    rw [List.append_cons]
    exact ih ((h.perm hperm).answerFirst _)

theorem byKey_eq (rowKey : Row → Option κ) (decode : Row → Outcome α) (keys : List κ)
    (rows : List Row) : byKey rowKey decode keys rows = keys.map (firstAnswer rowKey decode rows) :=
  ((underway_start rowKey decode keys).run (shuffled_foldl rowKey decode rows _)).answers

/-- **The first row of its key answers a request.** Without such a row the answer is `none`; a row
that cannot be decoded is an error to those who share its key. Other rows have no say, and neither
has the order in which the map of keys stands before any of the rows. -/
theorem first_row_answers (requestKey : ι → κ) (rowKey : Row → Option κ)
    (decode : Row → Outcome α) (inputs : List ι) (rows : List Row) :
    let keys := inputs.map requestKey
    let answers := byKey rowKey decode keys rows
    answers.length = inputs.length ∧
      (∀ (i : Nat) (x : ι), inputs[i]? = some x →
        ((∀ row ∈ rows, rowKey row ≠ some (requestKey x)) → answers[i]? = some (Except.ok none)) ∧
        ∀ before row after, rows = before ++ row :: after →
          (∀ r ∈ before, rowKey r ≠ some (requestKey x)) → rowKey row = some (requestKey x) →
          answers[i]? = some ((decode row).map some)) ∧
      (∀ (i j : Nat) (x y : ι), inputs[i]? = some x → inputs[j]? = some y →
        requestKey x = requestKey y → answers[i]? = answers[j]?) ∧
      (∀ before row after, rows = before ++ row :: after →
        (∀ x ∈ inputs, rowKey row ≠ some (requestKey x)) →
        byKey rowKey decode keys (before ++ after) = answers) ∧
      ∀ waiting answers', Shuffled rowKey decode
        (Waiting.ofKeys keys, List.replicate keys.length (.ok none)) rows (waiting, answers') →
        answers' = answers := by
  -- every answer is the one of its key alone
  have hanswer (i : Nat) (x : ι) (hx : inputs[i]? = some x) :
      (byKey rowKey decode (inputs.map requestKey) rows)[i]? =
        some (firstAnswer rowKey decode rows (requestKey x)) := by
    rw [byKey_eq, List.map_map, List.getElem?_map, hx]
    rfl
  refine ⟨by simp [byKey_eq], fun i x hx => ⟨fun hnone => ?_, ?_⟩, ?_, ?_, ?_⟩
  · rw [hanswer i x hx, firstAnswer_of_forall_ne hnone]
  · rintro before row after rfl hbefore hrow
    rw [hanswer i x hx, firstAnswer_append_of_first hbefore hrow]
  · intro i j x y hx hy hkeys
    rw [hanswer i x hx, hanswer j y hy, hkeys]
  · rintro before row after rfl hrow
    rw [byKey_eq, byKey_eq, List.map_map, List.map_map]
    exact List.map_congr_left fun x hx => (firstAnswer_of_ne (hrow x hx) before after).symm
  · intro waiting answers' hrun
    rw [byKey_eq]
    exact ((underway_start rowKey decode _).run hrun).answers

/-! ### Some people -/

/-- The number of a person in a row. -/
def idOf (row : Row) : Option Int64 := (row.get? "id").bind Value.asInt?

/-- The row of a person. -/
def personRow (number name : Value) : Row := ⟨["id", "name"], [number, name]⟩

/-- A decoded person. -/
def personOf (number : Int) (name : String) : Json :=
  .object [("id", .ofInt number), ("name", .string name)]

/-- Rows of people. The first has no number, nobody asks for number 9, and the first row of number 1
has no name. -/
def people : List Row :=
  [personRow .null (.text "Cy"), personRow (.int 2) (.text "Bo"), personRow (.int 9) (.text "Di"),
    personRow (.int 1) .null, personRow (.int 1) (.text "Al"), personRow (.int 2) (.text "Bob")]

/-- Requests for people, by number and reason. -/
def sought : List (Int64 × String) := [(1, "owner"), (2, "author"), (1, "editor"), (3, "reader")]

/-- Number 2 is the first with this number, number 3 is nobody. The two requests for number 1 fail
with one error, although a later row would do. Leaving out number 9 or turning the map of keys
around changes nothing. -/
theorem first_row_answers_people :
    let answers := byKey idOf (Schema.decodeRow .person) (sought.map Prod.fst) people
    answers[1]? = some (Except.ok (some (personOf 2 "Bo"))) ∧
      answers[3]? = some (Except.ok none) ∧
      answers[0]? = some ((Schema.decodeRow .person (personRow (.int 1) .null)).map some) ∧
      answers[2]? = answers[0]? ∧
      byKey idOf (Schema.decodeRow .person) (sought.map Prod.fst) (people.eraseIdx 2) = answers ∧
      (people.foldl (answerFirst idOf (Schema.decodeRow .person))
        ((Waiting.ofKeys (sought.map Prod.fst)).reverse, List.replicate 4 (.ok none))).2 =
        answers := by
  obtain ⟨-, heach, hequal, hothers, hshuffled⟩ :=
    first_row_answers Prod.fst idOf (Schema.decodeRow .person) sought people
  refine ⟨?_, ?_, ?_, ?_, ?_, ?_⟩
  · exact (heach 1 _ rfl).2 (people.take 1) _ (people.drop 2) rfl (by decide) (by decide)
  · exact (heach 3 _ rfl).1 (by decide)
  · exact (heach 0 _ rfl).2 (people.take 3) _ (people.drop 4) rfl (by decide) (by decide)
  · exact hequal 2 0 _ _ rfl rfl rfl
  · exact hothers (people.take 2) _ (people.drop 3) rfl (by decide)
  · exact hshuffled _ _ (.row (List.reverse_perm _) (shuffled_foldl ..))

/-! ## All rows of a key -/

/-- What a row does to the answers. -/
def answerAll (rowKey : Row → Option κ) (decode : Row → Outcome α) (waiting : Waiting κ)
    (answers : List (Outcome (List α))) (row : Row) : List (Outcome (List α)) :=
  match (rowKey row).bind fun key => List.lookup key waiting with
  | none => answers
  | some places => changeAt (gather (decode row)) places answers

theorem byKeyAll_eq_foldl (rowKey : Row → Option κ) (decode : Row → Outcome α) (keys : List κ)
    (rows : List Row) : byKeyAll rowKey decode keys rows =
      rows.foldl (answerAll rowKey decode (Waiting.ofKeys keys))
        (List.replicate keys.length (.ok [])) := rfl

/-- What answers a key when some rows have come: all of them that have it, or the first failure. -/
def allAnswer (rowKey : Row → Option κ) (decode : Row → Outcome α) (rows : List Row) (key : κ) :
    Outcome (List α) :=
  (rows.filter fun row => rowKey row = some key).mapM decode

theorem allAnswer_of_ne (h : rowKey row ≠ some key) (before after : List Row) :
    allAnswer rowKey decode (before ++ row :: after) key =
      allAnswer rowKey decode (before ++ after) key := by
  rw [allAnswer, allAnswer, List.filter_append, List.filter_append,
    List.filter_cons_of_neg (by simpa using h)]

theorem gather_mapM (decode : Row → Outcome α) (rows : List Row) (row : Row) :
    gather (decode row) (rows.mapM decode) = (rows ++ [row]).mapM decode := by
  rw [List.mapM_append, List.mapM_cons, List.mapM_nil]
  cases rows.mapM decode with
  | error e => rfl
  | ok found => cases decode row <;> rfl

/-- **One row.** It joins the answers of its key and no others. -/
theorem answerAll_map (rowKey : Row → Option κ) (decode : Row → Outcome α) (keys : List κ)
    (seen : List Row) (row : Row) :
    answerAll rowKey decode (Waiting.ofKeys keys) (keys.map (allAnswer rowKey decode seen)) row =
      keys.map (allAnswer rowKey decode (seen ++ [row])) := by
  have hother {k : κ} (h : rowKey row ≠ some k) :
      allAnswer rowKey decode (seen ++ [row]) k = allAnswer rowKey decode seen k := by
    rw [allAnswer_of_ne h, List.append_nil]
  cases hrow : rowKey row with
  | none =>
    simp only [answerAll, hrow, Option.bind_none]
    exact List.map_congr_left fun k _ => (hother (by simp [hrow])).symm
  | some key =>
    have hstep : answerAll rowKey decode (Waiting.ofKeys keys)
        (keys.map (allAnswer rowKey decode seen)) row =
          changeAt (gather (decode row)) ((Waiting.ofKeys keys).places key)
            (keys.map (allAnswer rowKey decode seen)) := by
      simp only [answerAll, hrow, Option.bind_some, Waiting.places]
      cases List.lookup key (Waiting.ofKeys keys) <;> rfl
    rw [hstep, places_ofKeys, changeAt_placesOf]
    refine List.map_congr_left fun k _ => ?_
    split
    case isTrue hk =>
      rw [hk, allAnswer, gather_mapM, allAnswer, List.filter_append,
        List.filter_cons_of_pos (by simpa using hrow), List.filter_nil]
    case isFalse hk => exact (hother fun heq => hk (Option.some_inj.1 (heq.symm.trans hrow))).symm

theorem foldl_answerAll (rowKey : Row → Option κ) (decode : Row → Outcome α) (keys : List κ)
    (rows seen : List Row) :
    rows.foldl (answerAll rowKey decode (Waiting.ofKeys keys))
      (keys.map (allAnswer rowKey decode seen)) =
        keys.map (allAnswer rowKey decode (seen ++ rows)) := by
  induction rows generalizing seen with
  | nil => rw [List.append_nil, List.foldl_nil]
  | cons row rows ih => rw [List.foldl_cons, answerAll_map, ih, ← List.append_cons]

theorem byKeyAll_eq (rowKey : Row → Option κ) (decode : Row → Outcome α) (keys : List κ)
    (rows : List Row) :
    byKeyAll rowKey decode keys rows = keys.map (allAnswer rowKey decode rows) := by
  have hstart : List.replicate keys.length (.ok []) = keys.map (allAnswer rowKey decode []) :=
    (List.map_const' ..).symm
  rw [byKeyAll_eq_foldl, hstart, foldl_answerAll, List.nil_append]

theorem inRange_byKeyAll (rowKey : Row → Option κ) (decode : Row → Outcome α) (keys : List κ)
    (rows : List Row) : InRange (Waiting.ofKeys keys) (byKeyAll rowKey decode keys rows) := by
  refine inRange_of_places fun key place hplace => ?_
  rw [places_ofKeys] at hplace
  rw [byKeyAll_eq, List.length_map]
  exact (List.getElem?_eq_some_iff.1 (mem_placesOf.1 hplace)).1

/-- **All rows of its key answer a request**, decoded in their order; the first of them that cannot
be decoded is its error. Rows of other keys have no say, whether they can be decoded or not. -/
theorem all_rows_answer (requestKey : ι → κ) (rowKey : Row → Option κ) (decode : Row → Outcome α)
    (inputs : List ι) (rows : List Row) :
    let keys := inputs.map requestKey
    let answers := byKeyAll rowKey decode keys rows
    answers.length = inputs.length ∧
      (∀ (i : Nat) (x : ι), inputs[i]? = some x →
        let own := rows.filter fun row => rowKey row = some (requestKey x)
        answers[i]? = some (own.mapM decode) ∧
          (∀ values : List α, own.map decode = values.map .ok →
            answers[i]? = some (Except.ok values)) ∧
          (∀ before row after e, own = before ++ row :: after →
            (∀ r ∈ before, ∃ value, decode r = .ok value) → decode row = .error e →
            answers[i]? = some (Except.error e)) ∧
          ∀ before row after, rows = before ++ row :: after → rowKey row ≠ some (requestKey x) →
            (byKeyAll rowKey decode keys (before ++ after))[i]? = answers[i]?) ∧
      (∀ (i j : Nat) (x y : ι), inputs[i]? = some x → inputs[j]? = some y →
        requestKey x = requestKey y → answers[i]? = answers[j]?) ∧
      ∀ before row after, rows = before ++ row :: after →
        (∀ x ∈ inputs, rowKey row ≠ some (requestKey x)) →
        byKeyAll rowKey decode keys (before ++ after) = answers := by
  -- every answer is the one of its key alone
  have hanswer (rows : List Row) (i : Nat) (x : ι) (hx : inputs[i]? = some x) :
      (byKeyAll rowKey decode (inputs.map requestKey) rows)[i]? =
        some (allAnswer rowKey decode rows (requestKey x)) := by
    rw [byKeyAll_eq, List.map_map, List.getElem?_map, hx]
    rfl
  refine ⟨by simp [byKeyAll_eq], fun i x hx => ⟨hanswer rows i x hx, ?_, ?_, ?_⟩, ?_, ?_⟩
  · intro values hvalues
    rw [hanswer rows i x hx, allAnswer, mapM_of_map_ok hvalues]
  · intro before row after e hown hbefore hrow
    rw [hanswer rows i x hx, allAnswer, hown, mapM_of_first_error hbefore hrow]
  · rintro before row after rfl hrow
    rw [hanswer _ i x hx, hanswer _ i x hx, allAnswer_of_ne hrow]
  · intro i j x y hx hy hkeys
    rw [hanswer rows i x hx, hanswer rows j y hy, hkeys]
  · rintro before row after rfl hrow
    rw [byKeyAll_eq, byKeyAll_eq, List.map_map, List.map_map]
    exact List.map_congr_left fun x hx => (allAnswer_of_ne (hrow x hx) before after).symm

/-- Number 2 has two rows and number 3 has none. Number 1 fails with the first of its rows that has
no name, which takes nothing from number 2. -/
theorem all_rows_answer_people :
    let answers := byKeyAll idOf (Schema.decodeRow .person) (sought.map Prod.fst) people
    answers[1]? = some (Except.ok [personOf 2 "Bo", personOf 2 "Bob"]) ∧
      answers[3]? = some (Except.ok []) ∧
      (∃ e, Schema.decodeRow .person (personRow (.int 1) .null) = .error e ∧
        answers[0]? = some (Except.error e)) ∧
      answers[2]? = answers[0]? ∧
      (byKeyAll idOf (Schema.decodeRow .person) (sought.map Prod.fst) (people.eraseIdx 3))[1]? =
        answers[1]? ∧
      byKeyAll idOf (Schema.decodeRow .person) (sought.map Prod.fst) (people.eraseIdx 2) =
        answers := by
  obtain ⟨-, heach, hequal, hothers⟩ :=
    all_rows_answer Prod.fst idOf (Schema.decodeRow .person) sought people
  refine ⟨?_, ?_, ⟨_, rfl, ?_⟩, ?_, ?_, ?_⟩
  · exact (heach 1 _ rfl).2.1 _ (by with_unfolding_all rfl)
  · exact (heach 3 _ rfl).2.1 [] rfl
  · exact (heach 0 _ rfl).2.2.1 [] _ _ _ rfl (fun _ hr => absurd hr List.not_mem_nil) rfl
  · exact hequal 2 0 _ _ rfl rfl rfl
  · exact (heach 1 _ rfl).2.2.2 (people.take 3) _ (people.drop 4) rfl (by decide)
  · exact hothers (people.take 2) _ (people.drop 3) rfl (by decide)

end Answers

end SqlClient
