import SqlClient.Proofs.Lists
import SqlClient.Proofs.Text.Digits
import SqlClient.Shape
/-!
# Result sets — decoding all rows

Rows that are decoded together come to all of their decodings, or to every failure among them
(`Schema.every_failure_told`). The loop goes on behind a row that fails, with the decodings and the
causes so far beside each other, and decides by the causes at its end; `Schema.go_eq_conclude` is its
invariant, about both of them. That no cause means no failure rests on the decoder, which has a cause
for every row that it refuses.
-/

namespace SqlClient

namespace Schema

/-! ## Decoders -/

/-- A decoder of rows. What it has against a row is one cause, and the result is to blame for it. -/
structure Decoder (α : Type) where
  decode : Row → Outcome α
  blames : ∀ {row : Row} {e : Error}, decode row = .error e → ∃ cause, e = .schema .result [cause]

namespace Decoder

/-- What reads documents decodes rows: it reads the object of a row. -/
def ofReader {α : Type} (read : Json → Except String α) : Decoder α where
  decode row :=
    match read row.toJson with
    | .ok x => .ok x
    | .error cause => .error (.schema .result [cause])
  blames := by
    intro row e h
    split at h
    · cases h
    · exact ⟨_, (Except.error.inj h).symm⟩

/-- The decoder of a shape. -/
def ofShape (shape : Shape) : Decoder Json :=
  ofReader fun j => (shape.decode j).mapError Mismatch.message

@[simp] theorem decode_ofShape (shape : Shape) : (ofShape shape).decode = decodeRow shape := by
  funext row
  simp only [ofShape, ofReader, decodeRow, decodeFor]
  cases shape.decode row.toJson <;> rfl

end Decoder

/-! ## Failures -/

/-- A row that was refused: where it stands among the rows, and why it was. -/
structure Failure where
  position : Nat
  cause : String

/-- A failure as it is reported. -/
def Failure.text (f : Failure) : String := "row " ++ toString f.position ++ ": " ++ f.cause

/-- **The report of a failure tells where it is and what its cause is**: the digits of the position
end before the colon. -/
theorem Failure.text_injective : Function.Injective Failure.text := by
  intro f f' h
  have hchars : (toString f.position).toList ++ (':' :: ' ' :: f.cause.toList) =
      (toString f'.position).toList ++ (':' :: ' ' :: f'.cause.toList) := by
    have h := congrArg String.toList h
    simpa [text] using h
  obtain ⟨hdigits, hrest⟩ := append_inj_of_forall (p := Char.isDigit) (fun _ => isDigit_toString)
    (fun _ => isDigit_toString) (by simp) (by simp) hchars
  have hposition : f.position = f'.position := by
    rw [← ofDigitChars_toString f.position, hdigits, ofDigitChars_toString]
  have hcause : f.cause = f'.cause := String.toList_inj.1 (by simpa using hrest)
  cases f
  cases f'
  exact congrArg₂ mk hposition hcause

variable {α : Type}

/-- **The failures among some rows**: one for each row that is refused, in the order of the rows. -/
structure Decoder.Fails (d : Decoder α) (rows : List Row) (failures : List Failure) : Prop where
  inOrder : failures.Pairwise fun f f' => f.position < f'.position
  mem_iff : ∀ f, f ∈ failures ↔
    ∃ row, rows[f.position]? = some row ∧ d.decode row = .error (.schema .result [f.cause])

/-- What a decoder has against a row, as it says. -/
def causesOf : Outcome α → List String
  | .error (.schema _ causes) => causes
  | _ => []

namespace Decoder

variable (d : Decoder α)

/-- The failures among rows of which the first stands in a place. -/
def failuresFrom (first : Nat) (rows : List Row) : List Failure :=
  (rows.zipIdx first).flatMap fun x => (causesOf (d.decode x.1)).map (Failure.mk x.2)

/-- The decodings of the rows that have one. -/
def decodings (rows : List Row) : List α := rows.filterMap fun row => (d.decode row).toOption

variable {d} {row : Row} {rows : List Row} {first : Nat} {x : α} {cause : String}
  {failures failures' : List Failure}

theorem failuresFrom_ok (h : d.decode row = .ok x) :
    d.failuresFrom first (row :: rows) = d.failuresFrom (first + 1) rows := by
  simp [failuresFrom, List.zipIdx_cons, h, causesOf]

theorem failuresFrom_error (h : d.decode row = .error (.schema .result [cause])) :
    d.failuresFrom first (row :: rows) = ⟨first, cause⟩ :: d.failuresFrom (first + 1) rows := by
  simp [failuresFrom, List.zipIdx_cons, h, causesOf]

theorem decodings_ok (h : d.decode row = .ok x) :
    d.decodings (row :: rows) = x :: d.decodings rows := by
  simp [decodings, h, Except.toOption]

theorem decodings_error {e : Error} (h : d.decode row = .error e) :
    d.decodings (row :: rows) = d.decodings rows := by
  simp [decodings, h, Except.toOption]

/-- Every row has its decoding exactly if there is no failure among the rows. -/
theorem map_decode_iff (first : Nat) {xs : List α} : rows.map d.decode = xs.map .ok ↔
    d.failuresFrom first rows = [] ∧ xs = d.decodings rows := by
  induction rows generalizing first xs with
  | nil => simp [failuresFrom, decodings]
  | cons row rows ih =>
    cases h : d.decode row with
    | ok x =>
      rw [failuresFrom_ok h, decodings_ok h, List.map_cons, h]
      cases xs with
      | nil => simp
      | cons y ys =>
        rw [List.map_cons, List.cons.injEq, List.cons.injEq, ih (first + 1), Except.ok.injEq,
          eq_comm (a := x)]
        exact and_left_comm
    | error e =>
      obtain ⟨cause, rfl⟩ := d.blames h
      rw [failuresFrom_error h, List.map_cons, h]
      cases xs <;> simp

theorem mem_causesOf : cause ∈ causesOf (d.decode row) ↔
    d.decode row = .error (.schema .result [cause]) := by
  cases h : d.decode row with
  | ok x => simp [causesOf]
  | error e =>
    obtain ⟨cause', rfl⟩ := d.blames h
    simp [causesOf, eq_comm]

/-- The failures that a search through all rows finds are all there are. -/
theorem fails_failuresFrom : d.Fails rows (d.failuresFrom 0 rows) where
  inOrder := by
    have hplaces : (rows.zipIdx).Pairwise fun x y => x.2 < y.2 := by
      have hlt : ((rows.zipIdx).map Prod.snd).Pairwise (· < ·) := by
        rw [List.zipIdx_map_snd]
        exact List.pairwise_lt_range'
      exact List.pairwise_map.1 hlt
    refine List.pairwise_flatMap.2 ⟨fun x _ => ?_, hplaces.imp fun hlt f hf f' hf' => ?_⟩
    · -- a row is refused for one cause at most
      cases h : d.decode x.1 with
      | ok => exact List.Pairwise.nil
      | error e =>
        obtain ⟨cause, rfl⟩ := d.blames h
        exact List.pairwise_singleton _ _
    · obtain ⟨_, -, rfl⟩ := List.mem_map.1 hf
      obtain ⟨_, -, rfl⟩ := List.mem_map.1 hf'
      exact hlt
  mem_iff f := by
    constructor
    · intro hf
      obtain ⟨⟨row, i⟩, hrow, hf⟩ := List.mem_flatMap.1 hf
      obtain ⟨cause, hcause, rfl⟩ := List.mem_map.1 hf
      exact ⟨row, List.mem_zipIdx_iff_getElem?.1 hrow, mem_causesOf.1 hcause⟩
    · rintro ⟨row, hrow, hcause⟩
      refine List.mem_flatMap.2 ⟨(row, f.position), List.mem_zipIdx_iff_getElem?.2 hrow, ?_⟩
      exact List.mem_map.2 ⟨f.cause, mem_causesOf.2 hcause, rfl⟩

/-- Rows have their failures in one way only. -/
theorem Fails.unique (h : d.Fails rows failures) (h' : d.Fails rows failures') :
    failures = failures' := by
  have hnodup : ∀ {fs : List Failure}, d.Fails rows fs → fs.Nodup := fun h =>
    h.inOrder.imp fun hlt heq => absurd (heq ▸ hlt) (Nat.lt_irrefl _)
  have hperm : failures.Perm failures' :=
    (List.perm_ext_iff_of_nodup (hnodup h) (hnodup h')).2 fun f =>
      (h.mem_iff f).trans (h'.mem_iff f).symm
  exact hperm.eq_of_pairwise (fun f f' _ _ hlt hgt => absurd hlt (Nat.lt_asymm hgt)) h.inOrder h'.inOrder

/-- There are failures exactly if a row is refused. -/
theorem Fails.eq_nil_iff (h : d.Fails rows failures) :
    failures = [] ↔ ∀ row ∈ rows, ∀ e, d.decode row ≠ .error e := by
  constructor
  · rintro rfl row hrow e hfailed
    obtain ⟨cause, rfl⟩ := d.blames hfailed
    obtain ⟨i, hi⟩ := List.mem_iff_getElem?.1 hrow
    exact List.not_mem_nil ((h.mem_iff ⟨i, cause⟩).2 ⟨row, hi, hfailed⟩)
  · intro hnone
    refine List.eq_nil_iff_forall_not_mem.2 fun f hf => ?_
    obtain ⟨row, hrow, hfailed⟩ := (h.mem_iff f).1 hf
    exact hnone row (List.mem_of_getElem? hrow) _ hfailed

end Decoder

/-! ## The loop -/

/-- What is made of decodings and causes when no row is left. -/
def conclude (decoded : List α) (causes : List String) : Outcome (List α) :=
  if causes.isEmpty then .ok decoded else .error (.schema .result causes)

/-- **The invariant of the loop**, by induction on the rows that are left: behind the decodings and the
causes so far come those of the rest. -/
theorem go_eq_conclude (d : Decoder α) (rows : List Row) (first : Nat) (decoded : List α)
    (causes : List String) :
    decodeAll.go d.decode first rows decoded causes =
      conclude (decoded ++ d.decodings rows)
        (causes ++ (d.failuresFrom first rows).map Failure.text) := by
  induction rows generalizing first decoded causes with
  | nil => simp [decodeAll.go, conclude, Decoder.decodings, Decoder.failuresFrom]
  | cons row rows ih =>
    rw [decodeAll.go]
    cases h : d.decode row with
    | ok x =>
      dsimp only
      rw [ih, Decoder.decodings_ok h, Decoder.failuresFrom_ok h, List.append_assoc]
      rfl
    | error e =>
      obtain ⟨cause, rfl⟩ := d.blames h
      dsimp only
      rw [ih, Decoder.decodings_error h, Decoder.failuresFrom_error h, List.map_cons, List.append_assoc]
      rfl

/-- **Rows come to all of their decodings or to all of their failures.** Decoded together, rows have a
result exactly if each of them has one, and then it is these, in the order of the rows. Otherwise the
error blames the result, and its causes are the reports of the failures among the rows: one for each row
that is refused, in the order of the rows, with its position and its own cause, as the reports tell. -/
theorem every_failure_told (d : Decoder α) (rows : List Row) :
    (∀ xs, decodeAll d.decode rows = .ok xs ↔ rows.map d.decode = xs.map .ok) ∧
    (∀ e, decodeAll d.decode rows = .error e ↔
      (∃ row ∈ rows, ∃ why, d.decode row = .error why) ∧
        ∃ failures, d.Fails rows failures ∧ e = .schema .result (failures.map Failure.text)) ∧
    Function.Injective Failure.text := by
  have hall : decodeAll d.decode rows =
      conclude (d.decodings rows) ((d.failuresFrom 0 rows).map Failure.text) :=
    go_eq_conclude d rows 0 [] []
  refine ⟨fun xs => ?_, fun e => ?_, Failure.text_injective⟩
  · rw [hall, Decoder.map_decode_iff 0]
    cases d.failuresFrom 0 rows with
    | nil => simp [conclude, eq_comm]
    | cons f fs => simp [conclude]
  · have hfails : d.Fails rows (d.failuresFrom 0 rows) := Decoder.fails_failuresFrom
    constructor
    · -- an error means that some failure was found, since none would have meant a result
      intro h
      rw [hall, conclude] at h
      split at h
      · cases h
      · rename_i hsome
        refine ⟨?_, _, hfails, (Except.error.inj h).symm⟩
        by_contra hnone
        push Not at hnone
        exact hsome (by simp [hfails.eq_nil_iff.2 hnone])
    · rintro ⟨⟨row, hrow, why, hwhy⟩, failures, hfailures, rfl⟩
      rw [hall, hfailures.unique hfails, conclude, if_neg]
      intro hempty
      exact hfails.eq_nil_iff.1 (by simpa using hempty) row hrow why hwhy

example : decodeAll (decodeRow .person)
    [⟨["id", "name"], [.text "one", .null]⟩, ⟨["id", "name"], [.int 2, .text "Ada"]⟩,
      ⟨["id"], [.int 3]⟩] =
    .error (.schema .result
      ["row 0: invalid type: string \"one\", expected i64", "row 2: missing field `name`"]) :=
  rfl

end Schema

end SqlClient
