import SqlClient.Proofs.Postgres.Times
/-!
# PostgreSQL — parameters of the kind of their value

Values are written by their kind and the type of the parameter, and columns are read by the type
alone. Where the two agree (`Shows`), a column has the value that was bound. It always is, but for
integers that a narrow parameter has no bits for, which are refused and not cut off. A type outside
the family of a value is refused as well, except by timestamps: they are written as a count of
microseconds to any type but dates.
-/

namespace SqlClient

namespace Postgres

variable {v w : Value} {type : PgType} {width : Nat} {i : Int64} {content : Option (List UInt8)}

theorem bindChecked_eq_some_iff :
    bindChecked v type = some content ↔ type.isAccepted = true ∧ bind v type = .ok content := by
  rw [bindChecked]
  split
  case isTrue h => cases bind v type <;> simp [h, Except.toOption]
  case isFalse h => simp [h]

theorem bindChecked_of_error {fault : BindFault} (h : bind v type = .error fault) :
    bindChecked v type = none := by
  rw [bindChecked, h]
  exact ite_self none

/-! ## Integers -/

/-- The width of the types of integers, in bytes. -/
def integerWidth? : PgType → Option Nat
  | .int2 => some 2
  | .int4 => some 4
  | .int8 => some 8
  | _ => none

/-- Whether a type has the bits for a value. Only the narrow types of integers have limits. -/
def Fits : Value → PgType → Prop
  | .int i, .int2 => -32768 ≤ i.toInt ∧ i.toInt ≤ 32767
  | .int i, .int4 => -2147483648 ≤ i.toInt ∧ i.toInt ≤ 2147483647
  | _, _ => True

theorem integerType_cases (hwidth : integerWidth? type = some width) :
    type = .int2 ∧ width = 2 ∨ type = .int4 ∧ width = 4 ∨ type = .int8 ∧ width = 8 := by
  cases type <;> simp_all [integerWidth?]

theorem isAccepted_of_width (hwidth : integerWidth? type = some width) : type.isAccepted = true := by
  rcases integerType_cases hwidth with ⟨rfl, -⟩ | ⟨rfl, -⟩ | ⟨rfl, -⟩ <;> rfl

theorem fits_iff (i : Int64) (hwidth : integerWidth? type = some width) :
    Fits (.int i) type ↔ -(pow256 width : Int) ≤ 2 * i.toInt ∧ 2 * i.toInt < pow256 width := by
  have hleast := i.le_toInt
  have hgreatest := i.toInt_lt
  have htwo : pow256 2 = 65536 := rfl
  have hfour : pow256 4 = 4294967296 := rfl
  have height : pow256 8 = 18446744073709551616 := rfl
  rcases integerType_cases hwidth with ⟨rfl, rfl⟩ | ⟨rfl, rfl⟩ | ⟨rfl, rfl⟩
  all_goals
    simp only [Fits, htwo, hfour, height, true_iff]
    omega

theorem fitting_of_fits (hwidth : integerWidth? type = some width) (h : Fits (.int i) type) :
    fitting width i.toInt = some (BigEndian.ofInt width i.toInt) :=
  if_pos ((fits_iff i hwidth).1 h)

theorem bind_int (i : Int64) (hwidth : integerWidth? type = some width) :
    bind (.int i) type =
      (fitting width i.toInt).elim (.error (.outOfRange i type)) fun bytes => .ok (some bytes) := by
  rcases integerType_cases hwidth with ⟨rfl, rfl⟩ | ⟨rfl, rfl⟩ | ⟨rfl, rfl⟩
  all_goals
    simp only [bind, bindInt]
    cases fitting _ i.toInt <;> rfl

theorem bind_int_of_fits (hwidth : integerWidth? type = some width) (h : Fits (.int i) type) :
    bind (.int i) type = .ok (some (BigEndian.ofInt width i.toInt)) := by
  rw [bind_int i hwidth, fitting_of_fits hwidth h]
  rfl

/-- **What a parameter has no bits for is refused.** -/
theorem bind_int_of_not_fits (hwidth : integerWidth? type = some width) (h : ¬ Fits (.int i) type) :
    bind (.int i) type = .error (.outOfRange i type) := by
  rw [bind_int i hwidth, fitting, if_neg fun hfits => h ((fits_iff i hwidth).2 hfits)]
  rfl

theorem readColumn_of_fitting {i : Int} {bytes : List UInt8}
    (hwidth : integerWidth? type = some width) (h : fitting width i = some bytes) :
    readColumn type (some bytes) = some (.int (Int64.ofInt i)) := by
  have hread : readColumn type (some bytes) = readInt width bytes := by
    rcases integerType_cases hwidth with ⟨rfl, rfl⟩ | ⟨rfl, rfl⟩ | ⟨rfl, rfl⟩ <;> rfl
  rw [hread, readInt, sized_of_fitting h, Option.map_some, toInt_of_fitting h]

/-! ## What a column shows -/

/-- What a column of a type shows of a value that was bound to a parameter of that type: the value,
and of an integer whether it is zero if the type is that of truth values. Nothing is said of values
that are written in another form than their own. -/
inductive Shows : Value → PgType → Value → Prop
  | null {type : PgType} (haccepted : type.isAccepted = true) : Shows .null type .null
  | bool (b : Bool) : Shows (.bool b) .bool (.bool b)
  | int {type : PgType} {width : Nat} (hwidth : integerWidth? type = some width) (i : Int64) :
    Shows (.int i) type (.int i)
  | nonzero (i : Int64) : Shows (.int i) .bool (.bool (i != 0))
  | double (x : Double) : Shows (.double x) .float8 (.double x)
  | text {type : PgType} (htype : type ∈ [PgType.text, .varchar, .bpchar, .name, .unknown])
    (s : String) : Shows (.text s) type (.text s)
  | bytes (bytes : List UInt8) : Shows (.bytes bytes) .bytea (.bytes bytes)

theorem readColumn_writeBool (b : Bool) :
    readColumn .bool (some (writeBool b)) = some (.bool b) := by
  cases b <;> rfl

theorem readColumn_bits (x : Double) :
    readColumn .float8 (some (BigEndian.ofNat 8 x.bits.toNat)) = some (.double x) := by
  have hbits : BigEndian.toNat (BigEndian.ofNat 8 x.bits.toNat) = x.bits.toNat :=
    BigEndian.toNat_ofNat_of_lt x.bits.toNat_lt
  rw [readColumn, readBytes, sized, if_pos (BigEndian.length_ofNat 8 _), Option.map_some, hbits,
    UInt64.ofNat_toNat]

/-- Texts are their own form for every type that is read as text. -/
theorem textType_cases (s : String)
    (htype : type ∈ [PgType.text, .varchar, .bpchar, .name, .unknown]) :
    type.isAccepted = true ∧ bind (.text s) type = .ok (some (encodeText s)) ∧
      readColumn type (some (encodeText s)) = some (.text s) := by
  have hread : (decodeText? (encodeText s)).map Value.text = some (.text s) := by
    rw [decodeText?_encodeText, Option.map_some]
  simp only [List.mem_cons, List.not_mem_nil, or_false] at htype
  rcases htype with rfl | rfl | rfl | rfl | rfl <;> exact ⟨rfl, rfl, hread⟩

/-- What a type has the bits for is bound, and shown. -/
theorem Shows.bound (h : Shows v type w) (hfits : Fits v type) :
    type.isAccepted = true ∧
      ∃ content, bind v type = .ok content ∧ readColumn type content = some w := by
  cases h with
  | null haccepted => exact ⟨haccepted, none, rfl, if_pos haccepted⟩
  | bool b => exact ⟨rfl, _, rfl, readColumn_writeBool b⟩
  | int hwidth i =>
    have hread := readColumn_of_fitting hwidth (fitting_of_fits hwidth hfits)
    rw [Int64.ofInt_toInt] at hread
    exact ⟨isAccepted_of_width hwidth, _, bind_int_of_fits hwidth hfits, hread⟩
  | nonzero i => exact ⟨rfl, _, rfl, readColumn_writeBool (i != 0)⟩
  | double x => exact ⟨rfl, _, rfl, readColumn_bits x⟩
  | text htype s =>
    obtain ⟨haccepted, hbind, hread⟩ := textType_cases s htype
    exact ⟨haccepted, _, hbind, hread⟩
  | bytes bytes => exact ⟨rfl, _, rfl, rfl⟩

theorem Shows.refused (h : Shows v type w) (hfits : ¬ Fits v type) :
    ∃ i, v = .int i ∧ bind v type = .error (.outOfRange i type) := by
  cases h with
  | int hwidth i => exact ⟨i, rfl, bind_int_of_not_fits hwidth hfits⟩
  | _ => exact absurd trivial hfits

/-- **A column shows the value that was bound to a parameter of its type**: null, truth values,
doubles bit for bit, texts, bytes, and integers, of which the type of truth values shows whether they
are zero. Such a value is bound unless it is an integer that a narrow type has no bits for; that is
refused, and nothing else is written in its place. -/
theorem values_read_back (h : Shows v type w) :
    (∀ content, bindChecked v type = some content → readColumn type content = some w) ∧
    ((bindChecked v type).isSome ↔ Fits v type) ∧
    (¬ Fits v type → ∃ i, v = .int i ∧ bind v type = .error (.outOfRange i type)) := by
  have hfits (hsome : (bindChecked v type).isSome) : Fits v type := by
    by_contra hnot
    obtain ⟨i, -, herror⟩ := h.refused hnot
    rw [bindChecked_of_error herror] at hsome
    cases hsome
  refine ⟨fun content hcontent => ?_, ⟨hfits, fun hfits => ?_⟩, h.refused⟩
  -- What was written is what the rule for the pair writes, as there is one answer only.
  · obtain ⟨-, content', hbind', hread⟩ := h.bound (hfits (Option.isSome_of_eq_some hcontent))
    have hbind := (bindChecked_eq_some_iff.1 hcontent).2
    rw [hbind', Except.ok.injEq] at hbind
    exact hbind ▸ hread
  · obtain ⟨haccepted, content, hbind, -⟩ := h.bound hfits
    exact Option.isSome_of_eq_some (bindChecked_eq_some_iff.2 ⟨haccepted, hbind⟩)

/-- An integer below zero in two bytes, and the first one that is too large for them. -/
theorem values_read_back_narrow :
    (Shows (.int (-2)) .int2 (.int (-2)) ∧ bindChecked (.int (-2)) .int2 = some (some [0xFF, 0xFE]) ∧
      readColumn .int2 (some [0xFF, 0xFE]) = some (.int (-2))) ∧
    ¬ Fits (.int 32768) .int2 ∧ (bindChecked (.int 32768) .int2).isSome = false := by
  have hbind : bindChecked (.int (-2)) .int2 = some (some [0xFF, 0xFE]) := by decide
  have hfits : ¬ Fits (.int 32768) .int2 := fun h => absurd h.2 (by decide)
  have hlarge := (values_read_back (.int rfl 32768 : Shows _ .int2 _)).2.1
  exact ⟨⟨.int rfl _, hbind, (values_read_back (.int rfl (-2))).1 _ hbind⟩, hfits,
    Bool.eq_false_iff.2 (mt hlarge.1 hfits)⟩

/-! ## Families -/

/-- The types that values of a kind are meant for. Null is of no kind. -/
def family : Value → List PgType
  | .null => []
  | .bool _ => [.bool]
  | .int _ => [.int2, .int4, .int8, .float4, .float8, .bool]
  | .double _ => [.float4, .float8]
  | .text _ => [.text, .varchar, .bpchar, .name, .unknown, .json, .jsonb]
  | .bytes _ => [.bytea]
  | .timestamp _ => [.timestamp, .timestamptz, .date]
  | .json _ => [.json, .jsonb, .text, .varchar]

/-- **Values are refused by the types outside their family**, timestamps apart. -/
theorem bind_of_not_mem_family (hnull : v ≠ .null) (htime : ∀ t, v ≠ .timestamp t)
    (h : type ∉ family v) : bind v type = .error (.mismatch v type) := by
  -- Each kind has a table of its own, so the types are gone through kind by kind.
  cases v with
  | null => exact absurd rfl hnull
  | timestamp t => exact absurd rfl (htime t)
  | bool b => exact if_neg (mt List.mem_singleton.2 h)
  | bytes bytes => exact if_neg (mt List.mem_singleton.2 h)
  | int i => cases type <;> first | rfl | simp [family] at h
  | double x => cases type <;> first | rfl | simp [family] at h
  | text s => cases type <;> first | rfl | simp [family] at h
  | json doc => cases type <;> first | rfl | simp [family] at h

/-- **Only timestamps leave their family.** Any other value is bound to the types that are meant for
it or refused as one that cannot be bound. A timestamp is bound to every type that is accepted, as its
count of microseconds, which is no form of those outside its family. -/
theorem bound_within_family (hnull : v ≠ .null) (haccepted : type.isAccepted = true) :
    ((∀ t, v ≠ .timestamp t) →
      ((bindChecked v type).isSome → type ∈ family v) ∧
      (type ∉ family v → bind v type = .error (.mismatch v type))) ∧
    ∀ t, v = .timestamp t → type ∉ family v →
      bindChecked v type = some (some (BigEndian.ofInt 8 (microsSinceEpoch t))) := by
  refine ⟨fun htime => ⟨fun hsome => ?_, bind_of_not_mem_family hnull htime⟩, ?_⟩
  · by_contra hforeign
    rw [bindChecked_of_error (bind_of_not_mem_family hnull htime hforeign)] at hsome
    cases hsome
  · rintro t rfl hforeign
    exact bindChecked_timestamp t (fun hdate => hforeign (hdate ▸ by simp [family])) haccepted

/-- A second after the beginning of the year 2000. -/
def epochSecond : Timestamp := ⟨⟨2000, 1, 1, 0, 0, 1, 0⟩, by decide⟩

/-- Among the integers, a text is refused, and a timestamp is not. -/
theorem bound_within_family_int8 :
    bind (.text "1") .int8 = .error (.mismatch (.text "1") .int8) ∧
      bindChecked (.timestamp epochSecond) .int8 =
        some (some (BigEndian.ofInt 8 (microsSinceEpoch epochSecond))) := by
  have htext : PgType.int8 ∉ family (.text "1") := by decide
  have htime : PgType.int8 ∉ family (.timestamp epochSecond) := by decide
  have hnull : Value.text "1" ≠ .null := nofun
  have hnull' : Value.timestamp epochSecond ≠ .null := nofun
  have haccepted : PgType.int8.isAccepted = true := rfl
  have hkind (t : Timestamp) : Value.text "1" ≠ .timestamp t := by simp
  exact ⟨((bound_within_family hnull haccepted).1 hkind).2 htext,
    (bound_within_family hnull' haccepted).2 epochSecond rfl htime⟩

/-- **A timestamp among the integers is read as one of them.** -/
theorem readBack_int8_timestamp (t : Timestamp) :
    readBack .int8 (.timestamp t) = some (.int (Int64.ofInt (microsSinceEpoch t))) := by
  have hwidth : integerWidth? .int8 = some 8 := rfl
  have hread := readColumn_of_fitting hwidth (fitting_micros t)
  rw [readBack, bindChecked_timestamp t (by decide) rfl, Option.bind_some, hread]

/-- The second after the beginning of the year 2000 is read as a million. -/
theorem timestamp_among_integers :
    PgType.int8.isAccepted = true ∧ PgType.int8 ∉ family (.timestamp epochSecond) ∧
      bindChecked (.timestamp epochSecond) .int8 = some (some [0, 0, 0, 0, 0, 0x0F, 0x42, 0x40]) ∧
      bind (.timestamp epochSecond) .int8 ≠ .error (.mismatch (.timestamp epochSecond) .int8) ∧
      readBack .int8 (.timestamp epochSecond) = some (.int 1000000) := by
  have hmicros : microsSinceEpoch epochSecond = 1000000 := by decide
  have hbytes : BigEndian.ofInt 8 1000000 = [0, 0, 0, 0, 0, 0x0F, 0x42, 0x40] := by decide
  have hbound := bindChecked_timestamp epochSecond (by decide) (rfl : PgType.int8.isAccepted = true)
  rw [hmicros, hbytes] at hbound
  refine ⟨rfl, by decide, hbound, fun herror => ?_, ?_⟩
  · rw [bindChecked_of_error herror] at hbound
    cases hbound
  · rw [readBack_int8_timestamp, hmicros]
    rfl

end Postgres

end SqlClient
