import Mathlib.Data.List.TakeWhile
import SqlClient.Proofs.Number.Rounding
import SqlClient.Proofs.Text.Digits
/-!
# Numbers — texts of doubles

What a layout writes for a double can be read back as the decimal that was laid out, wherever the point
stands and with or without an exponent (`ofText_unsigned`). Since the shortest decimal tells doubles
apart, so does the text (`write_injective`).
-/

namespace SqlClient

/-! ## Reading decimals -/

namespace Decimal

variable {a b ds : List Char}

/-- The number of a text in plain notation, whose point may be missing. -/
def ofPlain (cs : List Char) : ℚ :=
  let fraction := (cs.dropWhile (· != '.')).tail
  Nat.ofDigitChars 10 (cs.takeWhile (· != '.') ++ fraction) 0 / 10 ^ fraction.length

/-- The exponent of a text, with or without a sign. -/
def ofExponent : List Char → Int
  | '-' :: ds => -(Nat.ofDigitChars 10 ds 0 : Int)
  | '+' :: ds => Nat.ofDigitChars 10 ds 0
  | ds => Nat.ofDigitChars 10 ds 0

/-- The number of a text without a sign. -/
def ofText (cs : List Char) : ℚ :=
  ofPlain (cs.takeWhile (· != 'e')) * 10 ^ ofExponent (cs.dropWhile (· != 'e')).tail

theorem ofPlain_of_digits (ha : '.' ∉ a) : ofPlain a = Nat.ofDigitChars 10 a 0 := by
  have hall : ∀ c ∈ a, (c != '.') = true := fun c hc => bne_iff_ne.2 fun h => ha (h ▸ hc)
  rw [ofPlain, List.takeWhile_eq_self_iff.2 hall, List.dropWhile_eq_nil_iff.2 hall]
  simp

theorem ofPlain_append (ha : '.' ∉ a) :
    ofPlain (a ++ '.' :: b) = Nat.ofDigitChars 10 (a ++ b) 0 / 10 ^ b.length := by
  have hall : ∀ c ∈ a, (c != '.') = true := fun c hc => bne_iff_ne.2 fun h => ha (h ▸ hc)
  rw [ofPlain, List.takeWhile_append_of_pos hall, List.dropWhile_append_of_pos hall]
  simp

theorem ofText_of_plain (ha : 'e' ∉ a) : ofText a = ofPlain a := by
  have hall : ∀ c ∈ a, (c != 'e') = true := fun c hc => bne_iff_ne.2 fun h => ha (h ▸ hc)
  rw [ofText, List.takeWhile_eq_self_iff.2 hall, List.dropWhile_eq_nil_iff.2 hall]
  simp [ofExponent]

theorem ofText_append (ha : 'e' ∉ a) :
    ofText (a ++ 'e' :: b) = ofPlain a * 10 ^ ofExponent b := by
  have hall : ∀ c ∈ a, (c != 'e') = true := fun c hc => bne_iff_ne.2 fun h => ha (h ▸ hc)
  rw [ofText, List.takeWhile_append_of_pos hall, List.dropWhile_append_of_pos hall]
  simp

theorem ofExponent_of_digits (hds : ∀ c ∈ ds, c.isDigit = true) :
    ofExponent ds = Nat.ofDigitChars 10 ds 0 := by
  rw [ofExponent]
  · rintro ds rfl
    exact absurd (hds '-' (.head _)) (by decide)
  · rintro ds rfl
    exact absurd (hds '+' (.head _)) (by decide)

end Decimal

namespace DoubleLayout

variable {digits : String} {point : Int}

/-! ## Layouts -/

theorem toList_plain : (plain digits point).toList =
    if point ≤ 0 then ['0'] ++ '.' :: (List.replicate (-point).toNat '0' ++ digits.toList)
    else if (digits.toList.length : Int) ≤ point then
      (digits.toList ++ List.replicate (point - digits.toList.length).toNat '0') ++ '.' :: ['0']
    else digits.toList.take point.toNat ++ '.' :: digits.toList.drop point.toNat := by
  simp only [plain, ← String.length_toList]
  split
  · simp
  · split <;> simp

/-- Plain notation says where the point is among the digits. -/
theorem ofPlain_plain (hdigits : ∀ c ∈ digits.toList, c.isDigit = true) :
    Decimal.ofPlain (plain digits point).toList =
      Nat.ofDigitChars 10 digits.toList 0 * 10 ^ (point - digits.toList.length) := by
  have hplain : '.' ∉ digits.toList := not_mem_of_isDigit hdigits rfl
  rw [toList_plain]
  split
  -- zeros in front of the digits do not count
  case isTrue hpoint =>
    have hzeros : Nat.ofDigitChars 10 (['0'] ++ (List.replicate (-point).toNat '0' ++ digits.toList)) 0 =
        Nat.ofDigitChars 10 digits.toList 0 := by
      simp [Nat.ofDigitChars_append, Nat.ofDigitChars_cons, Nat.ofDigitChars_replicate_zero]
    rw [Decimal.ofPlain_append (by decide), hzeros, div_eq_mul_inv, ← zpow_natCast, ← zpow_neg]
    congr 2
    rw [List.length_append, List.length_replicate]
    omega
  case isFalse hpoint =>
    split
    -- each zero behind them counts ten times
    case isTrue hlong =>
      obtain ⟨k, hk⟩ := Int.eq_ofNat_of_zero_le (Int.sub_nonneg_of_le hlong)
      have hzeros : ∀ c ∈ digits.toList ++ List.replicate k '0', c.isDigit = true := by
        intro c hc
        rcases List.mem_append.1 hc with hc | hc
        · exact hdigits c hc
        · rw [List.eq_of_mem_replicate hc]
          rfl
      rw [hk, Int.toNat_natCast, Decimal.ofPlain_append (not_mem_of_isDigit hzeros rfl),
        Nat.ofDigitChars_append, Nat.ofDigitChars_append, Nat.ofDigitChars_replicate_zero,
        Nat.ofDigitChars_cons]
      simp
      field_simp
    case isFalse hshort =>
      rw [Decimal.ofPlain_append fun h => hplain (List.mem_of_mem_take h), List.take_append_drop,
        div_eq_mul_inv, ← zpow_natCast, ← zpow_neg, List.length_drop]
      congr 2
      omega

/-- The exponent is written with a sign or without. -/
theorem ofExponent_sign (l : DoubleLayout) (e : Int) :
    Decimal.ofExponent ((if e < 0 then "-" else if l.plusSign then "+" else "").toList ++
      (toString e.natAbs).toList) = e := by
  have hvalue := ofDigitChars_toString e.natAbs
  split
  case isTrue hneg =>
    change -(Nat.ofDigitChars 10 (toString e.natAbs).toList 0 : Int) = e
    omega
  case isFalse hpos =>
    have hnat : (Nat.ofDigitChars 10 (toString e.natAbs).toList 0 : Int) = e := by omega
    split
    case isTrue => exact hnat
    case isFalse => exact (Decimal.ofExponent_of_digits fun _ hc => isDigit_toString hc).trans hnat

/-- The digits of scientific notation: one before the point, the others after it. -/
def mantissa : List Char → List Char
  | [] => []
  | [d] => [d]
  | d :: rest => d :: '.' :: rest

theorem mem_mantissa {ds : List Char} (hds : ∀ c ∈ ds, c.isDigit = true) {c : Char}
    (hc : c ∈ mantissa ds) : c.isDigit = true ∨ c = '.' := by
  match ds with
  | [d] => exact .inl (hds c hc)
  | d :: d' :: rest =>
    rcases List.mem_cons.1 hc with rfl | hc
    · exact .inl (hds _ (.head _))
    · rcases List.mem_cons.1 hc with hc | hc
      · exact .inr hc
      · exact .inl (hds c (.tail _ hc))

theorem ofPlain_mantissa {ds : List Char} (hne : ds ≠ []) (hds : ∀ c ∈ ds, c.isDigit = true) :
    Decimal.ofPlain (mantissa ds) = Nat.ofDigitChars 10 ds 0 * 10 ^ (1 - ds.length : Int) := by
  match ds, hne with
  | [d], _ =>
    rw [mantissa, Decimal.ofPlain_of_digits (not_mem_of_isDigit hds rfl)]
    simp
  | d :: d' :: rest, _ =>
    have hfirst : ∀ c ∈ [d], c.isDigit = true := by simpa using hds d (.head _)
    have hmantissa : mantissa (d :: d' :: rest) = [d] ++ '.' :: (d' :: rest) := rfl
    have hplaces : (1 - (d :: d' :: rest).length : Int) = -((d' :: rest).length : Int) := by
      simp only [List.length_cons]
      omega
    rw [hmantissa, Decimal.ofPlain_append (not_mem_of_isDigit hfirst rfl), List.singleton_append, hplaces,
      div_eq_mul_inv, ← zpow_natCast, ← zpow_neg]

theorem toList_scientific (l : DoubleLayout) : (l.scientific digits point).toList =
    mantissa digits.toList ++ 'e' :: ((if point - 1 < 0 then "-" else if l.plusSign then "+" else "").toList ++
      (toString (point - 1).natAbs).toList) := by
  rw [scientific]
  match digits.toList with
  | [] => simp [mantissa]
  | [d] => simp [mantissa, Char.toString]
  | d :: d' :: rest => simp [mantissa, Char.toString]

/-- Scientific notation says what its digits and its exponent are. -/
theorem ofText_scientific (l : DoubleLayout) (hne : digits.toList ≠ [])
    (hdigits : ∀ c ∈ digits.toList, c.isDigit = true) :
    Decimal.ofText (l.scientific digits point).toList =
      Nat.ofDigitChars 10 digits.toList 0 * 10 ^ (point - digits.toList.length) := by
  have hletter : 'e' ∉ mantissa digits.toList := fun h => by
    rcases mem_mantissa hdigits h with h | h <;> cases h
  rw [toList_scientific, Decimal.ofText_append hletter, ofPlain_mantissa hne hdigits, ofExponent_sign,
    mul_assoc, ← zpow_add₀ (by norm_num)]
  congr 2
  omega

/-! ### Characters -/

/-- The characters that texts of numbers are made of. -/
def isNumeric (c : Char) : Bool := c.isDigit || ['.', 'e', '-', '+'].contains c

theorem isNumeric_of_isDigit {c : Char} (h : c.isDigit = true) : isNumeric c = true := by
  rw [isNumeric, h, Bool.true_or]

theorem mem_plain (hdigits : ∀ c ∈ digits.toList, c.isDigit = true) {c : Char}
    (hc : c ∈ (plain digits point).toList) : c.isDigit = true ∨ c = '.' := by
  have hzero : c = '0' → c.isDigit = true := by
    rintro rfl
    rfl
  have htake := List.mem_of_mem_take (a := c) (i := point.toNat) (l := digits.toList)
  have hdrop := List.mem_of_mem_drop (a := c) (i := point.toNat) (l := digits.toList)
  rw [toList_plain] at hc
  split at hc
  · grind
  · split at hc <;> grind

theorem point_mem_plain : '.' ∈ (plain digits point).toList := by
  rw [toList_plain]
  split
  · simp
  · split <;> simp

theorem head_plain (hne : digits.toList ≠ []) (hdigits : ∀ c ∈ digits.toList, c.isDigit = true) :
    ∃ d cs, (plain digits point).toList = d :: cs ∧ d.isDigit = true := by
  obtain ⟨d, rest, hcons⟩ := List.exists_cons_of_ne_nil hne
  have hd : d.isDigit = true := hdigits d (hcons ▸ .head _)
  rw [toList_plain]
  split
  case isTrue => exact ⟨'0', _, rfl, rfl⟩
  case isFalse hpoint =>
    rw [hcons]
    split
    case isTrue => exact ⟨d, _, rfl, hd⟩
    case isFalse =>
      obtain ⟨k, hk⟩ : ∃ k, point.toNat = k + 1 := ⟨point.toNat - 1, by omega⟩
      rw [hk]
      exact ⟨d, _, rfl, hd⟩

theorem isNumeric_scientific (l : DoubleLayout) (hdigits : ∀ c ∈ digits.toList, c.isDigit = true) {c : Char}
    (hc : c ∈ (l.scientific digits point).toList) : isNumeric c = true := by
  rw [toList_scientific] at hc
  rcases List.mem_append.1 hc with hc | hc
  · rcases mem_mantissa hdigits hc with hc | rfl
    · exact isNumeric_of_isDigit hc
    · rfl
  · rcases List.mem_cons.1 hc with rfl | hc
    · rfl
    · rcases List.mem_append.1 hc with hc | hc
      · have hsign : ∀ c ∈ (if point - 1 < 0 then "-" else if l.plusSign then "+" else "").toList,
            isNumeric c = true := by
          split
          · exact List.all_eq_true.1 rfl
          · split <;> exact List.all_eq_true.1 rfl
        exact hsign c hc
      · exact isNumeric_of_isDigit (isDigit_toString hc)

theorem head_scientific (l : DoubleLayout) (hne : digits.toList ≠ [])
    (hdigits : ∀ c ∈ digits.toList, c.isDigit = true) :
    ∃ d cs, (l.scientific digits point).toList = d :: cs ∧ d.isDigit = true := by
  rw [toList_scientific]
  match digits.toList, hne, hdigits with
  | [d], _, hdigits => exact ⟨d, _, rfl, hdigits d (.head _)⟩
  | d :: d' :: rest, _, hdigits => exact ⟨d, _, rfl, hdigits d (.head _)⟩

/-! ## Texts -/

variable (l : DoubleLayout) {x y : Double}

/-- The text of a number without its sign. -/
def unsigned (x : Double) : String :=
  if x.isZero then "0.0"
  else
    let d := Decimal.shortest l.tie x
    let digits := toString d.digits
    let point := d.exponent + digits.length
    if l.plainFrom ≤ point && point ≤ l.plainTo then plain digits point else l.scientific digits point

theorem write_eq (x : Double) : l.write x = (if x.isNegative then "-" else "") ++ l.unsigned x := by
  rw [write, unsigned]
  split
  · rfl
  · rfl

theorem ofText_unsigned (hx : x.isZero = false) :
    Decimal.ofText (l.unsigned x).toList = (Decimal.shortest l.tie x).value := by
  rw [unsigned, hx, if_neg Bool.false_ne_true]
  dsimp only
  generalize Decimal.shortest l.tie x = d
  have hdigits : ∀ c ∈ (toString d.digits).toList, c.isDigit = true := fun _ hc => isDigit_toString hc
  have hvalue : (Nat.ofDigitChars 10 (toString d.digits).toList 0 : ℚ) *
      10 ^ (d.exponent + (toString d.digits).length - (toString d.digits).toList.length) = d.value := by
    rw [ofDigitChars_toString, String.length_toList, add_sub_cancel_right, Decimal.value]
  split
  case isTrue =>
    have hletter : 'e' ∉ (plain (toString d.digits) (d.exponent + (toString d.digits).length)).toList :=
      fun h => by rcases mem_plain hdigits h with h | h <;> cases h
    rw [Decimal.ofText_of_plain hletter, ofPlain_plain hdigits, hvalue]
  case isFalse => rw [ofText_scientific l (toString_ne_nil _) hdigits, hvalue]

theorem ofText_unsigned_zero (hx : x.isZero = true) : Decimal.ofText (l.unsigned x).toList = 0 := by
  have htext : "0.0".toList = ['0'] ++ '.' :: ['0'] := rfl
  rw [unsigned, hx, if_pos rfl, htext, Decimal.ofText_of_plain (by decide),
    Decimal.ofPlain_append (by decide)]
  simp [Nat.ofDigitChars_cons]

theorem head_unsigned (x : Double) : ∃ d cs, (l.unsigned x).toList = d :: cs ∧ d.isDigit = true := by
  have hdigits (n : Nat) : ∀ c ∈ (toString n).toList, c.isDigit = true := fun _ hc => isDigit_toString hc
  rw [unsigned]
  split
  · exact ⟨'0', _, rfl, rfl⟩
  · dsimp only
    split
    · exact head_plain (toString_ne_nil _) (hdigits _)
    · exact head_scientific l (toString_ne_nil _) (hdigits _)

/-- The text without the sign tells the double but for its sign. -/
theorem magnitude_eq_of_unsigned (h : l.unsigned x = l.unsigned y) : x.magnitude = y.magnitude := by
  have hzero {x : Double} : x.isZero = false ↔ x.magnitude ≠ 0 := by simp [Double.isZero]
  have hsame : Decimal.ofText (l.unsigned x).toList = Decimal.ofText (l.unsigned y).toList := by rw [h]
  cases hx : x.isZero <;> cases hy : y.isZero
  · rw [ofText_unsigned l hx, ofText_unsigned l hy] at hsame
    exact Double.magnitude_eq_of_shortest l.tie (hzero.1 hx) (hzero.1 hy) hsame
  · rw [ofText_unsigned l hx, ofText_unsigned_zero l hy] at hsame
    exact absurd hsame (Double.shortest_pos l.tie (hzero.1 hx)).ne'
  · rw [ofText_unsigned_zero l hx, ofText_unsigned l hy] at hsame
    exact absurd hsame (Double.shortest_pos l.tie (hzero.1 hy)).ne
  · rw [Double.isZero, beq_iff_eq] at hx hy
    rw [hx, hy]

/-- A text begins with a digit, or with a sign. -/
theorem sign_eq_of_write (h : l.write x = l.write y) :
    x.isNegative = y.isNegative ∧ l.unsigned x = l.unsigned y := by
  have hsigned {u v : String} (hv : ∃ d cs, v.toList = d :: cs ∧ d.isDigit = true) : "-" ++ u ≠ v := by
    rintro rfl
    obtain ⟨d, cs, htext, hd⟩ := hv
    rw [String.toList_append] at htext
    obtain ⟨rfl, -⟩ := List.cons.inj htext
    cases hd
  rw [write_eq, write_eq] at h
  cases hx : x.isNegative <;> cases hy : y.isNegative
  all_goals simp only [hx, hy, if_true, Bool.false_eq_true, if_false, String.empty_append] at h
  · exact ⟨rfl, h⟩
  · exact absurd h.symm (hsigned (l.head_unsigned x))
  · exact absurd h (hsigned (l.head_unsigned y))
  · exact ⟨rfl, (String.append_right_inj _).1 h⟩

/-- **The text of a double tells which one it is.** -/
theorem write_injective : Function.Injective l.write := by
  intro x y h
  obtain ⟨hsign, htext⟩ := sign_eq_of_write l h
  have hmagnitude := magnitude_eq_of_unsigned l htext
  have hbits : x.bits.toNat = y.bits.toNat := by
    have hx := x.bits.toNat_lt
    have hy := y.bits.toNat_lt
    have hpow : pow2 63 = 2 ^ 63 := rfl
    have hiff : pow2 63 ≤ x.bits.toNat ↔ pow2 63 ≤ y.bits.toNat := decide_eq_decide.1 hsign
    rw [Double.magnitude, Double.magnitude] at hmagnitude
    rw [hpow] at hiff hmagnitude
    omega
  exact congrArg Double.mk (UInt64.toNat_inj.1 hbits)

/-! ## The characters of texts -/

theorem isNumeric_write {c : Char} (hc : c ∈ (l.write x).toList) : isNumeric c = true := by
  rw [write_eq, String.toList_append] at hc
  have hdigits (n : Nat) : ∀ c ∈ (toString n).toList, c.isDigit = true := fun _ hc => isDigit_toString hc
  have hsign : ∀ c ∈ (if x.isNegative then "-" else "").toList, isNumeric c = true := by
    split <;> exact List.all_eq_true.1 rfl
  have hzero : ∀ c ∈ "0.0".toList, isNumeric c = true := List.all_eq_true.1 rfl
  rcases List.mem_append.1 hc with hc | hc
  · exact hsign c hc
  · rw [unsigned] at hc
    split at hc
    case isTrue => exact hzero c hc
    case isFalse =>
      dsimp only at hc
      split at hc
      · rcases mem_plain (hdigits _) hc with hc | rfl
        · exact isNumeric_of_isDigit hc
        · rfl
      · exact isNumeric_scientific l (hdigits _) hc

/-- A text of a double is none of an integer. -/
theorem marked_write (x : Double) : '.' ∈ (l.write x).toList ∨ 'e' ∈ (l.write x).toList := by
  rw [write_eq, String.toList_append, List.mem_append, List.mem_append]
  have hmarked : '.' ∈ (l.unsigned x).toList ∨ 'e' ∈ (l.unsigned x).toList := by
    rw [unsigned]
    split
    · exact .inl (by decide)
    · dsimp only
      split
      · exact .inl point_mem_plain
      · rw [toList_scientific]
        exact .inr (List.mem_append_right _ (.head _))
  exact hmarked.imp .inr .inr

end DoubleLayout

end SqlClient
