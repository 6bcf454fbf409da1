import SqlClient.Text.Integer
import SqlClient.Unicode.Classes
/-!
# Text — digits

A number is written in ASCII digits, none of which is a mark or white space, and the digits say which
number it is, with zeros in front or without. A reader takes them for that number (`readDigits_eq_ok_iff`)
unless it is too large.
-/

namespace SqlClient

/-! ## Characters -/

theorem toNat_of_isDigit {c : Char} (hc : c.isDigit = true) : 48 ≤ c.toNat ∧ c.toNat ≤ 57 := by
  simp only [Char.isDigit, Bool.and_eq_true, decide_eq_true_eq, ge_iff_le,
    UInt32.le_iff_toNat_le] at hc
  exact hc

theorem isBlank_of_isDigit {c : Char} (hc : c.isDigit = true) : Unicode.isBlank c = false := by
  have hranges : ∀ r ∈ Unicode.blanks, r.2 < 48 ∨ 57 < r.1 := by decide
  rw [Unicode.isBlank, Unicode.inRanges, List.any_eq_false]
  intro r hr
  have hrange := hranges r hr
  have hdigit := toNat_of_isDigit hc
  simp only [Bool.and_eq_true, decide_eq_true_eq]
  omega

theorem not_mem_of_isDigit {cs : List Char} (h : ∀ c ∈ cs, c.isDigit = true) {c : Char}
    (hc : c.isDigit = false) : c ∉ cs := by
  intro hmem
  rw [h c hmem] at hc
  cases hc

/-! ## Numbers -/

theorem isDigit_toString {n : Nat} {c : Char} (hc : c ∈ (toString n).toList) : c.isDigit = true := by
  rw [Nat.toString_eq_ofList_toDigits, String.toList_ofList] at hc
  exact Nat.isDigit_of_mem_toDigits (by decide) (by decide) hc

theorem ofDigitChars_toString (n : Nat) : Nat.ofDigitChars 10 (toString n).toList 0 = n := by
  rw [Nat.toString_eq_ofList_toDigits, String.toList_ofList, Nat.ofDigitChars_ten_toDigits]

theorem toString_ne_nil (n : Nat) : (toString n).toList ≠ [] := by
  rw [Nat.toString_eq_ofList_toDigits, String.toList_ofList]
  exact Nat.toDigits_ne_nil

/-! ## Reading numbers -/

theorem digitValue?_eq_ite (c : Char) :
    digitValue? c = if c.isDigit = true then some (c.toNat - '0'.toNat) else none := by
  have hdigit : ('0' ≤ c ∧ c ≤ '9') ↔ c.isDigit = true := by
    simp only [Char.isDigit, Bool.and_eq_true, decide_eq_true_eq]
    rfl
  simp only [digitValue?, hdigit]

/-- More digits never make less. -/
theorem le_ofDigitChars (n : Nat) (cs : List Char) : n ≤ Nat.ofDigitChars 10 cs n := by
  induction cs generalizing n with
  | nil => exact Nat.le_refl n
  | cons c cs ih =>
    have hrest := ih (10 * n + (c.toNat - '0'.toNat))
    rw [Nat.ofDigitChars_cons]
    omega

/-- **Digits are read as the number that they make**, if they are digits and it fits. -/
theorem readDigits_eq_ok_iff {limit n value : Nat} {overflow : IntegerFault} {cs : List Char}
    (hn : n ≤ limit) : readDigits limit overflow n cs = .ok value ↔
      (∀ c ∈ cs, c.isDigit = true) ∧ Nat.ofDigitChars 10 cs n = value ∧ value ≤ limit := by
  induction cs generalizing n with
  | nil =>
    have hnil : Nat.ofDigitChars 10 [] n = n := rfl
    rw [readDigits, Except.ok.injEq, hnil]
    refine ⟨fun h => ⟨List.forall_mem_nil _, h, h ▸ hn⟩, fun h => h.2.1⟩
  | cons c cs ih =>
    rw [readDigits, digitValue?_eq_ite, List.forall_mem_cons, Nat.ofDigitChars_cons]
    cases hc : c.isDigit with
    | false => simp
    | true =>
      have hgrows := le_ofDigitChars (10 * n + (c.toNat - '0'.toNat)) cs
      simp only [if_true, true_and]
      split
      · constructor
        · intro h
          cases h
        · rintro ⟨-, hvalue, hfits⟩
          omega
      · exact ih (by omega)

/-- An integer without a sign is read as the number that its digits make. -/
theorem readInt64_eq_ok_iff {digits : List Char} {id : Int64} (hne : digits ≠ [])
    (hsign : ∀ c ∈ digits.head?, c ≠ '+' ∧ c ≠ '-') :
    readInt64 (String.ofList digits) = .ok id ↔
      (∀ c ∈ digits, c.isDigit = true) ∧ (Nat.ofDigitChars 10 digits 0 : Int) = id.toInt := by
  -- neither empty nor signed, the text is read as digits throughout
  have hread : readInt64 (String.ofList digits) =
      (readDigits (pow2 63 - 1) .tooLarge 0 digits).map fun n : Nat => Int64.ofInt n := by
    rw [readInt64, String.toList_ofList]
    split
    · exact absurd rfl hne
    · exact absurd rfl (hsign _ rfl).1
    · exact absurd rfl (hsign _ rfl).2
    · exact absurd rfl (hsign _ rfl).2
    · exact absurd rfl (hsign _ rfl).1
    · rfl
  have hlimit : pow2 63 = 9223372036854775808 := rfl
  have hspelled : readInt64 (String.ofList digits) = .ok id ↔
      ∃ n, readDigits (pow2 63 - 1) .tooLarge 0 digits = .ok n ∧ Int64.ofInt n = id := by
    rw [hread]
    cases readDigits (pow2 63 - 1) .tooLarge 0 digits <;> simp [Except.map]
  rw [hspelled]
  constructor
  · rintro ⟨n, hn, rfl⟩
    obtain ⟨hdigits, rfl, hfits⟩ := (readDigits_eq_ok_iff (Nat.zero_le _)).1 hn
    rw [hlimit] at hfits
    exact ⟨hdigits, (Int64.toInt_ofInt_of_le (by omega) (by omega)).symm⟩
  · rintro ⟨hdigits, hid⟩
    have hfits := id.toInt_lt
    refine ⟨_, (readDigits_eq_ok_iff (Nat.zero_le _)).2 ⟨hdigits, rfl, ?_⟩, ?_⟩
    · rw [hlimit]
      omega
    · rw [hid, Int64.ofInt_toInt]

/-! ## Numbers of a width -/

theorem toList_padded (width n : Nat) : (padded width n).toList =
    List.replicate (width - (Nat.toDigits 10 n).length) '0' ++ Nat.toDigits 10 n := by
  rw [padded, String.toList_ofList]

theorem isDigit_padded {width n : Nat} {c : Char} (hc : c ∈ (padded width n).toList) :
    c.isDigit = true := by
  rw [toList_padded, List.mem_append] at hc
  rcases hc with hc | hc
  · rw [List.eq_of_mem_replicate hc]
    rfl
  · exact Nat.isDigit_of_mem_toDigits (by decide) (by decide) hc

theorem ofDigitChars_padded (width n : Nat) : Nat.ofDigitChars 10 (padded width n).toList 0 = n := by
  rw [toList_padded, Nat.ofDigitChars_append, Nat.ofDigitChars_replicate_zero, Nat.mul_zero,
    Nat.ofDigitChars_ten_toDigits]

theorem length_padded {width n : Nat} (hwidth : 0 < width) (hn : n < pow10 width) :
    (padded width n).toList.length = width := by
  have hlength := (Nat.length_toDigits_le_iff (by decide) hwidth).2 hn
  rw [toList_padded, List.length_append, List.length_replicate, Nat.sub_add_cancel hlength]

theorem padded_ne_nil (width n : Nat) : (padded width n).toList ≠ [] := by
  rw [toList_padded]
  exact List.append_ne_nil_of_right_ne_nil _ Nat.toDigits_ne_nil

end SqlClient
