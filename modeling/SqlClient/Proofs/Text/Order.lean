import Mathlib.Tactic.SplitIfs
import SqlClient.Proofs.Text.Digits
import SqlClient.Text.Utf8
/-!
# Text — order

Texts are ordered by their characters, and so are their UTF-8 bytes (`encodeText_lt_iff`): a longer
encoding has a greater first byte, and encodings of one length put the higher bits first. Numbers of
one width are ordered as numbers (`padded_lt`). Digits behind a point keep their order when zeros at
their ends are left out (`lt_of_append_zeros`).
-/

namespace SqlClient

/-! ## Lists -/

/-- What differs in its first part differs as this part does. -/
theorem append_lt_append {α : Type} [LT α] {a b : List α} (hlength : a.length = b.length)
    (h : a < b) (r r' : List α) : a ++ r < b ++ r' := by
  induction a generalizing b with
  | nil =>
    rw [List.eq_nil_of_length_eq_zero hlength.symm] at h
    exact absurd h (List.not_lt_nil [])
  | cons x a ih =>
    cases b with
    | nil => cases hlength
    | cons y b =>
      rw [List.cons_append, List.cons_append, List.cons_lt_cons_iff]
      exact (List.cons_lt_cons_iff.1 h).imp_right (And.imp_right (ih (Nat.succ.inj hlength)))

/-- Of two lists of characters one is the lesser, unless they are the same. -/
theorem chars_lt_or_eq_or_gt (a b : List Char) : a < b ∨ a = b ∨ b < a := by
  have h : ∀ s t : String, s < t ∨ s = t ∨ t < s := by
    intro s t
    by_cases hlt : s < t
    · exact .inl hlt
    · by_cases hgt : t < s
      · exact .inr (.inr hgt)
      · exact .inr (.inl (String.le_antisymm (String.not_lt.1 hgt) (String.not_lt.1 hlt)))
  simpa only [String.lt_iff, String.toList_ofList, String.ofList_inj] using
    h (String.ofList a) (String.ofList b)

/-! ## Digits -/

section Digits

variable {a b : List Char} {m n width : Nat}

/-- Digits of one number stay behind those of a greater one, whatever follows. -/
theorem ofDigitChars_lt_of_acc (hlength : a.length = b.length) (ha : ∀ c ∈ a, c.isDigit = true)
    (h : m < n) : Nat.ofDigitChars 10 a m < Nat.ofDigitChars 10 b n := by
  induction a generalizing b m n with
  | nil =>
    rw [List.eq_nil_of_length_eq_zero hlength.symm]
    exact h
  | cons x a ih =>
    cases b with
    | nil => cases hlength
    | cons y b =>
      have hx := toNat_of_isDigit (ha x (.head _))
      rw [Nat.ofDigitChars_cons, Nat.ofDigitChars_cons]
      refine ih (Nat.succ.inj hlength) (fun c hc => ha c (.tail _ hc)) ?_
      rw [show '0'.toNat = 48 from rfl]
      omega

/-- **Digits of one length are ordered as their values.** -/
theorem ofDigitChars_lt (hlength : a.length = b.length) (ha : ∀ c ∈ a, c.isDigit = true)
    (h : a < b) : Nat.ofDigitChars 10 a n < Nat.ofDigitChars 10 b n := by
  induction a generalizing b n with
  | nil =>
    rw [List.eq_nil_of_length_eq_zero hlength.symm] at h
    exact absurd h (List.not_lt_nil [])
  | cons x a ih =>
    cases b with
    | nil => cases hlength
    | cons y b =>
      have htail : ∀ c ∈ a, c.isDigit = true := fun c hc => ha c (.tail _ hc)
      rw [Nat.ofDigitChars_cons, Nat.ofDigitChars_cons]
      rcases List.cons_lt_cons_iff.1 h with hxy | ⟨rfl, hrest⟩
      · have hx := toNat_of_isDigit (ha x (.head _))
        have hlt : x.toNat < y.toNat := hxy
        refine ofDigitChars_lt_of_acc (Nat.succ.inj hlength) htail ?_
        rw [show '0'.toNat = 48 from rfl]
        omega
      · exact ih (Nat.succ.inj hlength) htail hrest

/-- Digits of one length are the same if their values are. -/
theorem eq_of_ofDigitChars_eq (hlength : a.length = b.length) (ha : ∀ c ∈ a, c.isDigit = true)
    (hb : ∀ c ∈ b, c.isDigit = true)
    (h : Nat.ofDigitChars 10 a n = Nat.ofDigitChars 10 b n) : a = b := by
  rcases chars_lt_or_eq_or_gt a b with hlt | heq | hgt
  · exact absurd h (Nat.ne_of_lt (ofDigitChars_lt hlength ha hlt))
  · exact heq
  · exact absurd h.symm (Nat.ne_of_lt (ofDigitChars_lt hlength.symm hb hgt))

theorem padded_lt (hwidth : 0 < width) (h : m < n) (hn : n < pow10 width) :
    padded width m < padded width n := by
  have hlength : (padded width n).toList.length = (padded width m).toList.length :=
    (length_padded hwidth hn).trans (length_padded hwidth (Nat.lt_trans h hn)).symm
  rcases chars_lt_or_eq_or_gt (padded width m).toList (padded width n).toList with hlt | heq | hgt
  · exact hlt
  · have hvalue := congrArg (Nat.ofDigitChars 10 · 0) heq
    simp only [ofDigitChars_padded] at hvalue
    omega
  · have hvalue := ofDigitChars_lt (n := 0) hlength (fun _ hc => isDigit_padded hc) hgt
    rw [ofDigitChars_padded, ofDigitChars_padded] at hvalue
    omega

/-- **A field of a width decides, or what follows it does.** -/
theorem padded_append_lt {r r' : List Char} (hwidth : 0 < width) (hn : n < pow10 width)
    (h : m < n ∨ m = n ∧ r < r') : (padded width m).toList ++ r < (padded width n).toList ++ r' := by
  rcases h with h | ⟨rfl, h⟩
  · refine append_lt_append ?_ (padded_lt hwidth h hn) r r'
    exact (length_padded hwidth (Nat.lt_trans h hn)).trans (length_padded hwidth hn).symm
  · exact List.append_left_lt h

/-- Zeros behind a number make it as many times ten. -/
theorem padded_append_zeros {k : Nat} (hwidth : 0 < width) (hn : n < pow10 width) :
    (padded width n).toList ++ List.replicate k '0' = (padded (width + k) (pow10 k * n)).toList := by
  have hpow : pow10 (width + k) = pow10 k * pow10 width :=
    (Nat.pow_add 10 width k).trans (Nat.mul_comm _ _)
  have hbound : pow10 k * n < pow10 (width + k) := by
    rw [hpow]
    exact Nat.mul_lt_mul_of_pos_left hn (Nat.pow_pos (by decide))
  refine eq_of_ofDigitChars_eq (n := 0) ?_ ?_ (fun _ hc => isDigit_padded hc) ?_
  · rw [List.length_append, List.length_replicate, length_padded hwidth hn,
      length_padded (Nat.add_pos_left hwidth k) hbound]
  · intro c hc
    rcases List.mem_append.1 hc with hc | hc
    · exact isDigit_padded hc
    · rw [List.eq_of_mem_replicate hc]
      rfl
  · rw [Nat.ofDigitChars_append, Nat.ofDigitChars_replicate_zero, ofDigitChars_padded,
      ofDigitChars_padded]
    rfl

/-- **Zeros at the end do not count**: where digits with zeros behind them are less, so are the
digits alone. -/
theorem lt_of_append_zeros {j k : Nat} (hlength : a.length + j = b.length + k)
    (ha : ∀ c ∈ a, c.isDigit = true)
    (h : a ++ List.replicate j '0' < b ++ List.replicate k '0') : a < b := by
  induction a generalizing b k with
  | nil =>
    cases b with
    | nil =>
      rw [List.length_nil, Nat.zero_add, Nat.zero_add] at hlength
      rw [hlength] at h
      exact absurd h (List.lt_irrefl _)
    | cons y b => exact List.nil_lt_cons y b
  | cons x a ih =>
    have htail : ∀ c ∈ a, c.isDigit = true := fun c hc => ha c (.tail _ hc)
    cases b with
    | nil =>
      -- no digit is less than a zero, so all of these are zeros, and then nothing is less
      rw [List.length_cons, List.length_nil, Nat.zero_add] at hlength
      obtain ⟨k, rfl⟩ : ∃ k', k = k' + 1 := ⟨a.length + j, by omega⟩
      rcases List.cons_lt_cons_iff.1 h with hx | ⟨-, hrest⟩
      · have hdigit := toNat_of_isDigit (ha x (.head _))
        have hlt : x.toNat < 48 := hx
        omega
      · have hnil : a < [] := ih (by rw [List.length_nil]; omega) htail hrest
        exact absurd hnil (List.not_lt_nil a)
    | cons y b =>
      rw [List.length_cons, List.length_cons] at hlength
      rw [List.cons_lt_cons_iff]
      exact (List.cons_lt_cons_iff.1 h).imp_right (And.imp_right (ih (by omega) htail))

end Digits

/-! ## Bytes -/

section Bytes

variable {m n : Nat} {a b r r' : List UInt8} {s t : String}

/-- A byte decides, or what follows it does. -/
theorem byte_lt_byte (hn : n < 256) (h : m < n ∨ m = n ∧ r < r') :
    UInt8.ofNat m :: r < UInt8.ofNat n :: r' := by
  rw [List.cons_lt_cons_iff, UInt8.lt_iff_toNat_lt, UInt8.toNat_ofNat', UInt8.toNat_ofNat']
  rcases h with h | ⟨rfl, h⟩
  · left
    omega
  · exact .inr ⟨rfl, h⟩

/-- How a code point is encoded: in one byte, or in a byte that tells how many follow it and in
these, with six bits in each. No encoding is longer than it has to be. -/
inductive Encoded : Nat → List UInt8 → Prop
  | one {i : Nat} : i < 128 → Encoded i [.ofNat i]
  | two {i j : Nat} : 2 ≤ i → i < 32 → j < 64 →
      Encoded (64 * i + j) [.ofNat (i + 192), .ofNat (j + 128)]
  | three {i j k : Nat} : 32 ≤ 64 * i + j → i < 16 → j < 64 → k < 64 →
      Encoded (4096 * i + 64 * j + k) [.ofNat (i + 224), .ofNat (j + 128), .ofNat (k + 128)]
  | four {i j k l : Nat} : 16 ≤ 64 * i + j → i < 8 → j < 64 → k < 64 → l < 64 →
      Encoded (262144 * i + 4096 * j + 64 * k + l)
        [.ofNat (i + 240), .ofNat (j + 128), .ofNat (k + 128), .ofNat (l + 128)]

theorem encoded_utf8EncodeChar (c : Char) : Encoded c.toNat (String.utf8EncodeChar c) := by
  have hvalid : c.val.toNat < 1114112 := by
    rcases c.valid with h | h <;> omega
  rw [Char.toNat, String.utf8EncodeChar]
  generalize c.val.toNat = v at *
  split_ifs with hone htwo hthree
  · exact .one (by omega)
  · have h := Encoded.two (i := v / 64 % 32) (j := v % 64) (by omega) (by omega) (by omega)
    rwa [show 64 * (v / 64 % 32) + v % 64 = v by omega] at h
  · have h := Encoded.three (i := v / 4096 % 16) (j := v / 64 % 64) (k := v % 64) (by omega)
      (by omega) (by omega) (by omega)
    rwa [show 4096 * (v / 4096 % 16) + 64 * (v / 64 % 64) + v % 64 = v by omega] at h
  · have h := Encoded.four (i := v / 262144 % 8) (j := v / 4096 % 64) (k := v / 64 % 64)
      (l := v % 64) (by omega) (by omega) (by omega) (by omega) (by omega)
    rwa [show 262144 * (v / 262144 % 8) + 4096 * (v / 4096 % 64) + 64 * (v / 64 % 64) + v % 64 = v
      by omega] at h

/-- **Encodings are ordered as code points**, whatever follows them. Of two lengths the longer has
the greater first byte; of one length the first byte that differs decides. -/
theorem Encoded.lt (hm : Encoded m a) (hn : Encoded n b) (h : m < n) (r r' : List UInt8) :
    a ++ r < b ++ r' := by
  -- the numbers of one length are compared digit by digit, as the bytes are
  cases hm with
  | one => cases hn <;> exact byte_lt_byte (by omega) (.inl (by omega))
  | @two i j =>
    cases hn with
    | one => omega
    | @two i' j' =>
      have h : i < i' ∨ i = i' ∧ j < j' := by omega
      exact byte_lt_byte (by omega) (h.imp (by omega) (And.imp (by omega) fun h =>
        byte_lt_byte (by omega) (.inl (by omega))))
    | three | four => exact byte_lt_byte (by omega) (.inl (by omega))
  | @three i j k =>
    cases hn with
    | one | two => omega
    | @three i' j' k' =>
      have h : i < i' ∨ i = i' ∧ (j < j' ∨ j = j' ∧ k < k') := by omega
      exact byte_lt_byte (by omega) (h.imp (by omega) (And.imp (by omega) fun h =>
        byte_lt_byte (by omega) (h.imp (by omega) (And.imp (by omega) fun h =>
          byte_lt_byte (by omega) (.inl (by omega))))))
    | four => exact byte_lt_byte (by omega) (.inl (by omega))
  | @four i j k l =>
    cases hn with
    | one | two | three => omega
    | @four i' j' k' l' =>
      have h : i < i' ∨ i = i' ∧ (j < j' ∨ j = j' ∧ (k < k' ∨ k = k' ∧ l < l')) := by omega
      exact byte_lt_byte (by omega) (h.imp (by omega) (And.imp (by omega) fun h =>
        byte_lt_byte (by omega) (h.imp (by omega) (And.imp (by omega) fun h =>
          byte_lt_byte (by omega) (h.imp (by omega) (And.imp (by omega) fun h =>
            byte_lt_byte (by omega) (.inl (by omega))))))))

theorem encodeText_eq (s : String) : encodeText s = s.toList.flatMap String.utf8EncodeChar := by
  rw [encodeText, String.toUTF8, ← String.utf8Encode_toList, List.utf8Encode]
  simp

theorem encodeText_lt (h : s < t) : encodeText s < encodeText t := by
  rw [encodeText_eq, encodeText_eq]
  rw [String.lt_iff] at h
  generalize s.toList = cs at *
  generalize t.toList = ds at *
  induction cs generalizing ds with
  | nil =>
    cases ds with
    | nil => exact absurd h (List.not_lt_nil _)
    | cons d ds =>
      obtain ⟨x, bytes, hd⟩ := List.exists_cons_of_ne_nil (String.utf8EncodeChar_ne_nil (c := d))
      rw [List.flatMap_cons, hd]
      exact List.nil_lt_cons x _
  | cons c cs ih =>
    cases ds with
    | nil => exact absurd h (List.not_lt_nil _)
    | cons d ds =>
      rw [List.flatMap_cons, List.flatMap_cons]
      rcases List.cons_lt_cons_iff.1 h with hcd | ⟨rfl, hrest⟩
      · exact (encoded_utf8EncodeChar c).lt (encoded_utf8EncodeChar d) hcd _ _
      · exact List.append_left_lt (ih ds hrest)

/-- **The bytes of texts are ordered as the texts.** -/
theorem encodeText_lt_iff : encodeText s < encodeText t ↔ s < t := by
  refine ⟨fun h => ?_, encodeText_lt⟩
  rcases chars_lt_or_eq_or_gt s.toList t.toList with hlt | heq | hgt
  · exact hlt
  · rw [String.toList_inj.1 heq] at h
    exact absurd h (List.lt_irrefl _)
  · exact absurd h (List.lt_asymm (encodeText_lt hgt))

end Bytes

end SqlClient
