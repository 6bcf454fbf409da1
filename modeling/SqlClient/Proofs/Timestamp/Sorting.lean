import SqlClient.Proofs.Text.Order
import SqlClient.Proofs.Timestamp.Order
import SqlClient.Proofs.Timestamp.Reading
/-!
# Timestamps — texts that sort

The texts that SQLite stores have the parts of a timestamp from the greatest to the least, each in its
own width but for the fraction, which leaves out zeros at its end. So they are ordered as the
timestamps (`texts_sort`), as long as years have four digits: with a sign or a fifth digit a year would
be compared at other places. A leap second is second 60, between second 59 and the next minute.
-/

namespace SqlClient

namespace Timestamp

variable {t u : Timestamp}

/-! ## Fractions -/

section Fractions

variable {m n : Nat} {digits : List Char}

/-- The digits of a fraction: all nine of them, or without some zeros at their end. -/
structure FractionDigits (n : Nat) (digits : List Char) : Prop where
  isDigit : ∀ c ∈ digits, c.isDigit = true
  filled : ∃ zeros, digits ++ List.replicate zeros '0' = (padded 9 n).toList

theorem fractionDigits_padded (width zeros : Nat) (hwidth : 0 < width) (hnine : width + zeros = 9)
    (hexact : n % pow10 zeros = 0) (hn : n / pow10 zeros < pow10 width) :
    FractionDigits n (padded width (n / pow10 zeros)).toList where
  isDigit _ hc := isDigit_padded hc
  filled := by
    refine ⟨zeros, ?_⟩
    rw [padded_append_zeros hwidth hn, hnine, Nat.mul_div_cancel' (Nat.dvd_of_mod_eq_zero hexact)]

theorem exists_fractionDigits (hpos : n ≠ 0) (hn : n < 1000000000) :
    ∃ digits, (fractionText n).toList = '.' :: digits ∧ FractionDigits n digits := by
  have hpoint (s : String) : ("." ++ s).toList = '.' :: s.toList := by
    rw [String.toList_append]
    rfl
  rw [fractionText, if_neg (by simpa using hpos)]
  split
  case isTrue h =>
    exact ⟨_, hpoint _, fractionDigits_padded 3 6 (by decide) rfl (beq_iff_eq.1 h)
      (Nat.div_lt_of_lt_mul hn)⟩
  case isFalse =>
    split
    case isTrue h =>
      exact ⟨_, hpoint _, fractionDigits_padded 6 3 (by decide) rfl (beq_iff_eq.1 h)
        (Nat.div_lt_of_lt_mul hn)⟩
    case isFalse =>
      have hnine := fractionDigits_padded 9 0 (by decide) rfl (Nat.mod_one n)
        (Nat.div_lt_of_lt_mul hn)
      rw [show n / pow10 0 = n from Nat.div_one n] at hnine
      exact ⟨_, hpoint _, hnine⟩

/-- **Fractions are ordered by their texts**, whatever zeros are left out. -/
theorem fractionText_lt (h : m < n) (hn : n < 1000000000) : fractionText m < fractionText n := by
  obtain ⟨digits, hdigits, -, zeros, hfilled⟩ := exists_fractionDigits (by omega) hn
  rw [String.lt_iff, hdigits]
  by_cases hm : m = 0
  · -- nothing is written for no fraction at all
    rw [hm]
    exact List.nil_lt_cons '.' digits
  · obtain ⟨digits', hdigits', hisDigit, zeros', hfilled'⟩ := exists_fractionDigits hm (Nat.lt_trans h hn)
    have hlength {a : List Char} {k i : Nat} (hi : i < 1000000000)
        (ha : a ++ List.replicate k '0' = (padded 9 i).toList) : a.length + k = 9 := by
      have hnine : (padded 9 i).toList.length = 9 := length_padded (by decide) hi
      rwa [← ha, List.length_append, List.length_replicate] at hnine
    have hpadded : padded 9 m < padded 9 n := padded_lt (by decide) h hn
    rw [String.lt_iff, ← hfilled, ← hfilled'] at hpadded
    rw [hdigits', List.cons_lt_cons_iff]
    exact .inr ⟨rfl, lt_of_append_zeros
      ((hlength (Nat.lt_trans h hn) hfilled').trans (hlength hn hfilled).symm) hisDigit hpadded⟩

end Fractions

/-! ## Texts -/

/-- The text of a timestamp in parts. -/
theorem toList_writeSpaced (t : Timestamp) : t.writeSpaced.toList = (yearText t.year).toList ++
    '-' :: ((padded 2 t.month).toList ++ '-' :: ((padded 2 t.day).toList ++ ' ' ::
      ((padded 2 t.hour).toList ++ ':' :: ((padded 2 t.minute).toList ++ ':' ::
        ((padded 2 (t.second + t.nano / 1000000000)).toList ++
          (fractionText (t.nano % 1000000000)).toList))))) := by
  simp [writeSpaced, dateText, timeText]

/-- Seconds as they are written, with leap seconds behind the others. -/
theorem shown_lt (h : t.second < u.second ∨ t.second = u.second ∧ t.nano < u.nano) :
    t.second + t.nano / 1000000000 < u.second + u.nano / 1000000000 ∨
      t.second + t.nano / 1000000000 = u.second + u.nano / 1000000000 ∧
        t.nano % 1000000000 < u.nano % 1000000000 := by
  obtain ⟨-, -, -, -, -, -, -, -, hsecond, hnano, hleap⟩ := t.valid
  obtain ⟨-, -, -, -, -, -, -, -, hsecond', hnano', hleap'⟩ := u.valid
  omega

/-- **The earlier timestamp has the lesser text.** -/
theorem writeSpaced_lt (ht : 0 ≤ t.year) (hu : u.year ≤ 9999) (h : t < u) :
    t.writeSpaced < u.writeSpaced := by
  rw [lt_iff, Earlier] at h
  have hyear {y : Int} (hy : 0 ≤ y ∧ y ≤ 9999) : yearText y = padded 4 y.toNat := if_pos hy
  have hmark {c : Char} {r r' : List Char} (h : r < r') : c :: r < c :: r' :=
    List.cons_lt_cons_iff.2 (.inr ⟨rfl, h⟩)
  obtain ⟨-, -, -, hmonth, -, hday, hhour, hminute, hsecond, hnano, -⟩ := u.valid
  have hday' := Calendar.daysInMonth_le u.year u.month
  rw [String.lt_iff, toList_writeSpaced, toList_writeSpaced, hyear (by omega), hyear (by omega)]
  have hfour {n : Nat} (hn : n ≤ 9999) : n < pow10 4 := Nat.lt_succ_of_le hn
  have htwo {n : Nat} (hn : n ≤ 99) : n < pow10 2 := Nat.lt_succ_of_le hn
  -- Each part decides unless it is the same in both, and then the parts behind it do.
  refine padded_append_lt (by decide) (hfour (by omega)) (h.imp (by omega) (And.imp (by omega) ?_))
  refine fun h => hmark (padded_append_lt (by decide) (htwo (by omega)) (h.imp_right (And.imp_right ?_)))
  refine fun h => hmark (padded_append_lt (by decide) (htwo (by omega)) (h.imp_right (And.imp_right ?_)))
  refine fun h => hmark (padded_append_lt (by decide) (htwo (by omega)) (h.imp_right (And.imp_right ?_)))
  refine fun h => hmark (padded_append_lt (by decide) (htwo (by omega)) (h.imp_right (And.imp_right ?_)))
  refine fun h => hmark (padded_append_lt (by decide) (htwo (by omega))
    ((shown_lt h).imp_right (And.imp_right ?_)))
  exact fun h => fractionText_lt h (Nat.mod_lt _ (by decide))

/-- Different timestamps have different texts. -/
theorem writeSpaced_inj : t.writeSpaced = u.writeSpaced ↔ t = u := by
  refine ⟨fun h => ?_, congrArg writeSpaced⟩
  have hread := t.read?_writeSpaced
  rw [h, u.read?_writeSpaced] at hread
  exact (Option.some.inj hread).symm

end Timestamp

namespace Sqlite

/-- The last nanosecond before a leap second. -/
def beforeLeap : Timestamp := ⟨⟨1998, 12, 31, 23, 59, 59, 999999999⟩, by decide⟩

/-- The leap second behind it. -/
def leapSecond : Timestamp := ⟨⟨1998, 12, 31, 23, 59, 59, 1000000000⟩, by decide⟩

end Sqlite

end SqlClient
