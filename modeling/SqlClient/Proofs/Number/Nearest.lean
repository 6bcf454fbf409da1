import Mathlib.Algebra.Order.Group.Unbundled.Int
import Mathlib.Tactic.Linarith
import SqlClient.Number.Arithmetic
import SqlClient.Proofs.Number.Rounding
/-!
# Numbers — doubles in the place of integers

From `2 ^ 63` to `2 ^ 64` the doubles are the points of a grid that is `2 ^ 11` wide, and beyond they are
some of its points. A count of 64 bits that 63 do not hold is rounded to this grid, by half its width at
most. So no double is closer to the count than the one it goes to (`nearestTo_ofInt`). Distances are counted
in units of the smallest double, where they are whole.
-/

namespace SqlClient

/-! ## Grids -/

/-- The rounded quotient is off by half the divisor at most. -/
theorem BinaryFormat.roundDiv_error (n : Nat) {d : Nat} (hd : 0 < d) :
    2 * |(roundDiv n d * d : Int) - n| ≤ d := by
  have hn : n = n / d * d + n % d := (Nat.div_add_mod' n d).symm
  have hr : n % d < d := Nat.mod_lt n hd
  rw [roundDiv]
  split
  case isTrue h =>
    simp only [Bool.or_eq_true, Bool.and_eq_true, decide_eq_true_iff, beq_iff_eq] at h
    have hsucc : ((n / d + 1 : Nat) * d : Int) = (n / d * d : Nat) + d := by push_cast; ring
    rw [hsucc, abs_of_nonneg (by omega)]
    omega
  case isFalse h =>
    simp only [Bool.or_eq_true, decide_eq_true_iff, not_or] at h
    rw [← Nat.cast_mul, abs_of_nonpos (by omega)]
    omega

/-- What is off by half a step at most is closest among the points of the grid. -/
theorem le_of_error {n d q : Int} (herror : 2 * |q * d - n| ≤ d) (k : Int) :
    |q * d - n| ≤ |k * d - n| := by
  by_cases hk : k = q
  · rw [hk]
  · have hd : 0 ≤ d := by linarith [abs_nonneg (q * d - n)]
    have hstep : d ≤ |(k - q) * d| := by
      rw [abs_mul, abs_of_nonneg hd]
      exact le_mul_of_one_le_left hd (Int.one_le_abs (sub_ne_zero.2 hk))
    have htriangle : |(k - q) * d| ≤ |k * d - n| + |q * d - n| := by
      have hsplit : (k - q) * d = (k * d - n) - (q * d - n) := by ring
      rw [hsplit]
      exact abs_sub _ _
    linarith

/-! ## Counts beyond 63 bits -/

section Counts

variable {n : Nat}

/-- A count beyond 63 bits has eleven bits more than a significand holds. -/
theorem BinaryFormat.exponentOf_count (hleast : 2 ^ 63 ≤ n) (hgreatest : n < 2 ^ 64) :
    double.exponentOf n 1 = 11 := by
  have hlog : n.log2 = 63 := (Nat.log2_eq_iff (by omega)).2 ⟨hleast, hgreatest⟩
  have hestimate : max ((n.log2 : Int) - (1 : Nat).log2 - double.precision) double.leastExponent = 10 := by
    rw [hlog]
    decide
  have hfull : ¬ n / (1 * pow2 10) < pow2 53 := by
    simp only [pow2, Nat.pow_eq]
    omega
  simp only [exponentOf, hestimate, scale]
  exact if_neg hfull

theorem BinaryFormat.roundDiv_count (hleast : 2 ^ 63 ≤ n) (hgreatest : n < 2 ^ 64) :
    2 ^ 52 ≤ roundDiv n (2 ^ 11) ∧ roundDiv n (2 ^ 11) ≤ 2 ^ 53 := by
  rw [roundDiv]
  split <;> omega

theorem BinaryFormat.nearest_count (hleast : 2 ^ 63 ≤ n) (hgreatest : n < 2 ^ 64) :
    double.nearest n 1 = 1085 * 2 ^ 52 + roundDiv n (2 ^ 11) := by
  have hzero : (n == 0) = false := beq_eq_false_iff_ne.2 (by omega)
  have hbits : double.nearest n 1 = min (2047 * 2 ^ 52) (1085 * 2 ^ 52 + roundDiv n (2 ^ 11)) := by
    rw [nearest, hzero, exponentOf_count hleast hgreatest]
    rfl
  rw [hbits]
  exact min_eq_right (by have := roundDiv_count hleast hgreatest; omega)

namespace Double

theorem bits_ofInt_count (hleast : 2 ^ 63 ≤ n) (hgreatest : n < 2 ^ 64) :
    (ofInt n).bits.toNat = 1085 * 2 ^ 52 + BinaryFormat.roundDiv n (2 ^ 11) := by
  have hround := BinaryFormat.roundDiv_count hleast hgreatest
  have hbits : ofInt n = ⟨UInt64.ofNat (1085 * 2 ^ 52 + BinaryFormat.roundDiv n (2 ^ 11))⟩ := by
    rw [ofInt, decide_eq_false (by omega), Int.natAbs_natCast, ofRatio,
      BinaryFormat.nearest_count hleast hgreatest]
    rfl
  rw [hbits]
  exact UInt64.toNat_ofNat_of_lt' (by simp only [UInt64.size]; omega)

end Double

end Counts

/-! ## Distances -/

theorem pow2_add (m k : Nat) : pow2 (m + k) = pow2 m * pow2 k := Nat.pow_add 2 m k

theorem pow2_pos (k : Nat) : 0 < pow2 k := Nat.pow_pos Nat.two_pos

theorem pow2_le {m k : Nat} (h : m ≤ k) : pow2 m ≤ pow2 k := Nat.pow_le_pow_right Nat.two_pos h

namespace Double

variable {n : Nat}

/-- The width in units of the grid that begins at `2 ^ 63`. -/
def gridWidth : Nat := pow2 11 * unitsPerOne

theorem gridWidth_eq : gridWidth = 2 ^ 11 * unitsPerOne := by
  have hpow : pow2 11 = 2 ^ 11 := rfl
  rw [gridWidth, hpow]

theorem units_eq (x : Double) : x.units =
    if x.isNegative then -((significand x.magnitude * pow2 (exponent x.magnitude + 1074).toNat : Nat) : Int)
    else (significand x.magnitude * pow2 (exponent x.magnitude + 1074).toNat : Nat) := rfl

theorem natAbs_units (x : Double) :
    x.units.natAbs = significand x.magnitude * pow2 (exponent x.magnitude + 1074).toNat := by
  rw [units_eq]
  split
  · rw [Int.natAbs_neg, Int.natAbs_natCast]
  · rw [Int.natAbs_natCast]

/-- A double is below `2 ^ 63`, or on the grid that begins there. -/
theorem units_lt_or_dvd (y : Double) :
    y.units < (2 ^ 52 * gridWidth : Nat) ∨ (gridWidth : Int) ∣ y.units := by
  have hy := natAbs_units y
  generalize (exponent y.magnitude + 1074).toNat = k at hy
  rcases Nat.lt_or_ge k (11 + 1074) with hlow | hhigh
  · left
    have hpow : pow2 k ≤ pow2 10 * unitsPerOne := by
      rw [unitsPerOne, ← pow2_add]
      exact pow2_le (Nat.le_of_lt_succ hlow)
    have hgrid : 2 ^ 53 * (pow2 10 * unitsPerOne) = 2 ^ 52 * gridWidth := by
      have hpow10 : 2 ^ 53 * pow2 10 = 2 ^ 52 * pow2 11 := rfl
      rw [gridWidth, ← mul_assoc, ← mul_assoc, hpow10]
    have hlt : y.units.natAbs < 2 ^ 52 * gridWidth := by
      rw [hy, ← hgrid]
      exact Nat.mul_lt_mul_of_lt_of_le (significand_lt _) hpow
        (Nat.mul_pos (pow2_pos _) (pow2_pos _))
    omega
  · right
    obtain ⟨j, rfl⟩ := Nat.exists_eq_add_of_le' hhigh
    rw [Int.natCast_dvd, hy, pow2_add, pow2_add, ← unitsPerOne, ← gridWidth]
    exact Dvd.dvd.mul_left (Nat.dvd_mul_left _ _) _

/-- The points of the grid are doubles: the last of them has the next exponent. -/
theorem decode_grid {q : Nat} (hleast : 2 ^ 52 ≤ q) (hgreatest : q ≤ 2 ^ 53) :
    significand (1085 * 2 ^ 52 + q) * pow2 (exponent (1085 * 2 ^ 52 + q) + 1074).toNat = q * gridWidth := by
  rcases Nat.lt_or_eq_of_le hgreatest with hlt | rfl
  · have hsignificand : significand (1085 * 2 ^ 52 + q) = q := by
      rw [significand_eq]
      split <;> omega
    have hexponent : (exponent (1085 * 2 ^ 52 + q) + 1074).toNat = 11 + 1074 := by
      rw [exponent_eq]
      split <;> omega
    rw [hsignificand, hexponent, pow2_add, ← unitsPerOne, ← gridWidth]
  · have hexponent : (exponent (1085 * 2 ^ 52 + 2 ^ 53) + 1074).toNat = 12 + 1074 := by decide
    have hpow : significand (1085 * 2 ^ 52 + 2 ^ 53) * pow2 12 = 2 ^ 53 * pow2 11 := by decide
    rw [hexponent, pow2_add, ← unitsPerOne, gridWidth, ← mul_assoc, hpow, mul_assoc]

/-- A count beyond 63 bits goes to a point of the grid. -/
theorem units_ofInt_count (hleast : 2 ^ 63 ≤ n) (hgreatest : n < 2 ^ 64) :
    (ofInt n).isFinite = true ∧ (ofInt n).units = BinaryFormat.roundDiv n (2 ^ 11) * gridWidth := by
  obtain ⟨hq, hq'⟩ := BinaryFormat.roundDiv_count hleast hgreatest
  have hbits := bits_ofInt_count hleast hgreatest
  generalize BinaryFormat.roundDiv n (2 ^ 11) = q at hq hq' hbits
  have hmagnitude : (ofInt n).magnitude = 1085 * 2 ^ 52 + q := by
    rw [magnitude, hbits]
    exact Nat.mod_eq_of_lt (by simp only [pow2, Nat.pow_eq]; omega)
  have hsign : (ofInt n).isNegative = false := by
    rw [isNegative, hbits]
    exact decide_eq_false (by simp only [pow2, Nat.pow_eq]; omega)
  constructor
  · rw [isFinite, hmagnitude]
    exact decide_eq_true (by simp only [BinaryFormat.double]; omega)
  · rw [units_eq, hsign, if_neg Bool.false_ne_true, hmagnitude, decode_grid hq hq', Nat.cast_mul]

/-- It goes there by half the width of the grid at most. -/
theorem grid_error (n : Nat) :
    2 * |(BinaryFormat.roundDiv n (2 ^ 11) : Int) * gridWidth - n * unitsPerOne| ≤ gridWidth := by
  have hwhole := BinaryFormat.roundDiv_error n (d := 2 ^ 11) (by decide)
  have hscale : (BinaryFormat.roundDiv n (2 ^ 11) : Int) * gridWidth - n * unitsPerOne =
      (BinaryFormat.roundDiv n (2 ^ 11) * (2 ^ 11 : Nat) - n) * unitsPerOne := by
    rw [gridWidth_eq]
    push_cast
    ring
  rw [hscale, abs_mul, Nat.abs_cast, ← mul_assoc, gridWidth_eq, Nat.cast_mul]
  exact mul_le_mul_of_nonneg_right hwhole (Nat.cast_nonneg _)

/-- What is closest on the grid is closest: doubles below are farther away than the first point. -/
theorem le_of_grid_error {q : Int} (hleast : 2 ^ 63 ≤ n)
    (herror : 2 * |q * gridWidth - n * unitsPerOne| ≤ gridWidth) (y : Double) :
    |q * gridWidth - n * unitsPerOne| ≤ |y.units - n * unitsPerOne| := by
  rcases units_lt_or_dvd y with hlow | ⟨k, hk⟩
  · have hfirst : 2 ^ 52 * gridWidth ≤ n * unitsPerOne := by
      rw [gridWidth_eq, ← mul_assoc]
      exact Nat.mul_le_mul_right _ hleast
    calc |q * gridWidth - n * unitsPerOne|
        ≤ |((2 ^ 52 : Nat) : Int) * gridWidth - n * unitsPerOne| := le_of_error herror _
      _ = n * unitsPerOne - (2 ^ 52 * gridWidth : Nat) := by
        rw [← Nat.cast_mul, ← Nat.cast_mul, abs_of_nonpos (by omega), neg_sub]
      _ ≤ -(y.units - n * unitsPerOne) := by omega
      _ ≤ |y.units - n * unitsPerOne| := neg_le_abs _
  · rw [hk, mul_comm (gridWidth : Int)]
    exact le_of_error herror k

/-- A finite double, and no finite double is closer to the integer. -/
structure NearestTo (x : Double) (i : Int) : Prop where
  finite : x.isFinite = true
  least : ∀ y : Double, y.isFinite = true →
    |x.units - i * unitsPerOne| ≤ |y.units - i * unitsPerOne|

/-- **A count beyond 63 bits becomes the nearest double.** -/
theorem nearestTo_ofInt (hleast : 2 ^ 63 ≤ n) (hgreatest : n < 2 ^ 64) : (ofInt n).NearestTo n := by
  obtain ⟨hfinite, hunits⟩ := units_ofInt_count hleast hgreatest
  refine ⟨hfinite, fun y _ => ?_⟩
  rw [hunits]
  exact le_of_grid_error hleast (grid_error n) y

end Double

end SqlClient
