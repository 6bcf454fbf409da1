import Mathlib.Algebra.Order.Field.Power
import Mathlib.Algebra.Order.Field.Rat
import Mathlib.Tactic.FieldSimp
import Mathlib.Tactic.Lift
import Mathlib.Tactic.Linarith
import Mathlib.Tactic.Positivity
import Mathlib.Tactic.Ring
import SqlClient.Number.Shortest
/-!
# Numbers — decimals that round to doubles

The reals that round to a double lie between two midpoints, which it shares with the numbers next to
it. So no real rounds to two doubles (`magnitude_le_of_holds`). The search for the shortest decimal
ends on a grid so fine that it has a point in the interval, hence it finds one (`holds_shortest`). The
two together make the shortest decimal tell doubles apart.
-/

namespace SqlClient

/-! ## Fractions -/

/-- The value of a fraction. -/
def fractionValue (b : Nat × Nat) : ℚ := b.1 / b.2

theorem fractionValue_scale (n : Nat) (e : Int) :
    fractionValue (BinaryFormat.scale n 1 e) = n / 2 ^ e := by
  rw [BinaryFormat.scale, fractionValue]
  split
  case isTrue h =>
    lift e to ℕ using h
    simp [pow2]
  case isFalse h =>
    obtain ⟨k, rfl⟩ : ∃ k : ℕ, e = -k := ⟨(-e).toNat, by omega⟩
    simp [pow2]

theorem den_scale_pos (n : Nat) (e : Int) : 0 < (BinaryFormat.scale n 1 e).2 := by
  rw [BinaryFormat.scale]
  split
  · simp [pow2]
  · exact Nat.one_pos

namespace Decimal

variable {a c : Nat} {x : Int} {b : Nat × Nat}

/-- The value of a decimal. -/
def value (d : Decimal) : ℚ := d.digits * 10 ^ d.exponent

/-! ### Grids -/

/-- What is compared, brought to one denominator: a place on a grid and the numerator of a fraction. -/
theorem compared (a : Nat) (x : Int) (b : Nat × Nat) : ∃ l r k : ℕ, 0 < k ∧
    lePow a x b = decide (l ≤ r) ∧ gePow a x b = decide (r ≤ l) ∧
    (a * 10 ^ x * b.2 : ℚ) = l / k ∧ (b.1 : ℚ) = r / k := by
  by_cases hx : 0 ≤ x
  · refine ⟨a * pow10 x.toNat * b.2, b.1, 1, Nat.one_pos, if_pos hx, if_pos hx, ?_, by simp⟩
    lift x to ℕ using hx
    simp [pow10]
  · refine ⟨a * b.2, b.1 * pow10 (-x).toNat, pow10 (-x).toNat, Nat.pow_pos (by decide), if_neg hx,
      if_neg hx, ?_, ?_⟩
    · obtain ⟨k, rfl⟩ : ∃ k : ℕ, x = -k := ⟨(-x).toNat, by omega⟩
      simp [pow10, div_eq_mul_inv, mul_right_comm]
    · simp [pow10]

theorem lePow_iff (hb : 0 < b.2) : lePow a x b = true ↔ a * 10 ^ x ≤ fractionValue b := by
  obtain ⟨l, r, k, hk, hle, -, hl, hr⟩ := compared a x b
  rw [fractionValue, le_div_iff₀ (by exact_mod_cast hb), hle, hl, hr, decide_eq_true_iff,
    div_le_div_iff_of_pos_right (by exact_mod_cast hk), Nat.cast_le]

theorem gePow_iff (hb : 0 < b.2) : gePow a x b = true ↔ fractionValue b ≤ a * 10 ^ x := by
  obtain ⟨l, r, k, hk, -, hge, hl, hr⟩ := compared a x b
  rw [fractionValue, div_le_iff₀ (by exact_mod_cast hb), hge, hl, hr, decide_eq_true_iff,
    div_le_div_iff_of_pos_right (by exact_mod_cast hk), Nat.cast_le]

/-- A fraction lies between its two neighbours on a grid. -/
theorem below_spec (hb : 0 < b.2) :
    below x b * 10 ^ x ≤ fractionValue b ∧ fractionValue b < (below x b + 1) * 10 ^ x := by
  have hb' : (0 : ℚ) < b.2 := by exact_mod_cast hb
  rw [below, fractionValue, le_div_iff₀ hb', div_lt_iff₀ hb']
  split
  case isTrue h =>
    lift x to ℕ using h
    have hd : 0 < b.2 * 10 ^ x := by positivity
    have hle : b.1 / (b.2 * 10 ^ x) * 10 ^ x * b.2 ≤ b.1 := by
      rw [mul_assoc, mul_comm (10 ^ x)]
      exact Nat.div_mul_le_self _ _
    have hlt : b.1 < (b.1 / (b.2 * 10 ^ x) + 1) * 10 ^ x * b.2 := by
      rw [mul_assoc, mul_comm (10 ^ x), mul_comm]
      exact Nat.lt_mul_div_succ _ hd
    rw [zpow_natCast]
    exact ⟨by exact_mod_cast hle, by exact_mod_cast hlt⟩
  case isFalse h =>
    obtain ⟨k, rfl⟩ : ∃ k : ℕ, x = -k := ⟨(-x).toNat, by omega⟩
    have hle : b.1 * 10 ^ k / b.2 * b.2 ≤ b.1 * 10 ^ k := Nat.div_mul_le_self _ _
    have hlt : b.1 * 10 ^ k < (b.1 * 10 ^ k / b.2 + 1) * b.2 := by
      rw [mul_comm _ b.2]
      exact Nat.lt_mul_div_succ _ hb
    rw [neg_neg, Int.toNat_natCast, zpow_neg, zpow_natCast, mul_right_comm, mul_right_comm _ _ (b.2 : ℚ),
      ← div_eq_mul_inv, ← div_eq_mul_inv, div_le_iff₀ (by positivity), lt_div_iff₀ (by positivity)]
    exact ⟨by exact_mod_cast hle, by exact_mod_cast hlt⟩

/-- Dropping trailing zeros keeps the value. -/
theorem value_strip (fuel : Nat) (d : Decimal) : (strip fuel d).value = d.value := by
  induction fuel generalizing d with
  | zero => rfl
  | succ fuel ih =>
    rw [strip]
    split
    case isTrue h =>
      rw [Bool.and_eq_true, beq_iff_eq] at h
      have hdigits : (d.digits : ℚ) = (d.digits / 10 : Nat) * 10 := by
        exact_mod_cast (Nat.div_mul_cancel (Nat.dvd_of_mod_eq_zero h.2)).symm
      rw [ih, value, value, zpow_add_one₀ (by norm_num), hdigits]
      ring
    case isFalse => rfl

/-! ### The place of the decimal point -/

/-- What is known of two powers, for powers whose exponents are in their proportion. -/
theorem pow_le_pow_of_le {a c s t n k : Nat} (hs : s ≠ 0) (hc : 0 < c) (h : a ^ s ≤ c ^ t)
    (hnk : t * n ≤ s * k) : a ^ n ≤ c ^ k := by
  refine (Nat.pow_le_pow_iff_left hs).1 ?_
  calc (a ^ n) ^ s
    _ = (a ^ s) ^ n := by rw [← pow_mul, ← pow_mul, Nat.mul_comm]
    _ ≤ (c ^ t) ^ n := Nat.pow_le_pow_left h n
    _ = c ^ (t * n) := (pow_mul ..).symm
    _ ≤ c ^ (s * k) := Nat.pow_le_pow_right hc hnk
    _ = (c ^ k) ^ s := by rw [← pow_mul, Nat.mul_comm]

/-- The power of ten that is estimated for a power of two is ten times too high at most. -/
theorem ten_zpow_le {binary : Int} (hleast : -20000 ≤ binary) (hgreatest : binary ≤ 20000) :
    (10 : ℚ) ^ (binary * 30103 / 100000 - 1) ≤ 2 ^ binary := by
  rcases Int.le_total 0 binary with hb | hb
  · rcases Int.le_total 0 (binary * 30103 / 100000 - 1) with hn | hn
    · obtain ⟨n, hn⟩ := Int.eq_ofNat_of_zero_le hn
      lift binary to ℕ using hb
      have hpow : 10 ^ n ≤ 2 ^ binary :=
        pow_le_pow_of_le (s := 59) (t := 196) (by decide) (by decide) (by decide) (by omega)
      rw [hn, zpow_natCast, zpow_natCast]
      exact_mod_cast hpow
    · exact (zpow_le_one_of_nonpos₀ (by norm_num) hn).trans (one_le_zpow₀ (by norm_num) hb)
  · obtain ⟨n, hn⟩ : ∃ n : ℕ, binary * 30103 / 100000 - 1 = -n :=
      ⟨(-(binary * 30103 / 100000 - 1)).toNat, by omega⟩
    obtain ⟨k, rfl⟩ : ∃ k : ℕ, binary = -k := ⟨(-binary).toNat, by omega⟩
    have hpow : 2 ^ k ≤ 10 ^ n :=
      pow_le_pow_of_le (s := 93) (t := 28) (by decide) (by decide) (by decide) (by omega)
    rw [hn, zpow_neg, zpow_neg, zpow_natCast, zpow_natCast]
    refine inv_anti₀ (by positivity) ?_
    exact_mod_cast hpow

/-- The decimal point is not put too far to the right. -/
theorem ten_zpow_pointOf_le {binary : Int} (hb : 0 < b.2) (hleast : -20000 ≤ binary)
    (hgreatest : binary ≤ 20000) (hbinary : 2 ^ binary ≤ fractionValue b) :
    (10 : ℚ) ^ (pointOf binary b - 1) ≤ fractionValue b := by
  simp only [pointOf]
  split
  case isTrue h =>
    rw [lePow_iff hb, Nat.cast_one, one_mul] at h
    rwa [add_sub_cancel_right]
  case isFalse =>
    split
    case isTrue h => rwa [lePow_iff hb, Nat.cast_one, one_mul] at h
    case isFalse =>
      rw [add_sub_cancel_right]
      exact (ten_zpow_le hleast hgreatest).trans hbinary

/-! ### Intervals -/

namespace Interval

variable {i : Interval} {tie : Tie} {q : ℚ}

/-- A number belongs to an interval. -/
def Holds (i : Interval) (q : ℚ) : Prop :=
  if i.closed then fractionValue i.lower ≤ q ∧ q ≤ fractionValue i.upper
  else fractionValue i.lower < q ∧ q < fractionValue i.upper

/-- The bounds of an interval are on both sides of its value. -/
structure Proper (i : Interval) : Prop where
  lower_den : 0 < i.lower.2
  value_den : 0 < i.value.2
  upper_den : 0 < i.upper.2
  lower_lt : fractionValue i.lower < fractionValue i.value
  lt_upper : fractionValue i.value < fractionValue i.upper

namespace Proper

theorem holds_of_between (h : i.Proper) (hlower : fractionValue i.lower < q)
    (hvalue : q ≤ fractionValue i.value) : i.Holds q := by
  have hupper := hvalue.trans_lt h.lt_upper
  rw [Holds]
  split
  · exact ⟨hlower.le, hupper.le⟩
  · exact ⟨hlower, hupper⟩

/-- The neighbour below the value, if it is accepted. -/
theorem holds_low (h : i.Proper)
    (hlow : (if i.closed then gePow c x i.lower else !lePow c x i.lower) = true)
    (hvalue : c * 10 ^ x ≤ fractionValue i.value) : i.Holds (c * 10 ^ x) := by
  have hupper := hvalue.trans_lt h.lt_upper
  rw [Holds]
  split at hlow
  case isTrue hclosed =>
    rw [if_pos hclosed]
    exact ⟨(gePow_iff h.lower_den).1 hlow, hupper.le⟩
  case isFalse hopen =>
    rw [Bool.not_eq_true', ← Bool.not_eq_true, lePow_iff h.lower_den, not_le] at hlow
    rw [if_neg hopen]
    exact ⟨hlow, hupper⟩

/-- The neighbour above the value, if it is accepted. -/
theorem holds_high (h : i.Proper)
    (hhigh : (if i.closed then lePow c x i.upper else !gePow c x i.upper) = true)
    (hvalue : fractionValue i.value < c * 10 ^ x) : i.Holds (c * 10 ^ x) := by
  have hlower := h.lower_lt.trans hvalue
  rw [Holds]
  split at hhigh
  case isTrue hclosed =>
    rw [if_pos hclosed]
    exact ⟨hlower.le, (lePow_iff h.upper_den).1 hhigh⟩
  case isFalse hopen =>
    rw [Bool.not_eq_true', ← Bool.not_eq_true, gePow_iff h.upper_den, not_le] at hhigh
    rw [if_neg hopen]
    exact ⟨hlower, hhigh⟩

/-- The point that is picked from a grid is in the interval. -/
theorem holds_pick (h : i.Proper) (hc : i.pick tie x = some c) : i.Holds (c * 10 ^ x) := by
  obtain ⟨hbelow, habove⟩ := below_spec (x := x) h.value_den
  rw [← Nat.cast_add_one] at habove
  simp only [pick] at hc
  split at hc
  case h_1 hlow hhigh =>
    obtain rfl := Option.some.inj hc
    split
    · exact h.holds_high hhigh habove
    · exact h.holds_low hlow hbelow
  case h_2 hlow _ =>
    obtain rfl := Option.some.inj hc
    exact h.holds_low hlow hbelow
  case h_3 _ hhigh =>
    obtain rfl := Option.some.inj hc
    exact h.holds_high hhigh habove
  case h_4 => cases hc

/-- **What the search finds is in the interval**, if the last grid is fine enough. -/
theorem holds_search (h : i.Proper) {point : Int} {fuel k : Nat}
    (hfine : (10 : ℚ) ^ (point - (k + fuel : Nat)) < fractionValue i.value - fractionValue i.lower) :
    i.Holds (search tie i point fuel k).value := by
  induction fuel generalizing k with
  | zero =>
    -- on the last grid the neighbour below is taken unseen
    obtain ⟨hbelow, habove⟩ := below_spec (x := point - k) h.value_den
    rw [Nat.add_zero] at hfine
    rw [add_mul, one_mul] at habove
    change i.Holds (below (point - k) i.value * 10 ^ (point - k))
    exact h.holds_of_between (by linarith) hbelow
  | succ fuel ih =>
    rw [search]
    split
    case h_1 c hc =>
      rw [value_strip]
      exact h.holds_pick hc
    case h_2 =>
      refine ih ?_
      rwa [Nat.add_right_comm, Nat.add_assoc]

end Proper

end Interval

end Decimal

/-! ## Doubles -/

namespace Double

variable {x y : Double} {M : Nat}

/-- The significand of the numbers with some bits. -/
def significand (M : Nat) : Nat := (BinaryFormat.double.decode M).1

/-- The exponent of the last bit of the significand. -/
def exponent (M : Nat) : Int := (BinaryFormat.double.decode M).2

theorem significand_eq (M : Nat) :
    significand M = if M / 2 ^ 52 = 0 then M % 2 ^ 52 else M % 2 ^ 52 + 2 ^ 52 := by
  simp only [significand, BinaryFormat.decode, beq_iff_eq, apply_ite Prod.fst]
  rfl

theorem exponent_eq (M : Nat) :
    exponent M = if M / 2 ^ 52 = 0 then -1074 else -1074 + ((M / 2 ^ 52 : Nat) : Int) - 1 := by
  simp only [exponent, BinaryFormat.decode, beq_iff_eq, apply_ite Prod.snd]
  rfl

theorem significand_lt (M : Nat) : significand M < 2 ^ 53 := by
  rw [significand_eq]
  split <;> omega

theorem significand_parity (M : Nat) : significand M % 2 = M % 2 := by
  rw [significand_eq]
  split <;> omega

theorem significand_pos (hM : 0 < M) : 0 < significand M := by
  rw [significand_eq]
  split <;> omega

theorem exponent_mem (hM : M < 2 ^ 63) : -1074 ≤ exponent M ∧ exponent M ≤ 1024 := by
  rw [exponent_eq]
  split <;> omega

/-- The next number has the next significand, or that is full and the exponent goes up. -/
theorem significand_succ (M : Nat) :
    (significand (M + 1) = significand M + 1 ∧ exponent (M + 1) = exponent M ∧
        (significand M + 1 = 2 ^ 52 → exponent M = -1074)) ∨
      significand M + 1 = 2 ^ 53 ∧ significand (M + 1) = 2 ^ 52 ∧ exponent (M + 1) = exponent M + 1 ∧
        -1074 ≤ exponent M := by
  rw [significand_eq, significand_eq, exponent_eq, exponent_eq]
  by_cases hM : M / 2 ^ 52 = 0 <;> by_cases hM' : (M + 1) / 2 ^ 52 = 0 <;>
    simp only [hM, hM', if_true, if_false, implies_true, and_true] <;> omega

/-! ### Midpoints -/

/-- The midpoint between the number with some bits and the next one. -/
def edge (M : Nat) : ℚ := (significand M + 1 / 2) * 2 ^ exponent M

/-- The numbers keep their distance from the midpoint below them. -/
theorem edge_le (M : Nat) :
    edge M + 1 / 4 * 2 ^ exponent (M + 1) ≤ significand (M + 1) * 2 ^ exponent (M + 1) := by
  have hpos : (0 : ℚ) < 2 ^ exponent M := by positivity
  rw [edge]
  rcases significand_succ M with ⟨hsignificand, hexponent, -⟩ | ⟨hfull, hsignificand, hexponent, -⟩
  · rw [hsignificand, hexponent]
    push_cast
    linarith
  · have hm : (significand M : ℚ) + 1 = 2 ^ 53 := by exact_mod_cast hfull
    rw [hsignificand, hexponent, zpow_add_one₀ (by norm_num), eq_sub_of_add_eq hm]
    push_cast
    linarith

/-- Greater numbers have greater midpoints. -/
theorem edge_strictMono : StrictMono edge := by
  refine strictMono_nat_of_lt_succ fun M => ?_
  have hpos : (0 : ℚ) < 2 ^ exponent (M + 1) := by positivity
  have hle := edge_le M
  rw [edge.eq_1 (M + 1)]
  linarith

theorem upper_ofDouble (x : Double) :
    fractionValue (Decimal.Interval.ofDouble x).upper = edge x.magnitude := by
  simp only [Decimal.Interval.ofDouble]
  rw [fractionValue_scale, edge, significand, exponent, zpow_sub₀ (by norm_num)]
  field_simp
  push_cast
  ring

theorem value_ofDouble (x : Double) : fractionValue (Decimal.Interval.ofDouble x).value =
    significand x.magnitude * 2 ^ exponent x.magnitude := by
  simp only [Decimal.Interval.ofDouble]
  rw [fractionValue_scale, significand, exponent, zpow_sub₀ (by norm_num)]
  field_simp
  push_cast
  ring

/-- The lower bound of a number is the upper bound of the number before it. -/
theorem lower_ofDouble (hM : x.magnitude = M + 1) :
    fractionValue (Decimal.Interval.ofDouble x).lower = edge M := by
  simp only [Decimal.Interval.ofDouble, hM]
  rw [fractionValue_scale, edge, zpow_sub₀ (by norm_num), ← significand, ← exponent]
  rcases significand_succ M with ⟨hsignificand, hexponent, hleast⟩ |
    ⟨hfull, hsignificand, hexponent, hleast⟩
  · have hwide : (significand M + 1 == pow2 52 &&
        decide (BinaryFormat.double.leastExponent < exponent M)) = false := by
      rw [Bool.and_eq_false_imp, beq_iff_eq]
      intro hm
      rw [hleast hm]
      rfl
    have hfour : 4 * (significand M + 1) - 2 = 4 * significand M + 2 := by omega
    rw [hsignificand, hexponent, hwide, if_neg Bool.false_ne_true, hfour]
    field_simp
    push_cast
    ring
  · have hnarrow : ((2 : Nat) ^ 52 == pow2 52 &&
        decide (BinaryFormat.double.leastExponent < exponent M + 1)) = true := by
      rw [Bool.and_eq_true, decide_eq_true_iff]
      exact ⟨rfl, Int.lt_add_one_of_le hleast⟩
    have hm : (significand M : ℚ) + 1 = 2 ^ 53 := by exact_mod_cast hfull
    rw [hsignificand, hexponent, hnarrow, if_pos rfl, zpow_add_one₀ (by norm_num), eq_sub_of_add_eq hm]
    field_simp
    norm_num

theorem proper_ofDouble (hM : x.magnitude = M + 1) : (Decimal.Interval.ofDouble x).Proper where
  lower_den := den_scale_pos _ _
  value_den := den_scale_pos _ _
  upper_den := den_scale_pos _ _
  lower_lt := by
    have hpos : (0 : ℚ) < 2 ^ exponent (M + 1) := by positivity
    rw [lower_ofDouble hM, value_ofDouble, hM]
    linarith [edge_le M]
  lt_upper := by
    have hpos : (0 : ℚ) < 2 ^ exponent x.magnitude := by positivity
    rw [upper_ofDouble, value_ofDouble, edge]
    linarith

/-! ### Shortest decimals -/

/-- The value is at least the power of two that its estimate starts from. -/
theorem two_zpow_le (hx : 0 < x.magnitude) :
    (2 : ℚ) ^ (Decimal.Interval.ofDouble x).binary ≤ fractionValue (Decimal.Interval.ofDouble x).value := by
  have hbinary : (Decimal.Interval.ofDouble x).binary =
      (significand x.magnitude).log2 + exponent x.magnitude := rfl
  rw [value_ofDouble, hbinary, zpow_add₀ (by norm_num), zpow_natCast]
  refine mul_le_mul_of_nonneg_right ?_ (by positivity)
  exact_mod_cast Nat.log2_self_le (significand_pos hx).ne'

theorem binary_mem (hx : 0 < x.magnitude) :
    -20000 ≤ (Decimal.Interval.ofDouble x).binary ∧ (Decimal.Interval.ofDouble x).binary ≤ 20000 := by
  have hbinary : (Decimal.Interval.ofDouble x).binary =
      (significand x.magnitude).log2 + exponent x.magnitude := rfl
  have hlog : (significand x.magnitude).log2 < 53 :=
    (Nat.log2_lt (significand_pos hx).ne').2 (significand_lt _)
  obtain ⟨hleast, hgreatest⟩ := exponent_mem (M := x.magnitude) (Nat.mod_lt _ (by decide))
  omega

/-- **The shortest decimal of a double rounds to it.** -/
theorem holds_shortest (tie : Tie) (hM : x.magnitude = M + 1) :
    (Decimal.Interval.ofDouble x).Holds (Decimal.shortest tie x).value := by
  have hproper := proper_ofDouble hM
  have hx : 0 < x.magnitude := hM ▸ Nat.succ_pos M
  have hpoint := Decimal.ten_zpow_pointOf_le hproper.value_den (binary_mem hx).1 (binary_mem hx).2
    (two_zpow_le hx)
  have hpos : (0 : ℚ) < 2 ^ exponent (M + 1) := by positivity
  have hm : (significand (M + 1) : ℚ) < 2 ^ 53 := by exact_mod_cast significand_lt (M + 1)
  refine hproper.holds_search ?_
  rw [lower_ofDouble hM]
  rw [value_ofDouble, hM] at hpoint ⊢
  generalize Decimal.pointOf _ _ = point at hpoint
  have hstep : (10 : ℚ) ^ (point - (1 + 17 : Nat)) = 10 ^ (point - 1) * 10 ^ (-17 : Int) := by
    rw [← zpow_add₀ (by norm_num)]
    congr 1
    push_cast
    ring
  -- eighteen digits make a grid whose step is below a quarter of the last bit
  calc (10 : ℚ) ^ (point - (1 + 17 : Nat))
    _ = 10 ^ (point - 1) * 10 ^ (-17 : Int) := hstep
    _ ≤ significand (M + 1) * 2 ^ exponent (M + 1) * 10 ^ (-17 : Int) :=
      mul_le_mul_of_nonneg_right hpoint (by positivity)
    _ < 1 / 4 * 2 ^ exponent (M + 1) := by
      rw [mul_right_comm]
      refine mul_lt_mul_of_pos_right ?_ hpos
      norm_num
      linarith
    _ ≤ significand (M + 1) * 2 ^ exponent (M + 1) - edge M := by linarith [edge_le M]

/-- What rounds to a double lies between two midpoints, and on one of them only if the bits are even. -/
theorem between_of_holds {q : ℚ} (hM : x.magnitude = M + 1)
    (hq : (Decimal.Interval.ofDouble x).Holds q) :
    edge M ≤ q ∧ q ≤ edge (M + 1) ∧ ((M + 1) % 2 = 1 → edge M < q ∧ q < edge (M + 1)) := by
  have hclosed : (Decimal.Interval.ofDouble x).closed = ((M + 1) % 2 == 0) := by
    rw [← significand_parity, ← hM]
    rfl
  rw [Decimal.Interval.Holds, lower_ofDouble hM, upper_ofDouble, hM, hclosed] at hq
  split at hq
  case isTrue heven =>
    rw [beq_iff_eq] at heven
    exact ⟨hq.1, hq.2, fun hodd => by omega⟩
  case isFalse => exact ⟨hq.1.le, hq.2.le, fun _ => hq⟩

/-- **No number rounds to two doubles.** -/
theorem magnitude_le_of_holds {q : ℚ} (hx : x.magnitude ≠ 0) (hy : y.magnitude ≠ 0)
    (hq : (Decimal.Interval.ofDouble x).Holds q) (hq' : (Decimal.Interval.ofDouble y).Holds q) :
    y.magnitude ≤ x.magnitude := by
  obtain ⟨M, hM⟩ := Nat.exists_eq_add_one_of_ne_zero hx
  obtain ⟨N, hN⟩ := Nat.exists_eq_add_one_of_ne_zero hy
  obtain ⟨-, hle, hodd⟩ := between_of_holds hM hq
  obtain ⟨hge, -, hodd'⟩ := between_of_holds hN hq'
  by_contra hlt
  -- numbers that share a midpoint are next to each other, and only one of them has even bits
  obtain rfl : M + 1 = N :=
    Nat.le_antisymm (by omega) (edge_strictMono.le_iff_le.1 (hge.trans hle))
  rcases Nat.mod_two_eq_zero_or_one (M + 1) with heven | hone
  · exact absurd hle (hodd' (by omega)).1.not_ge
  · exact absurd hge (hodd hone).2.not_ge

/-- **The shortest decimal tells doubles apart**, but for their signs. -/
theorem magnitude_eq_of_shortest (tie : Tie) (hx : x.magnitude ≠ 0) (hy : y.magnitude ≠ 0)
    (h : (Decimal.shortest tie x).value = (Decimal.shortest tie y).value) :
    x.magnitude = y.magnitude := by
  obtain ⟨M, hM⟩ := Nat.exists_eq_add_one_of_ne_zero hx
  obtain ⟨N, hN⟩ := Nat.exists_eq_add_one_of_ne_zero hy
  have hq := holds_shortest tie hM
  have hq' := holds_shortest tie hN
  rw [← h] at hq'
  exact Nat.le_antisymm (magnitude_le_of_holds hy hx hq' hq) (magnitude_le_of_holds hx hy hq hq')

/-- A shortest decimal is not zero. -/
theorem shortest_pos (tie : Tie) (hx : x.magnitude ≠ 0) : 0 < (Decimal.shortest tie x).value := by
  obtain ⟨M, hM⟩ := Nat.exists_eq_add_one_of_ne_zero hx
  have hedge : 0 < edge M := by
    rw [edge]
    positivity
  exact hedge.trans_le (between_of_holds hM (holds_shortest tie hM)).1

end Double

end SqlClient
