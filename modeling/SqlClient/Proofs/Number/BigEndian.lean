import SqlClient.Number.BigEndian
/-!
# Numbers — bytes that read back

A number that fits its width is read back from its bytes, and so is an integer from the two's
complement of that width (`toInt_ofInt`).
-/

namespace SqlClient

namespace BigEndian

theorem pow256_succ (width : Nat) : pow256 (width + 1) = 256 * pow256 width :=
  Nat.pow_succ'

theorem pow256_pos (width : Nat) : 0 < pow256 width := Nat.pow_pos (by decide)

@[simp] theorem length_ofNat (width n : Nat) : (ofNat width n).length = width := by
  induction width generalizing n with
  | zero => rfl
  | succ width ih => rw [ofNat, List.length_append, ih, List.length_singleton]

@[simp] theorem length_ofInt (width : Nat) (i : Int) : (ofInt width i).length = width :=
  length_ofNat width _

/-- The last byte is the least significant one. -/
theorem toNat_concat (bytes : List UInt8) (b : UInt8) :
    toNat (bytes ++ [b]) = 256 * toNat bytes + b.toNat := by
  rw [toNat, List.foldl_append]
  rfl

/-- What does not fit the width is cut off. -/
theorem toNat_ofNat (width n : Nat) : toNat (ofNat width n) = n % pow256 width := by
  induction width generalizing n with
  | zero => exact (Nat.mod_one n).symm
  | succ width ih =>
    have hbyte : (UInt8.ofNat (n % 256)).toNat = n % 256 :=
      UInt8.toNat_ofNat_of_lt (Nat.mod_lt n (by decide))
    rw [ofNat, toNat_concat, ih, hbyte, pow256_succ, Nat.mod_mul, Nat.add_comm]

theorem toNat_ofNat_of_lt {width n : Nat} (h : n < pow256 width) : toNat (ofNat width n) = n := by
  rw [toNat_ofNat, Nat.mod_eq_of_lt h]

/-- **An integer is read back** if it fits: half of the values of a width stand for the negative
integers. -/
theorem toInt_ofInt {width : Nat} {i : Int} (hleast : -(pow256 width : Int) ≤ 2 * i)
    (hgreatest : 2 * i < pow256 width) : toInt (ofInt width i) = i := by
  have hpos : (0 : Int) < pow256 width := Int.natCast_pos.2 (pow256_pos width)
  have hmod : 0 ≤ i % pow256 width ∧ i % pow256 width < pow256 width :=
    ⟨Int.emod_nonneg i (Int.ne_of_gt hpos), Int.emod_lt_of_pos i hpos⟩
  have hbytes : toNat (ofInt width i) = (i % pow256 width).toNat :=
    toNat_ofNat_of_lt (by omega)
  rw [toInt, hbytes, length_ofInt]
  rcases Int.lt_or_le i 0 with hneg | hnonneg
  · have hshift : i % pow256 width = i + pow256 width := by
      rw [← Int.add_emod_right, Int.emod_eq_of_lt (by omega) (by omega)]
    rw [if_neg (by omega), hshift]
    omega
  · rw [Int.emod_eq_of_lt hnonneg (by omega), if_pos (by omega)]
    omega

end BigEndian

end SqlClient
