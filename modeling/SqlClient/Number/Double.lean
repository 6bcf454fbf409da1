import SqlClient.Number.Power
/-!
# Numbers — binary floating point

A double is its 64 bits, so equality, rounding and both conversions to single precision are
computations on natural numbers. Rounding always goes to the nearest representable number, a tie to
the one with an even last bit, and beyond the largest finite number to infinity.
-/

namespace SqlClient

/-! ## Formats -/

/-- A binary format: `precision` bits in a significand, the leading one included, and the exponent
of the last bit of the smallest numbers. -/
structure BinaryFormat where
  precision : Nat
  leastExponent : Int
  /-- The bits of infinity, which follow those of the largest finite number. -/
  infinity : Nat

namespace BinaryFormat

/-- Double precision. -/
def double : BinaryFormat := ⟨53, -1074, 0x7FF0000000000000⟩

/-- Single precision. -/
def single : BinaryFormat := ⟨24, -149, 0x7F800000⟩

/-- The fraction `num / den / 2 ^ e` with its two sides made whole. -/
def scale (num den : Nat) (e : Int) : Nat × Nat :=
  if 0 ≤ e then (num, den * pow2 e.toNat) else (num * pow2 (-e).toNat, den)

/-- The exponent at which `num / den` has a significand of full precision, or the least one. -/
def exponentOf (f : BinaryFormat) (num den : Nat) : Int :=
  let e := max ((num.log2 : Int) - den.log2 - f.precision) f.leastExponent
  let (n, d) := scale num den e
  if n / d < pow2 f.precision then e else e + 1

/-- The quotient rounded to the nearest whole number, a tie to the even one. -/
def roundDiv (n d : Nat) : Nat :=
  let q := n / d
  let r := n % d
  if d < 2 * r || (2 * r == d && q % 2 == 1) then q + 1 else q

/-- The bits of the number nearest to the positive fraction `num / den`. Significand and exponent
share one count: a significand that rounds up to a power of two carries into the exponent. -/
def nearest (f : BinaryFormat) (num den : Nat) : Nat :=
  if num == 0 then 0
  else
    let e := f.exponentOf num den
    let (n, d) := scale num den e
    min f.infinity ((e - f.leastExponent).toNat * pow2 (f.precision - 1) + roundDiv n d)

/-- The finite number with these bits as significand and exponent. -/
def decode (f : BinaryFormat) (bits : Nat) : Nat × Int :=
  let field := bits / pow2 (f.precision - 1)
  let fraction := bits % pow2 (f.precision - 1)
  if field == 0 then (fraction, f.leastExponent)
  else (fraction + pow2 (f.precision - 1), f.leastExponent + field - 1)

end BinaryFormat

/-! ## Doubles -/

/-- A double-precision number. -/
structure Double where
  bits : UInt64
deriving DecidableEq, Inhabited, Repr

namespace Double

/-- The sign bit. -/
def isNegative (x : Double) : Bool := pow2 63 ≤ x.bits.toNat

/-- The bits without the sign. -/
def magnitude (x : Double) : Nat := x.bits.toNat % pow2 63

/-- A number from its sign and its other bits. -/
def ofMagnitude (negative : Bool) (m : Nat) : Double :=
  ⟨UInt64.ofNat (if negative then pow2 63 + m else m)⟩

/-- Whether a double is no number. -/
def isNaN (x : Double) : Bool := BinaryFormat.double.infinity < x.magnitude

/-- Whether a double is a finite number. -/
def isFinite (x : Double) : Bool := x.magnitude < BinaryFormat.double.infinity

/-- Whether a double is one of the two zeros. -/
def isZero (x : Double) : Bool := x.magnitude == 0

/-- The quiet NaN without payload. -/
def nan : Double := ⟨0x7FF8000000000000⟩

/-- Numeric equality: the two zeros are equal and NaN differs from everything. -/
def same (x y : Double) : Bool :=
  !x.isNaN && !y.isNaN && (x.bits == y.bits || (x.isZero && y.isZero))

/-- The double nearest to a fraction with a sign. -/
def ofRatio (negative : Bool) (num den : Nat) : Double :=
  ofMagnitude negative (BinaryFormat.double.nearest num den)

/-- The double nearest to an integer. -/
def ofInt (i : Int) : Double := ofRatio (i < 0) i.natAbs 1

/-- The absolute value of a finite number as a fraction. -/
def ratio (x : Double) : Nat × Nat :=
  let (m, e) := BinaryFormat.double.decode x.magnitude
  BinaryFormat.scale m 1 (-e)

/-- The product of two absolute values, rounded. -/
def mulAbs (x y : Double) : Double :=
  let (a, b) := x.ratio
  let (c, d) := y.ratio
  ofRatio false (a * c) (b * d)

/-- The quotient of two absolute values, the second not zero, rounded. -/
def divAbs (x y : Double) : Double :=
  let (a, b) := x.ratio
  let (c, d) := y.ratio
  ofRatio false (a * d) (b * c)

/-! ## Single precision -/

/-- The bits of the nearest single-precision number. A NaN keeps the leading bits of its payload
and becomes quiet. -/
def toSingleBits (x : Double) : UInt32 :=
  let m :=
    if x.isNaN then 0x7FC00000 ||| (x.magnitude % pow2 52) >>> 29
    else if x.isFinite then
      let (n, d) := x.ratio
      BinaryFormat.single.nearest n d
    else BinaryFormat.single.infinity
  UInt32.ofNat (if x.isNegative then pow2 31 + m else m)

/-- The bits of the single-precision number nearest to an integer. -/
def singleBitsOfInt (i : Int) : UInt32 :=
  let m := BinaryFormat.single.nearest i.natAbs 1
  UInt32.ofNat (if i < 0 then pow2 31 + m else m)

/-- The number with these single-precision bits, which a double holds exactly. -/
def ofSingleBits (b : UInt32) : Double :=
  let negative := pow2 31 ≤ b.toNat
  let m := b.toNat % pow2 31
  if BinaryFormat.single.infinity < m then
    ofMagnitude negative (0x7FF8000000000000 ||| (m % pow2 23) <<< 29)
  else if m == BinaryFormat.single.infinity then
    ofMagnitude negative BinaryFormat.double.infinity
  else
    let (n, e) := BinaryFormat.single.decode m
    let (num, den) := BinaryFormat.scale n 1 (-e)
    ofRatio negative num den

end Double

end SqlClient
