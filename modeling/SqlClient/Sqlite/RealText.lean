import SqlClient.Number.Expansion
import SqlClient.Number.Shortest
import SqlClient.Text.Integer
/-!
# SQLite — the text of a real

SQLite writes a real with fifteen significant digits at most. The number is multiplied by powers of
ten until eighteen or nineteen digits stand before the point, and these are rounded to fifteen, a
five upward. The products are expansions, not exact: near the ends of the range the last of the
fifteen digits may be one off the nearest.
-/

namespace SqlClient

namespace Sqlite

namespace RealText

/-- A positive number as `value * 10 ^ exponent`. -/
structure Scaled where
  value : Expansion
  exponent : Int

/-- The greatest double below the 64-bit integers with a sign, times a power of ten. -/
def limit (k : Int) : Double :=
  if 0 ≤ k then .ofRatio false (9223372036854774784 * pow10 k.toNat) 1
  else .ofRatio false 9223372036854774784 (pow10 (-k).toNat)

/-- Divides by `10 ^ step` while the number is above `bound`, at most `fuel` times. -/
def lowerTo (bound : Double) (step : Nat) : Nat → Scaled → Scaled
  | 0, s => s
  | fuel + 1, s =>
    if bound.magnitude < s.value.high.magnitude then
      lowerTo bound step fuel ⟨s.value.mul (.ofPowerOfTen (-step)), s.exponent + step⟩
    else s

/-- Multiplies by `10 ^ step` while the number is below `bound`, at most `fuel` times. -/
def raiseTo (bound : Double) (step : Nat) : Nat → Scaled → Scaled
  | 0, s => s
  | fuel + 1, s =>
    if s.value.high.magnitude < bound.magnitude then
      raiseTo bound step fuel ⟨s.value.mul (.ofPowerOfTen step), s.exponent - step⟩
    else s

/-- A positive finite double with eighteen or nineteen digits before the point. It takes large steps
first; none of the three kinds is taken more than ten times. -/
def scaled (x : Double) : Scaled :=
  let s : Scaled := ⟨⟨.ofMagnitude false x.magnitude, .ofInt 0⟩, 0⟩
  if (limit 0).magnitude < x.magnitude then
    lowerTo (limit 0) 1 10 (lowerTo (limit 10) 10 10 (lowerTo (limit 100) 100 10 s))
  else
    raiseTo (limit (-1)) 1 10
      (raiseTo (limit (-11)) 10 10 (raiseTo (limit (-101)) 100 10 s))

/-- The first fifteen digits of a positive finite double, rounded. -/
def fifteenDigits (x : Double) : Decimal :=
  let s := scaled x
  let whole := s.value.wholePart
  let surplus := if pow10 18 ≤ whole then 4 else 3
  .strip 20 ⟨(whole / pow10 (surplus - 1) + 5) / 10, s.exponent + surplus⟩

end RealText

/-- A real as text: plain for exponents from -4 to 14, always with a point. -/
def realText (x : Double) : String :=
  let sign := if x.isNegative then "-" else ""
  if x.isZero then "0.0"
  else if !x.isFinite then sign ++ "Inf"
  else
    let d := RealText.fifteenDigits x
    let digits := toString d.digits
    let point := d.exponent + digits.length
    if -3 ≤ point ∧ point ≤ 15 then sign ++ DoubleLayout.plain digits point
    else
      let mantissa := DoubleLayout.plain digits 1
      let e := point - 1
      sign ++ mantissa ++ "e" ++ (if e < 0 then "-" else "+") ++ padded 2 e.natAbs

end Sqlite

end SqlClient
