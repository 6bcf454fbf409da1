import SqlClient.Number.Double
/-!
# Numbers — arithmetic of doubles

Sums, differences and products of finite doubles. Each is the exact result rounded once, to the
nearest double, a tie to the one with an even last bit. Exact values are counted in units of the
smallest positive double, so that they are integers.
-/

namespace SqlClient

namespace Double

/-- How many units make one. -/
def unitsPerOne : Nat := pow2 1074

/-- The exact value of a finite double in units. -/
def units (x : Double) : Int :=
  let (m, e) := BinaryFormat.double.decode x.magnitude
  let n : Nat := m * pow2 (e - BinaryFormat.double.leastExponent).toNat
  if x.isNegative then -n else n

/-- The double nearest to a fraction. -/
def ofFraction (num : Int) (den : Nat) : Double := ofRatio (num < 0) num.natAbs den

/-- The sum, rounded. -/
def add (x y : Double) : Double := ofFraction (x.units + y.units) unitsPerOne

/-- The difference, rounded. -/
def sub (x y : Double) : Double := ofFraction (x.units - y.units) unitsPerOne

/-- The product, rounded. -/
def mul (x y : Double) : Double := ofFraction (x.units * y.units) (unitsPerOne * unitsPerOne)

/-- The absolute value without its fraction. -/
def wholePart (x : Double) : Nat := x.units.natAbs / unitsPerOne

/-- The number without the last 26 bits of its significand. Products of two such numbers, and of
one with the rest of another, lose nothing to rounding. -/
def leading (x : Double) : Double := ⟨x.bits &&& 0xFFFFFFFFFC000000⟩

end Double

end SqlClient
