import SqlClient.Number.Arithmetic
/-!
# Numbers — expansions

An expansion is a sum of two doubles that is never carried out: a leading one and a correction too
small to change it. It holds about twice the digits of a double. A product of expansions is
computed in doubles alone, from the halves of its factors, and is off in the last few bits at most;
which bits these are is part of what the product is.
-/

namespace SqlClient

/-- The sum of a leading double and a correction. -/
structure Expansion where
  high : Double
  low : Double

namespace Expansion

/-- The nearest double and what is missing to the fraction, rounded. -/
def ofRatio (num den : Nat) : Expansion :=
  let high := Double.ofRatio false num den
  let missing : Int := num * Double.unitsPerOne - high.units * den
  ⟨high, .ofFraction missing (den * Double.unitsPerOne)⟩

/-- A power of ten. -/
def ofPowerOfTen (k : Int) : Expansion :=
  if 0 ≤ k then ofRatio (pow10 k.toNat) 1 else ofRatio 1 (pow10 (-k).toNat)

/-- The product. The products of the halves of the leading doubles give the leading double and what
rounding took from it; the products with the corrections are added to that. -/
def mul (x y : Expansion) : Expansion :=
  let xLead := x.high.leading
  let xRest := x.high.sub xLead
  let yLead := y.high.leading
  let yRest := y.high.sub yLead
  let outer := xLead.mul yLead
  let inner := (xLead.mul yRest).add (xRest.mul yLead)
  let sum := outer.add inner
  let lost := ((outer.sub sum).add inner).add (xRest.mul yRest)
  let correction := ((x.high.mul y.low).add (x.low.mul y.high)).add lost
  let high := sum.add correction
  ⟨high, (sum.sub high).add correction⟩

/-- The whole part of a positive expansion, term by term. -/
def wholePart (x : Expansion) : Nat :=
  if x.low.isNegative then x.high.wholePart - x.low.wholePart
  else x.high.wholePart + x.low.wholePart

end Expansion

end SqlClient
