import SqlClient.Number.Double
/-!
# Numbers — the shortest decimal

Every finite double has a shortest decimal that reads back as it, and of those the one nearest to
the exact value. It is searched on the decimal grids of 1, 2, …, 17 digits: a grid has a point in
the interval of reals that round to the number iff one of the value's two neighbours on it is such
a point, so the first grid with a hit is the shortest. Where the value lies midway between two such
points, the format decides.
-/

namespace SqlClient

/-- A positive decimal `digits * 10 ^ exponent`. -/
structure Decimal where
  digits : Nat
  exponent : Int
deriving DecidableEq, Repr

/-- Which of two equally near decimals is taken: the one whose last digit is even, or the one
further from zero. -/
inductive Tie
  | toEven
  | away
deriving DecidableEq, Repr

namespace Decimal

/-- Drops trailing zeros, at most `fuel` of them. -/
def strip : Nat → Decimal → Decimal
  | 0, d => d
  | fuel + 1, d =>
    if d.digits != 0 && d.digits % 10 == 0 then strip fuel ⟨d.digits / 10, d.exponent + 1⟩ else d

/-- Whether `a * 10 ^ x ≤ b`, for `b` a fraction. -/
def lePow (a : Nat) (x : Int) (b : Nat × Nat) : Bool :=
  if 0 ≤ x then a * pow10 x.toNat * b.2 ≤ b.1 else a * b.2 ≤ b.1 * pow10 (-x).toNat

/-- Whether `b ≤ a * 10 ^ x`, for `b` a fraction. -/
def gePow (a : Nat) (x : Int) (b : Nat × Nat) : Bool :=
  if 0 ≤ x then b.1 ≤ a * pow10 x.toNat * b.2 else b.1 * pow10 (-x).toNat ≤ a * b.2

/-- The place of the decimal point of a positive fraction near `2 ^ binary`: the least `t` with
`b < 10 ^ t`. The estimate from the binary exponent is off by one at most. -/
def pointOf (binary : Int) (b : Nat × Nat) : Int :=
  let t := binary * 30103 / 100000 + 1
  if lePow 1 t b then t + 1 else if lePow 1 (t - 1) b then t else t - 1

/-- The greatest point of the grid `10 ^ x` at or below a fraction, in units of the grid. -/
def below (x : Int) (b : Nat × Nat) : Nat :=
  if 0 ≤ x then b.1 / (b.2 * pow10 x.toNat) else b.1 * pow10 (-x).toNat / b.2

/-- Whether a fraction goes to `c + 1` rather than to `c` on the grid `10 ^ x`. -/
def nearerAbove (tie : Tie) (c : Nat) (x : Int) (b : Nat × Nat) : Bool :=
  let twice := (2 * b.1, b.2)
  if lePow (2 * c + 1) x twice then
    !gePow (2 * c + 1) x twice || tie == .away || c % 2 == 1
  else false

/-- The reals that round to one double: its exact value between two bounds, which belong to the
interval iff `closed`. -/
structure Interval where
  lower : Nat × Nat
  value : Nat × Nat
  upper : Nat × Nat
  closed : Bool
  /-- The exponent of two at or below the value. -/
  binary : Int

/-- The rounding interval of a positive finite double. Below a power of two the gap is half as
wide as above it. -/
def Interval.ofDouble (x : Double) : Interval :=
  let (m, e) := BinaryFormat.double.decode x.magnitude
  let narrow := m == pow2 52 && BinaryFormat.double.leastExponent < e
  let at4 (n : Nat) : Nat × Nat := BinaryFormat.scale n 1 (2 - e)
  { lower := at4 (if narrow then 4 * m - 1 else 4 * m - 2)
    value := at4 (4 * m)
    upper := at4 (4 * m + 2)
    closed := m % 2 == 0
    binary := m.log2 + e }

/-- The best point of the grid `10 ^ x` in the interval, if it has one. -/
def Interval.pick (tie : Tie) (i : Interval) (x : Int) : Option Nat :=
  let c := below x i.value
  let low := if i.closed then gePow c x i.lower else !lePow c x i.lower
  let high := if i.closed then lePow (c + 1) x i.upper else !gePow (c + 1) x i.upper
  match low, high with
  | true, true => some (if nearerAbove tie c x i.value then c + 1 else c)
  | true, false => some c
  | false, true => some (c + 1)
  | false, false => none

/-- Tries the grids from `k` digits on; `fuel` bounds the digits that are added. -/
def search (tie : Tie) (i : Interval) (point : Int) : Nat → Nat → Decimal
  | 0, k => ⟨below (point - k) i.value, point - k⟩
  | fuel + 1, k =>
    match i.pick tie (point - k) with
    | some c => strip 20 ⟨c, point - k⟩
    | none => search tie i point fuel (k + 1)

/-- The shortest decimal of a positive finite double. -/
def shortest (tie : Tie) (x : Double) : Decimal :=
  let i := Interval.ofDouble x
  search tie i (pointOf i.binary i.value) 17 1

end Decimal

/-! ## Layouts -/

/-- How a format writes a finite double: in plain notation while the decimal point falls within
`plainFrom … plainTo` places after the first digit's left, else with an exponent. -/
structure DoubleLayout where
  plainFrom : Int
  plainTo : Int
  /-- Whether a positive exponent carries a plus sign. -/
  plusSign : Bool
  tie : Tie

namespace DoubleLayout

/-- Plain notation with at least one digit on both sides of the point. -/
def plain (digits : String) (point : Int) : String :=
  let n : Int := digits.length
  if point ≤ 0 then "0." ++ String.ofList (List.replicate (-point).toNat '0') ++ digits
  else if n ≤ point then
    digits ++ String.ofList (List.replicate (point - n).toNat '0') ++ ".0"
  else
    String.ofList (digits.toList.take point.toNat) ++ "." ++
      String.ofList (digits.toList.drop point.toNat)

/-- One digit before the point, the rest after it, and the exponent. -/
def scientific (l : DoubleLayout) (digits : String) (point : Int) : String :=
  let mantissa :=
    match digits.toList with
    | [] => ""
    | [d] => d.toString
    | d :: rest => d.toString ++ "." ++ String.ofList rest
  let e := point - 1
  let sign := if e < 0 then "-" else if l.plusSign then "+" else ""
  mantissa ++ "e" ++ sign ++ toString e.natAbs

/-- The text of a finite double. -/
def write (l : DoubleLayout) (x : Double) : String :=
  let sign := if x.isNegative then "-" else ""
  if x.isZero then sign ++ "0.0"
  else
    let d := Decimal.shortest l.tie x
    let digits := toString d.digits
    let point := d.exponent + digits.length
    sign ++ (if l.plainFrom ≤ point && point ≤ l.plainTo then plain digits point
      else l.scientific digits point)

end DoubleLayout

end SqlClient
