import SqlClient.Number.Power
/-!
# Numbers — big-endian bytes

Whole numbers as a fixed number of bytes, the most significant first, and integers as two's
complement of that many bytes.
-/

namespace SqlClient

namespace BigEndian

/-- The lowest `width` bytes of a number. -/
def ofNat : Nat → Nat → List UInt8
  | 0, _ => []
  | width + 1, n => ofNat width (n / 256) ++ [UInt8.ofNat (n % 256)]

/-- The number that bytes stand for. -/
def toNat (bytes : List UInt8) : Nat := bytes.foldl (fun n b => 256 * n + b.toNat) 0

/-- An integer in two's complement. -/
def ofInt (width : Nat) (i : Int) : List UInt8 := ofNat width (i % (pow256 width : Int)).toNat

/-- The integer that bytes stand for in two's complement. -/
def toInt (bytes : List UInt8) : Int :=
  let n := toNat bytes
  if 2 * n < pow256 bytes.length then n else (n : Int) - pow256 bytes.length

end BigEndian

end SqlClient
