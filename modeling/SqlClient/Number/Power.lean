/-!
# Numbers — powers

Powers of the bases that numbers are written in.
-/

namespace SqlClient

/-- Two to the power `n`. -/
def pow2 (n : Nat) : Nat := Nat.pow 2 n

/-- Ten to the power `n`. -/
def pow10 (n : Nat) : Nat := Nat.pow 10 n

/-- The number of values that `n` bytes can have. -/
def pow256 (n : Nat) : Nat := Nat.pow 256 n

end SqlClient
