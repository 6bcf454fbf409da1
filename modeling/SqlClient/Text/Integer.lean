import SqlClient.Number.Power
/-!
# Text — integers

Reads decimal integers: an optional sign and one or more ASCII digits, the value within 64 signed
bits. The text is read from the left, and the first thing that is wrong is the fault. Writes natural
numbers with a least number of digits.
-/

namespace SqlClient

/-- Why a text is no integer. -/
inductive IntegerFault
  | empty
  | invalidDigit
  | tooLarge
  | tooSmall
deriving DecidableEq, Repr

namespace IntegerFault

/-- The text of a fault. -/
def message : IntegerFault → String
  | .empty => "cannot parse integer from empty string"
  | .invalidDigit => "invalid digit found in string"
  | .tooLarge => "number too large to fit in target type"
  | .tooSmall => "number too small to fit in target type"

end IntegerFault

/-- The value of an ASCII digit. -/
def digitValue? (c : Char) : Option Nat :=
  if '0' ≤ c ∧ c ≤ '9' then some (c.toNat - '0'.toNat) else none

/-- Reads digits behind those that make `n`; `limit` is the greatest value that fits. -/
def readDigits (limit : Nat) (overflow : IntegerFault) : Nat → List Char → Except IntegerFault Nat
  | n, [] => .ok n
  | n, c :: rest =>
    match digitValue? c with
    | none => .error .invalidDigit
    | some d =>
      if limit < 10 * n + d then .error overflow else readDigits limit overflow (10 * n + d) rest

/-- Reads an integer of 64 signed bits. -/
def readInt64 (text : String) : Except IntegerFault Int64 :=
  match text.toList with
  | [] => .error .empty
  | ['+'] | ['-'] => .error .invalidDigit
  | '-' :: digits =>
    (readDigits (pow2 63) .tooSmall 0 digits).map fun n => Int64.ofInt (-(n : Int))
  | '+' :: digits => (readDigits (pow2 63 - 1) .tooLarge 0 digits).map fun n : Nat => Int64.ofInt n
  | digits => (readDigits (pow2 63 - 1) .tooLarge 0 digits).map fun n : Nat => Int64.ofInt n

/-- Reads an integer from zero to a limit; a plus sign may stand before it. -/
def readNat (limit : Nat) (text : List Char) : Except IntegerFault Nat :=
  match text with
  | [] => .error .empty
  | ['+'] => .error .invalidDigit
  | '+' :: digits => readDigits limit .tooLarge 0 digits
  | digits => readDigits limit .tooLarge 0 digits

/-- A number in decimal, with zeros in front up to a width. -/
def padded (width n : Nat) : String :=
  let digits := Nat.toDigits 10 n
  String.ofList (List.replicate (width - digits.length) '0' ++ digits)

end SqlClient
