import SqlClient.Json.Basic
/-!
# JSON — reading

Reads one document and nothing after it. Nesting is limited to 127 levels. A number without point
and exponent that fits 64 bits, with or without a sign, is an integer; every other number, `-0`
among them, is a double. Of two members with one key the later stays.

The digits of a number that is no integer are gathered into one 64-bit count and a decimal
exponent; digits that no longer fit the count are dropped. The value is the double nearest to the
count, scaled by one power of ten.
-/

namespace SqlClient

namespace Json

/-- White space between tokens. -/
def skipBlanks (cs : List Char) : List Char :=
  cs.dropWhile fun c => c == ' ' || c == '\n' || c == '\t' || c == '\r'

/-! ## Numbers -/

/-- The greatest count of digits kept. -/
def countLimit : Nat := pow2 64 - 1

/-- The value of a digit. -/
def digitValue (c : Char) : Nat := c.toNat - '0'.toNat

/-- A decimal scanned so far: a count, the exponent it is scaled by, and whether digits were
dropped because the count was full. -/
structure Scanned where
  count : Nat
  exponent : Int
  full : Bool

/-- Takes a digit before the point: once the count is full a digit only scales it. -/
def Scanned.whole (s : Scanned) (c : Char) : Scanned :=
  let next := s.count * 10 + digitValue c
  if s.full || countLimit < next then { s with exponent := s.exponent + 1, full := true }
  else { s with count := next }

/-- Takes a digit after the point: the first that does not fit ends the count. -/
def Scanned.fractional (s : Scanned) (c : Char) : Scanned :=
  let next := s.count * 10 + digitValue c
  if s.full || countLimit < next then { s with full := true }
  else { s with count := next, exponent := s.exponent - 1 }

/-- The powers of ten that a double holds. -/
def powerOfTen (n : Nat) : Double := .ofRatio false (pow10 n) 1

/-- `x / 10 ^ n`, dividing by at most `10 ^ 308` at a time, at most `fuel` times. -/
def shrink : Nat → Double → Nat → Double
  | 0, x, _ => x
  | fuel + 1, x, n =>
    if n ≤ 308 then x.divAbs (powerOfTen n)
    else if x.isZero then x
    else shrink fuel (x.divAbs (powerOfTen 308)) (n - 308)

/-- The double that a scanned decimal stands for, unless it is out of range. -/
def Scanned.value (negative : Bool) (s : Scanned) : Option Double :=
  let x := Double.ofRatio false s.count 1
  let scaled : Option Double :=
    if 0 ≤ s.exponent then
      if 308 < s.exponent then if x.isZero then some x else none
      else
        let y := x.mulAbs (powerOfTen s.exponent.toNat)
        if y.isFinite then some y else none
    else some (shrink 4 x (-s.exponent).toNat)
  scaled.map fun y => .ofMagnitude negative y.magnitude

/-- The exponent after `e`, at most 2 ^ 31 - 1 in size. -/
def readExponent (cs : List Char) : Option (Int × List Char) :=
  let (negative, cs) :=
    match cs with
    | '-' :: rest => (true, rest)
    | '+' :: rest => (false, rest)
    | rest => (false, rest)
  let digits := cs.takeWhile Char.isDigit
  if digits.isEmpty then none
  else
    let n := digits.foldl (fun n c => min (n * 10 + digitValue c) (pow2 31)) 0
    some (if negative then -(n : Int) else n, cs.dropWhile Char.isDigit)

/-- A number without its sign. -/
def readMagnitude (negative : Bool) (cs : List Char) : Option (JsonNumber × List Char) :=
  let digits := cs.takeWhile Char.isDigit
  let rest := cs.dropWhile Char.isDigit
  if digits.isEmpty || (digits.head? == some '0' && digits.length != 1) then none
  else
    let whole := digits.foldl Scanned.whole ⟨0, 0, false⟩
    let finish (s : Scanned) (rest : List Char) : Option (JsonNumber × List Char) :=
      match rest with
      | 'e' :: after | 'E' :: after =>
        match readExponent after with
        | none => none
        | some (e, rest) =>
          match Scanned.value negative { s with exponent := s.exponent + e } with
          | none => none
          | some x => some (.double x, rest)
      | rest =>
        match s.value negative with
        | none => none
        | some x => some (.double x, rest)
    match rest with
    | '.' :: after =>
      let fraction := after.takeWhile Char.isDigit
      if fraction.isEmpty then none
      else finish (fraction.foldl Scanned.fractional { whole with full := false })
        (after.dropWhile Char.isDigit)
    | 'e' :: _ | 'E' :: _ => finish whole rest
    | _ =>
      if whole.full then finish whole rest
      else if !negative then some (.int whole.count, rest)
      else if whole.count == 0 || pow2 63 < whole.count then finish whole rest
      else some (.int (-(whole.count : Int)), rest)

/-- A number. -/
def readNumber : List Char → Option (JsonNumber × List Char)
  | '-' :: rest => readMagnitude true rest
  | cs => readMagnitude false cs

/-! ## Strings -/

/-- The value of a hexadecimal digit. -/
def hexValue? (c : Char) : Option Nat :=
  if c.isDigit then some (digitValue c)
  else if 'a' ≤ c ∧ c ≤ 'f' then some (c.toNat - 'a'.toNat + 10)
  else if 'A' ≤ c ∧ c ≤ 'F' then some (c.toNat - 'A'.toNat + 10)
  else none

/-- Four hexadecimal digits. -/
def readUnit : List Char → Option (Nat × List Char)
  | a :: b :: c :: d :: rest => do
    let a ← hexValue? a
    let b ← hexValue? b
    let c ← hexValue? c
    let d ← hexValue? d
    return (a * 4096 + b * 256 + c * 16 + d, rest)
  | _ => none

/-- The character of a numeric escape; a high surrogate needs the low one after it. -/
def readEscapedUnit (cs : List Char) : Option (Char × List Char) :=
  match readUnit cs with
  | none => none
  | some (u, rest) =>
    if 0xD800 ≤ u ∧ u ≤ 0xDBFF then
      match rest with
      | '\\' :: 'u' :: rest =>
        match readUnit rest with
        | none => none
        | some (v, rest) =>
          if 0xDC00 ≤ v ∧ v ≤ 0xDFFF then
            some (Char.ofNat (0x10000 + (u - 0xD800) * 1024 + (v - 0xDC00)), rest)
          else none
      | _ => none
    else if 0xDC00 ≤ u ∧ u ≤ 0xDFFF then none
    else some (Char.ofNat u, rest)

/-- The one-letter escapes. -/
def escapes : List (Char × Char) :=
  [('"', '"'), ('\\', '\\'), ('/', '/'), ('b', '\x08'), ('f', '\x0c'), ('n', '\n'), ('r', '\r'),
    ('t', '\t')]

/-- The rest of a string after its opening quote; `acc` holds what is read, last character
first. Each step takes at least one character, so the length of the text is fuel enough. -/
def readString : Nat → List Char → List Char → Option (String × List Char)
  | 0, _, _ => none
  | fuel + 1, acc, cs =>
    match cs with
    | [] => none
    | '"' :: rest => some (String.ofList acc.reverse, rest)
    | '\\' :: 'u' :: rest =>
      match readEscapedUnit rest with
      | none => none
      | some (c, rest) => readString fuel (c :: acc) rest
    | '\\' :: e :: rest =>
      match escapes.lookup e with
      | none => none
      | some c => readString fuel (c :: acc) rest
    | c :: rest => if c.toNat < 0x20 || c == '\\' then none else readString fuel (c :: acc) rest

/-! ## Documents -/

/-- The text after a literal that must stand here. -/
def readLiteral (literal : String) (value : Json) (cs : List Char) : Option (Json × List Char) :=
  if literal.toList.isPrefixOf cs then some (value, cs.drop literal.length) else none

mutual

/-- A document, `depth` levels of nesting allowed. -/
def readValue : Nat → Nat → List Char → Option (Json × List Char)
  | 0, _, _ => none
  | fuel + 1, depth, cs =>
    match skipBlanks cs with
    | '"' :: rest => (readString (rest.length + 1) [] rest).map fun (s, rest) => (.string s, rest)
    | '[' :: rest =>
      match depth with
      | 0 => none
      | depth + 1 =>
        match skipBlanks rest with
        | ']' :: rest => some (.array [], rest)
        | rest => readItems fuel depth [] rest
    | '\x7b' :: rest =>
      match depth with
      | 0 => none
      | depth + 1 =>
        match skipBlanks rest with
        | '\x7d' :: rest => some (.object [], rest)
        | rest => readMembers fuel depth [] rest
    | 'n' :: rest => readLiteral "ull" .null rest
    | 't' :: rest => readLiteral "rue" (.bool true) rest
    | 'f' :: rest => readLiteral "alse" (.bool false) rest
    | rest => (readNumber rest).map fun (n, rest) => (.number n, rest)

/-- The items of an array and its end; `acc` holds those read, the last first. -/
def readItems : Nat → Nat → List Json → List Char → Option (Json × List Char)
  | 0, _, _, _ => none
  | fuel + 1, depth, acc, cs =>
    match readValue fuel depth cs with
    | none => none
    | some (x, rest) =>
      match skipBlanks rest with
      | ',' :: rest => readItems fuel depth (x :: acc) rest
      | ']' :: rest => some (.array (x :: acc).reverse, rest)
      | _ => none

/-- The members of an object and its end; `acc` holds those read, the last first. -/
def readMembers : Nat → Nat → List (String × Json) → List Char → Option (Json × List Char)
  | 0, _, _, _ => none
  | fuel + 1, depth, acc, cs =>
    match skipBlanks cs with
    | '"' :: rest =>
      match readString (rest.length + 1) [] rest with
      | none => none
      | some (k, rest) =>
        match skipBlanks rest with
        | ':' :: rest =>
          match readValue fuel depth rest with
          | none => none
          | some (x, rest) =>
            match skipBlanks rest with
            | ',' :: rest => readMembers fuel depth ((k, x) :: acc) rest
            | '\x7d' :: rest => some (ofMembers ((k, x) :: acc).reverse, rest)
            | _ => none
        | _ => none
    | _ => none

end

/-- Levels of nesting a document may have. -/
def depthLimit : Nat := 127

/-- Reads a text that is one document. -/
def read? (s : String) : Option Json :=
  let cs := s.toList
  match readValue (2 * cs.length + 2) depthLimit cs with
  | some (j, rest) => if (skipBlanks rest).isEmpty then some j else none
  | none => none

end Json

end SqlClient
