import SqlClient.Text.Integer
/-!
# Text — internet addresses

Recognizes addresses of both kinds. One of the fourth version is four numbers below 256 with dots
between them. One of the sixth version is eight groups of hexadecimal digits with colons between
them; two colons stand for one zero group or more, and the last two groups may be written as an
address of the fourth version.
-/

namespace SqlClient

namespace IpAddress

/-- Reads one to `most` digits: the digits, and what follows them. -/
def readDigits (isDigit : Char → Bool) (most : Nat) (cs : List Char) :
    Option (List Char × List Char) :=
  let digits := cs.takeWhile isDigit
  if digits.isEmpty || most < digits.length then none else some (digits, cs.dropWhile isDigit)

/-- Reads a number below 256 without a zero in front; what follows it. -/
def readOctet (cs : List Char) : Option (List Char) := do
  let (digits, rest) ← readDigits Char.isDigit 3 cs
  if digits.head? == some '0' && 1 < digits.length then none
  else if (readNat 255 digits).toOption.isSome then some rest
  else none

/-- Reads `n` more numbers, each behind a dot. -/
def readOctets : Nat → List Char → Option (List Char)
  | 0, cs => some cs
  | n + 1, '.' :: cs => (readOctet cs).bind (readOctets n)
  | _ + 1, _ => none

/-- Reads an address of the fourth version; what follows it. -/
def readFour (cs : List Char) : Option (List Char) := (readOctet cs).bind (readOctets 3)

/-- Whether a character is a hexadecimal digit. -/
def isHexDigit (c : Char) : Bool :=
  c.isDigit || ('a' ≤ c && c ≤ 'f') || ('A' ≤ c && c ≤ 'F')

/-- Reads groups, at most so many; all but the first stand behind a colon. Tells how many there
are, whether the last two are an address of the fourth version, and what follows them. -/
def readGroups : Nat → Bool → List Char → Nat × Bool × List Char
  | 0, _, cs => (0, false, cs)
  | most + 1, isFirst, cs =>
    let body? := if isFirst then some cs else if cs.head? == some ':' then some cs.tail else none
    match body? with
    | none => (0, false, cs)
    | some body =>
      match if most = 0 then none else readFour body with
      | some rest => (2, true, rest)
      | none =>
        match readDigits isHexDigit 4 body with
        | some (_, rest) =>
          let (count, endsInFour, rest) := readGroups most false rest
          (count + 1, endsInFour, rest)
        | none => (0, false, cs)

/-- Whether a text is an address of the sixth version. -/
def isSix (cs : List Char) : Bool :=
  let (count, endsInFour, rest) := readGroups 8 true cs
  if count = 8 then rest.isEmpty
  else if endsInFour then false
  else
    match rest with
    | ':' :: ':' :: rest => (readGroups (7 - count) true rest).2.2.isEmpty
    | _ => false

/-- Whether a text is an address. -/
def isAddress (cs : List Char) : Bool :=
  match readFour cs with
  | some rest => rest.isEmpty
  | none => isSix cs

end IpAddress

end SqlClient
