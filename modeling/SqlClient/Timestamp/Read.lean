import SqlClient.Number.Power
import SqlClient.Timestamp.Basic
import SqlClient.Unicode.Classes
/-!
# Timestamps — reading

Reads the written form with some freedom: white space may stand before every number and, where
date and time are parted by a space, any amount of it or none; months, days and times may have one
digit; a year without a sign has at most four digits, one with a sign any number. Digits of the
fraction after the ninth are dropped. Second 60 is the leap second.
-/

namespace SqlClient

namespace Timestamp

/-- A reader takes its part from the front of the text and returns the rest. -/
abbrev Reader (α : Type) := List Char → Option (α × List Char)

/-- Drops white space. -/
def trimFront (cs : List Char) : List Char := cs.dropWhile Unicode.isBlank

/-- The number that digits spell. -/
def digitsToNat (cs : List Char) : Nat :=
  cs.foldl (fun n c => n * 10 + (c.toNat - '0'.toNat)) 0

/-- At least one and at most `width` digits. -/
def readDigits (width : Nat) : Reader Nat := fun cs =>
  let digits := (cs.take width).takeWhile Char.isDigit
  if digits.isEmpty then none else some (digitsToNat digits, cs.drop digits.length)

/-- White space and a number of at most two digits. -/
def readPair : Reader Nat := fun cs => readDigits 2 (trimFront cs)

/-- White space and a year. -/
def readYear : Reader Int := fun cs =>
  match trimFront cs with
  | '-' :: rest => (readDigits rest.length rest).map fun (n, rest) => (-(n : Int), rest)
  | '+' :: rest => (readDigits rest.length rest).map fun (n, rest) => ((n : Int), rest)
  | rest => (readDigits 4 rest).map fun (n, rest) => ((n : Int), rest)

/-- A character that must stand here. -/
def readMark (mark : Char) : Reader Unit
  | c :: rest => if c = mark then some ((), rest) else none
  | [] => none

/-- An optional fraction, in nanoseconds. -/
def readFraction : Reader Nat
  | '.' :: rest =>
    let digits := rest.takeWhile Char.isDigit
    if digits.isEmpty then none
    else
      let kept := digits.take 9
      some (digitsToNat kept * pow10 (9 - kept.length), rest.drop digits.length)
  | rest => some (0, rest)

/-- What may part date and time. -/
inductive Separator
  | blanks
  | letter

/-- Reads the separator. -/
def Separator.read : Separator → Reader Unit
  | .blanks, cs => some ((), trimFront cs)
  | .letter, cs => readMark 'T' cs

/-- Reads a whole text with the given separator. -/
def readWith (separator : Separator) (text : String) : Option Timestamp := do
  let (year, cs) ← readYear text.toList
  let (_, cs) ← readMark '-' cs
  let (month, cs) ← readPair cs
  let (_, cs) ← readMark '-' cs
  let (day, cs) ← readPair cs
  let (_, cs) ← separator.read cs
  let (hour, cs) ← readPair cs
  let (_, cs) ← readMark ':' cs
  let (minute, cs) ← readPair cs
  let (_, cs) ← readMark ':' cs
  let (second, cs) ← readPair cs
  let (nano, cs) ← readFraction cs
  if !cs.isEmpty then none
  else if second = 60 then ofParts? ⟨year, month, day, hour, minute, 59, nano + 1000000000⟩
  else ofParts? ⟨year, month, day, hour, minute, second, nano⟩

/-- Reads a text: first with white space between date and time, then with the letter. -/
def read? (text : String) : Option Timestamp :=
  readWith .blanks text <|> readWith .letter text

end Timestamp

end SqlClient
