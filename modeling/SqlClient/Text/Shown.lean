import SqlClient.Unicode.Classes
/-!
# Text — hexadecimal and shown strings

Two ways of writing text into messages: bytes as pairs of hexadecimal digits, and strings between
double quotes with escapes for everything that would not show.
-/

namespace SqlClient

/-- A hexadecimal digit, in small letters. -/
def hexDigit (n : Nat) : Char :=
  if n < 10 then Char.ofNat ('0'.toNat + n) else Char.ofNat ('a'.toNat + (n - 10))

/-- A number in exactly `width` hexadecimal digits. -/
def hexDigits : Nat → Nat → List Char
  | 0, _ => []
  | width + 1, n => hexDigits width (n / 16) ++ [hexDigit (n % 16)]

/-- A number in hexadecimal without leading zeros. -/
def hexText (n : Nat) : String :=
  String.ofList (hexDigits (max 1 ((n.log2 / 4) + 1)) n)

/-- One character between double quotes. Tab, carriage return, line feed, NUL, the quote and the
backslash have short escapes; other characters that do not show are written by code point. -/
def shownChar (c : Char) : List Char :=
  if c = '\x00' then ['\\', '0']
  else if c = '\t' then ['\\', 't']
  else if c = '\r' then ['\\', 'r']
  else if c = '\n' then ['\\', 'n']
  else if c = '\\' then ['\\', '\\']
  else if c = '"' then ['\\', '"']
  else if Unicode.isShown c then [c]
  else ("\\u\x7b" ++ hexText c.toNat ++ "\x7d").toList

/-- A string between double quotes, with escapes. -/
def shownText (s : String) : String :=
  "\"" ++ String.ofList (s.toList.flatMap shownChar) ++ "\""

end SqlClient
