import SqlClient.Text.Integer
import SqlClient.Timestamp.Basic
/-!
# Timestamps — text

A timestamp is written as date, separator and time. Years from 0 to 9999 have four digits, others a
sign and at least four. The fraction is left out, or has three, six or nine digits: the fewest that
are exact. A leap second is written as second 60.
-/

namespace SqlClient

namespace Timestamp

/-- The digits of a year. -/
def yearText (year : Int) : String :=
  if 0 ≤ year ∧ year ≤ 9999 then padded 4 year.toNat
  else (if year < 0 then "-" else "+") ++ padded 4 year.natAbs

/-- The fraction of a second with its point. -/
def fractionText (nano : Nat) : String :=
  if nano == 0 then ""
  else if nano % 1000000 == 0 then "." ++ padded 3 (nano / 1000000)
  else if nano % 1000 == 0 then "." ++ padded 6 (nano / 1000)
  else "." ++ padded 9 nano

/-- The date. -/
def dateText (t : Timestamp) : String :=
  yearText t.year ++ "-" ++ padded 2 t.month ++ "-" ++ padded 2 t.day

/-- The time of day. -/
def timeText (t : Timestamp) : String :=
  padded 2 t.hour ++ ":" ++ padded 2 t.minute ++ ":" ++
    padded 2 (t.second + t.nano / 1000000000) ++ fractionText (t.nano % 1000000000)

/-- The text with a `T` between date and time, as JSON and messages have it. -/
def write (t : Timestamp) : String := t.dateText ++ "T" ++ t.timeText

/-- The text with a space between date and time. -/
def writeSpaced (t : Timestamp) : String := t.dateText ++ " " ++ t.timeText

end Timestamp

end SqlClient
