/-!
# Timestamps — the civil calendar

A date and a time of day without a zone, to the nanosecond, in the proleptic Gregorian calendar. A
leap second is written as second 59 with a billion nanoseconds or more.

Days are counted from the first of January of the year 1.
-/

namespace SqlClient

/-! ## The calendar -/

namespace Calendar

/-- Whether a year has 366 days. -/
def isLeap (year : Int) : Bool := year % 4 == 0 && (year % 100 != 0 || year % 400 == 0)

/-- The days of a month. -/
def daysInMonth (year : Int) (month : Nat) : Nat :=
  match month with
  | 2 => if isLeap year then 29 else 28
  | 4 | 6 | 9 | 11 => 30
  | _ => 31

/-- Days from the epoch to the first of January of a year. -/
def daysBeforeYear (year : Int) : Int :=
  let y := year - 1
  365 * y + y / 4 - y / 100 + y / 400

/-- Days of the year before a month. -/
def daysBeforeMonth (year : Int) : Nat → Nat
  | 0 => 0
  | 1 => 0
  | month + 1 => daysBeforeMonth year month + daysInMonth year month

/-- Days from the epoch to a date. -/
def dayNumber (year : Int) (month day : Nat) : Int :=
  daysBeforeYear year + daysBeforeMonth year month + (day - 1 : Nat)

/-- The year that a day falls in. Every 400 years repeat; of their four centuries only the last has
a leap year at its end, and likewise for the years of a four-year span. -/
def yearOf (n : Int) : Int :=
  let r := n % 146097
  let century := min (r / 36524) 3
  let r := r - century * 36524
  let span := r / 1461
  let r := r % 1461
  400 * (n / 146097) + 100 * century + 4 * span + min (r / 365) 3 + 1

/-- The month and day of a zero-based day of the year, searched from `month` on. -/
def monthOf (year : Int) : Nat → Nat → Nat → Nat × Nat
  | 0, month, r => (month, r + 1)
  | fuel + 1, month, r =>
    if r < daysInMonth year month then (month, r + 1)
    else monthOf year fuel (month + 1) (r - daysInMonth year month)

/-- Year, month and day of a day number. -/
def ofDayNumber (n : Int) : Int × Nat × Nat :=
  let year := yearOf n
  let (month, day) := monthOf year 11 1 (n - daysBeforeYear year).toNat
  (year, month, day)

/-- The years that a timestamp can hold. -/
def leastYear : Int := -262143

@[inherit_doc leastYear]
def greatestYear : Int := 262142

end Calendar

/-! ## Timestamps -/

/-- The seven parts of a date and time, whatever their values. -/
structure CivilParts where
  year : Int
  month : Nat
  day : Nat
  hour : Nat
  minute : Nat
  second : Nat
  nano : Nat
deriving DecidableEq, Repr

/-- Parts that are a point in time: a year in range, a date of the calendar, a time of day, and a
leap second only as second 59. -/
def CivilParts.Valid (p : CivilParts) : Prop :=
  Calendar.leastYear ≤ p.year ∧ p.year ≤ Calendar.greatestYear ∧
  1 ≤ p.month ∧ p.month ≤ 12 ∧ 1 ≤ p.day ∧ p.day ≤ Calendar.daysInMonth p.year p.month ∧
  p.hour < 24 ∧ p.minute < 60 ∧ p.second < 60 ∧ p.nano < 2000000000 ∧
  (1000000000 ≤ p.nano → p.second = 59)

instance (p : CivilParts) : Decidable p.Valid := by
  unfold CivilParts.Valid; infer_instance

/-- A point in civil time. -/
structure Timestamp extends CivilParts where
  valid : toCivilParts.Valid
deriving DecidableEq

namespace Timestamp

/-- The timestamp with the given parts, if they are one. -/
def ofParts? (p : CivilParts) : Option Timestamp :=
  if h : p.Valid then some ⟨p, h⟩ else none

/-- Days from the epoch to the timestamp's date. -/
def dayNumber (t : Timestamp) : Int := Calendar.dayNumber t.year t.month t.day

/-- The timestamp at a second of a day; `none` outside the years that can be held. -/
def ofDayAndSecond? (day : Int) (secondOfDay nano : Nat) : Option Timestamp :=
  let (year, month, dayOfMonth) := Calendar.ofDayNumber day
  ofParts? ⟨year, month, dayOfMonth, secondOfDay / 3600, secondOfDay / 60 % 60, secondOfDay % 60,
    nano⟩

end Timestamp

end SqlClient
