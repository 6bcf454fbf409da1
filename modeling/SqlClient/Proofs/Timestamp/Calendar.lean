import SqlClient.Timestamp.Basic
/-!
# Timestamps — dates and day numbers

The days of the calendar are numbered without gaps: the first day of a year comes right after the last
day of the year before, and so do months within a year. So of two dates the later has the greater
number (`dayNumber_lt`), and every number is that of the date that `ofDayNumber` finds
(`dayNumber_ofDayNumber`). The two together make dates and numbers the same (`ofDayNumber_dayNumber`).
-/

namespace SqlClient

namespace Calendar

variable {year year' : Int} {month month' day day' : Nat}

/-! ## Years -/

/-- The days of a year. -/
def daysInYear (year : Int) : Nat := if isLeap year then 366 else 365

/-- A year begins where the year before it ends. -/
theorem daysBeforeYear_succ (year : Int) :
    daysBeforeYear (year + 1) = daysBeforeYear year + daysInYear year := by
  have hleap : isLeap year = true ↔ year % 4 = 0 ∧ (year % 100 ≠ 0 ∨ year % 400 = 0) := by
    simp [isLeap]
  rw [daysInYear]
  simp only [daysBeforeYear]
  split
  case isTrue h =>
    have := hleap.1 h
    omega
  case isFalse h =>
    have := mt hleap.2 h
    omega

theorem daysBeforeYear_mono (h : year ≤ year') : daysBeforeYear year ≤ daysBeforeYear year' := by
  simp only [daysBeforeYear]
  omega

section Cycles

variable {q c s y : Int}

/-- The first day of a year, by its place in the 400 years that repeat: their century, the span of
four years and the year in it. -/
theorem daysBeforeYear_cycle (hc : 0 ≤ c ∧ c ≤ 3) (hs : 0 ≤ s ∧ s ≤ 24) (hy : 0 ≤ y ∧ y ≤ 3) :
    daysBeforeYear (400 * q + 100 * c + 4 * s + y + 1) = 146097 * q + 36524 * c + 1461 * s + 365 * y := by
  have hfour : (400 * q + 100 * c + 4 * s + y) / 4 = 100 * q + 25 * c + s := by omega
  have hhundred : (400 * q + 100 * c + 4 * s + y) / 100 = 4 * q + c := by omega
  have hcycle : (400 * q + 100 * c + 4 * s + y) / 400 = q := by omega
  simp only [daysBeforeYear, Int.add_sub_cancel, hfour, hhundred, hcycle]
  omega

/-- The year after it begins at most a day later than 365 days after, which is where its span, its
century or its cycle ends. -/
theorem lt_daysBeforeYear_cycle {n : Int} (hc : 0 ≤ c ∧ c ≤ 3) (hs : 0 ≤ s ∧ s ≤ 24)
    (hy : 0 ≤ y ∧ y ≤ 3) (hcycle : n < 146097 * (q + 1))
    (hcentury : c < 3 → n < 146097 * q + 36524 * (c + 1))
    (hspan : n < 146097 * q + 36524 * c + 1461 * (s + 1))
    (hyear : y < 3 → n < 146097 * q + 36524 * c + 1461 * s + 365 * (y + 1)) :
    n < daysBeforeYear (400 * q + 100 * c + 4 * s + y + 1 + 1) := by
  rcases Int.lt_or_le y 3 with hy' | hy'
  · rw [show 400 * q + 100 * c + 4 * s + y + 1 + 1 = 400 * q + 100 * c + 4 * s + (y + 1) + 1 by omega,
      daysBeforeYear_cycle hc hs (by omega)]
    exact hyear hy'
  rcases Int.lt_or_le s 24 with hs' | hs'
  · rw [show 400 * q + 100 * c + 4 * s + y + 1 + 1 = 400 * q + 100 * c + 4 * (s + 1) + 0 + 1 by omega,
      daysBeforeYear_cycle hc (by omega) (by decide)]
    omega
  rcases Int.lt_or_le c 3 with hc' | hc'
  · rw [show 400 * q + 100 * c + 4 * s + y + 1 + 1 = 400 * q + 100 * (c + 1) + 4 * 0 + 0 + 1 by omega,
      daysBeforeYear_cycle (by omega) (by decide) (by decide)]
    have := hcentury hc'
    omega
  · rw [show 400 * q + 100 * c + 4 * s + y + 1 + 1 = 400 * (q + 1) + 100 * 0 + 4 * 0 + 0 + 1 by omega,
      daysBeforeYear_cycle (by decide) (by decide) (by decide)]
    simpa using hcycle

end Cycles

/-- **Every day falls in the year that is found for it.** -/
theorem yearOf_spec (n : Int) :
    daysBeforeYear (yearOf n) ≤ n ∧ n < daysBeforeYear (yearOf n + 1) := by
  -- With names for the four counts, all that is left of the divisions is linear.
  generalize hq : n / 146097 = q
  generalize hc : min (n % 146097 / 36524) 3 = c
  generalize hs : (n % 146097 - c * 36524) / 1461 = s
  generalize hy : min ((n % 146097 - c * 36524) % 1461 / 365) 3 = y
  have hyear : yearOf n = 400 * q + 100 * c + 4 * s + y + 1 := by
    rw [← hy, ← hs, ← hc, ← hq]
    rfl
  have hc' : 0 ≤ c ∧ c ≤ 3 := by omega
  have hs' : 0 ≤ s ∧ s ≤ 24 := by omega
  have hy' : 0 ≤ y ∧ y ≤ 3 := by omega
  rw [hyear]
  constructor
  · rw [daysBeforeYear_cycle hc' hs' hy']
    omega
  · refine lt_daysBeforeYear_cycle hc' hs' hy' ?_ ?_ ?_ ?_ <;> omega

/-! ## Months -/

theorem daysInMonth_le (year : Int) (month : Nat) : daysInMonth year month ≤ 31 := by
  unfold daysInMonth
  split
  · split <;> decide
  all_goals decide

theorem daysBeforeMonth_succ (year : Int) (hmonth : 1 ≤ month) :
    daysBeforeMonth year (month + 1) = daysBeforeMonth year month + daysInMonth year month := by
  obtain ⟨month, rfl⟩ : ∃ m, month = m + 1 := ⟨month - 1, by omega⟩
  rfl

theorem daysBeforeMonth_mono (year : Int) (h : month ≤ month') :
    daysBeforeMonth year month ≤ daysBeforeMonth year month' := by
  induction h with
  | refl => exact Nat.le_refl _
  | @step m h ih =>
    rcases Nat.eq_zero_or_pos m with rfl | hm
    · exact ih
    · rw [daysBeforeMonth_succ year hm]
      exact Nat.le_add_right_of_le ih

/-- The months make up the year. -/
theorem daysBeforeMonth_thirteen (year : Int) : daysBeforeMonth year 13 = daysInYear year := by
  rw [daysInYear]
  simp only [daysBeforeMonth, daysInMonth]
  split <;> rfl

/-- **The month of a day is found** among those from `month` on, if it is there. -/
theorem monthOf_spec (year : Int) (fuel : Nat) {r : Nat} (hmonth : 1 ≤ month)
    (hr : daysBeforeMonth year month + r < daysBeforeMonth year (month + fuel + 1)) :
    ∃ m d, monthOf year fuel month r = (m, d + 1) ∧ month ≤ m ∧ m ≤ month + fuel ∧
      d < daysInMonth year m ∧ daysBeforeMonth year m + d = daysBeforeMonth year month + r := by
  induction fuel generalizing month r with
  | zero =>
    rw [Nat.add_zero, daysBeforeMonth_succ year hmonth] at hr
    exact ⟨month, r, rfl, Nat.le_refl _, Nat.le_refl _, by omega, rfl⟩
  | succ fuel ih =>
    rw [monthOf]
    split
    case isTrue hday => exact ⟨month, r, rfl, Nat.le_refl _, Nat.le_add_right _ _, hday, rfl⟩
    case isFalse hday =>
      -- The day is past this month: it is looked for in the months that are left.
      have hsucc := daysBeforeMonth_succ year hmonth
      have hr' : daysBeforeMonth year (month + 1) + (r - daysInMonth year month) <
          daysBeforeMonth year (month + 1 + fuel + 1) := by
        rw [show month + 1 + fuel + 1 = month + (fuel + 1) + 1 by omega]
        omega
      obtain ⟨m, d, hfound, hle, hge, hd, hsum⟩ := ih (Nat.le_add_left 1 month) hr'
      exact ⟨m, d, hfound, by omega, by omega, hd, by omega⟩

/-! ## Dates -/

/-- A date of the calendar. -/
structure IsDate (year : Int) (month day : Nat) : Prop where
  one_le_month : 1 ≤ month
  month_le : month ≤ 12
  one_le_day : 1 ≤ day
  day_le : day ≤ daysInMonth year month

/-- A date falls in its year. -/
theorem IsDate.mem_year (h : IsDate year month day) :
    daysBeforeYear year ≤ dayNumber year month day ∧
      dayNumber year month day < daysBeforeYear (year + 1) := by
  have hmonth := daysBeforeMonth_succ year h.one_le_month
  have hyear := daysBeforeMonth_mono year (show month + 1 ≤ 13 by have := h.month_le; omega)
  have hday := h.day_le
  have hfirst := h.one_le_day
  rw [daysBeforeMonth_thirteen] at hyear
  rw [daysBeforeYear_succ, dayNumber]
  omega

/-- **Later dates have greater numbers.** -/
theorem dayNumber_lt (h : IsDate year month day) (h' : IsDate year' month' day')
    (hlt : year < year' ∨ year = year' ∧ (month < month' ∨ month = month' ∧ day < day')) :
    dayNumber year month day < dayNumber year' month' day' := by
  rcases hlt with hyear | ⟨rfl, hmonth | ⟨rfl, hday⟩⟩
  · have hnext := daysBeforeYear_mono (show year + 1 ≤ year' by omega)
    have := h.mem_year
    have := h'.mem_year
    omega
  · have hsucc := daysBeforeMonth_succ year h.one_le_month
    have hnext := daysBeforeMonth_mono year (show month + 1 ≤ month' by omega)
    have := h.day_le
    have := h.one_le_day
    simp only [dayNumber]
    omega
  · have := h.one_le_day
    simp only [dayNumber]
    omega

/-- **The date that is found for a number has it.** -/
theorem dayNumber_ofDayNumber (n : Int) :
    ∃ year month day, ofDayNumber n = (year, month, day) ∧ IsDate year month day ∧
      dayNumber year month day = n := by
  obtain ⟨hle, hlt⟩ := yearOf_spec n
  have hfirst : daysBeforeMonth (yearOf n) 1 = 0 := rfl
  have hlast := daysBeforeMonth_thirteen (yearOf n)
  rw [daysBeforeYear_succ] at hlt
  have hr : daysBeforeMonth (yearOf n) 1 + (n - daysBeforeYear (yearOf n)).toNat <
      daysBeforeMonth (yearOf n) 13 := by omega
  obtain ⟨m, d, hfound, hm, hm', hd, hsum⟩ := monthOf_spec (yearOf n) 11 (Nat.le_refl 1) hr
  refine ⟨yearOf n, m, d + 1, ?_, ⟨hm, hm', Nat.le_add_left _ _, hd⟩, ?_⟩
  · rw [ofDayNumber, hfound]
  · rw [dayNumber]
    omega

/-- **And the number of a date finds it again.** -/
theorem ofDayNumber_dayNumber (h : IsDate year month day) :
    ofDayNumber (dayNumber year month day) = (year, month, day) := by
  obtain ⟨year', month', day', hfound, h', hnumber⟩ :=
    dayNumber_ofDayNumber (dayNumber year month day)
  -- Neither date is the later one, since both have this number.
  have hlater := mt (dayNumber_lt h h') (by omega)
  have hearlier := mt (dayNumber_lt h' h) (by omega)
  obtain ⟨rfl, rfl, rfl⟩ : year = year' ∧ month = month' ∧ day = day' := by omega
  exact hfound

end Calendar

/-! ## Timestamps -/

namespace Timestamp

theorem isDate (t : Timestamp) : Calendar.IsDate t.year t.month t.day := by
  obtain ⟨-, -, hmonth, hmonth', hday, hday', -⟩ := t.valid
  exact ⟨hmonth, hmonth', hday, hday'⟩

theorem daysBeforeYear_leastYear : Calendar.daysBeforeYear Calendar.leastYear = -95746130 := by decide

theorem daysBeforeYear_greatestYear :
    Calendar.daysBeforeYear (Calendar.greatestYear + 1) = 95745399 := by decide

/-- The days of the years that timestamps have. -/
theorem dayNumber_mem (t : Timestamp) : -95746130 ≤ t.dayNumber ∧ t.dayNumber < 95745399 := by
  obtain ⟨hleast, hgreatest, -⟩ := t.valid
  have hfirst := Calendar.daysBeforeYear_mono hleast
  have hlast := Calendar.daysBeforeYear_mono (show t.year + 1 ≤ Calendar.greatestYear + 1 by omega)
  rw [daysBeforeYear_leastYear] at hfirst
  rw [daysBeforeYear_greatestYear] at hlast
  have := t.isDate.mem_year
  rw [dayNumber]
  omega

/-- **Each of these days has each of its seconds.** -/
theorem exists_ofDayAndSecond {day : Int} {second nano : Nat} (hleast : -95746130 ≤ day)
    (hgreatest : day < 95745399) (hsecond : second < 86400) (hnano : nano < 1000000000) :
    ∃ t, ofDayAndSecond? day second nano = some t ∧ t.dayNumber = day ∧
      t.hour * 3600 + t.minute * 60 + t.second = second ∧ t.nano = nano := by
  obtain ⟨year, month, dayOfMonth, hfound, hdate, hnumber⟩ := Calendar.dayNumber_ofDayNumber day
  have hyear := hdate.mem_year
  have hfirst : Calendar.leastYear ≤ year := by
    refine Int.not_lt.1 fun hlt => ?_
    have := Calendar.daysBeforeYear_mono (show year + 1 ≤ Calendar.leastYear from hlt)
    rw [daysBeforeYear_leastYear] at this
    omega
  have hlast : year ≤ Calendar.greatestYear := by
    refine Int.not_lt.1 fun hlt => ?_
    have := Calendar.daysBeforeYear_mono (show Calendar.greatestYear + 1 ≤ year from hlt)
    rw [daysBeforeYear_greatestYear] at this
    omega
  have hvalid : CivilParts.Valid ⟨year, month, dayOfMonth, second / 3600, second / 60 % 60,
      second % 60, nano⟩ :=
    ⟨hfirst, hlast, hdate.one_le_month, hdate.month_le, hdate.one_le_day, hdate.day_le,
      show second / 3600 < 24 by omega, Nat.mod_lt _ (by decide), Nat.mod_lt _ (by decide),
      show nano < 2000000000 by omega, fun hle => absurd hnano (Nat.not_lt.2 hle)⟩
  refine ⟨⟨_, hvalid⟩, ?_, hnumber, show second / 3600 * 3600 + second / 60 % 60 * 60 +
    second % 60 = second by omega, rfl⟩
  rw [ofDayAndSecond?, hfound]
  exact dif_pos hvalid

end Timestamp

end SqlClient
