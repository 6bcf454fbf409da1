import Mathlib.Order.RelClasses
import SqlClient.Proofs.Timestamp.Calendar
/-!
# Timestamps — earlier and later

Timestamps are ordered by the first of their parts that differs. A leap second is later than the
second that it is written with and earlier than the next. `CutToward` says by the order alone what
is left of a timestamp when its part below a microsecond is cut off.
-/

namespace SqlClient

namespace Timestamp

variable {t u r origin : Timestamp}

/-! ## The order -/

/-- Whether a timestamp is before another: by the first of their parts that differs. -/
def Earlier (t u : Timestamp) : Prop :=
  t.year < u.year ∨ t.year = u.year ∧ (t.month < u.month ∨
    t.month = u.month ∧ (t.day < u.day ∨ t.day = u.day ∧ (t.hour < u.hour ∨
      t.hour = u.hour ∧ (t.minute < u.minute ∨ t.minute = u.minute ∧ (t.second < u.second ∨
        t.second = u.second ∧ t.nano < u.nano)))))

instance : IsStrictOrder Timestamp Earlier where
  irrefl t h := by
    rw [Earlier] at h
    omega
  trans t u r h h' := by
    rw [Earlier] at h h' ⊢
    omega

instance : PartialOrder Timestamp := partialOrderOfSO Earlier

theorem lt_iff : t < u ↔ Earlier t u := Iff.rfl

/-- Of two timestamps one is the earlier. -/
theorem lt_or_eq_or_gt (t u : Timestamp) : t < u ∨ t = u ∨ u < t := by
  obtain ⟨⟨year, month, day, hour, minute, second, nano⟩, _⟩ := t
  obtain ⟨⟨year', month', day', hour', minute', second', nano'⟩, _⟩ := u
  simp only [lt_iff, Earlier, mk.injEq, CivilParts.mk.injEq]
  omega

/-! ## Kinds of timestamps -/

/-- A second that clocks insert. -/
def IsLeapSecond (t : Timestamp) : Prop := 1000000000 ≤ t.nano

/-- A timestamp with nothing below a microsecond. -/
structure IsWhole (t : Timestamp) : Prop where
  regular : ¬ t.IsLeapSecond
  micros : t.nano % 1000 = 0

/-- The beginning of the timestamp's day. -/
def midnight (t : Timestamp) : Timestamp where
  year := t.year
  month := t.month
  day := t.day
  hour := 0
  minute := 0
  second := 0
  nano := 0
  valid := by
    obtain ⟨hleast, hgreatest, hmonth, hmonth', hday, hday', -⟩ := t.valid
    have hclock : 0 < 24 ∧ 0 < 60 ∧ 0 < 60 ∧ 0 < 2000000000 ∧ (1000000000 ≤ 0 → 0 = 59) := by decide
    exact ⟨hleast, hgreatest, hmonth, hmonth', hday, hday', hclock⟩

theorem midnight_mono (h : t ≤ u) : t.midnight ≤ u.midnight := by
  rcases lt_or_eq_of_le h with h | rfl
  · rw [lt_iff, Earlier] at h
    rcases lt_or_eq_or_gt t.midnight u.midnight with h' | h' | h'
    · exact le_of_lt h'
    · exact le_of_eq h'
    · rw [lt_iff, Earlier] at h'
      simp only [midnight] at h'
      omega
  · exact le_refl _

/-- `r` is `t` with its part below a microsecond cut off toward `origin`: of the whole timestamps
from `origin` to `t` the one next to `t`. -/
structure CutToward (origin t r : Timestamp) : Prop where
  whole : r.IsWhole
  between : origin ≤ r ∧ r ≤ t ∨ t ≤ r ∧ r ≤ origin
  next : ∀ s : Timestamp, s.IsWhole →
    (origin ≤ s → s ≤ t → s ≤ r) ∧ (t ≤ s → s ≤ origin → r ≤ s)

/-- Where nothing is to be cut off, nothing changes. -/
theorem CutToward.eq_self (h : CutToward origin t r) (ht : t.IsWhole) : r = t := by
  obtain ⟨hup, hdown⟩ := h.next t ht
  rcases h.between with ⟨horigin, hle⟩ | ⟨hge, horigin⟩
  · exact le_antisymm hle (hup (horigin.trans hle) le_rfl)
  · exact le_antisymm (hdown le_rfl (hge.trans horigin)) hge

/-! ## Dates -/

/-- The nanoseconds since midnight. -/
def nanoOfDay (t : Timestamp) : Nat := (t.hour * 3600 + t.minute * 60 + t.second) * 1000000000 + t.nano

theorem nanoOfDay_lt (ht : ¬ t.IsLeapSecond) : t.nanoOfDay < 86400000000000 := by
  obtain ⟨-, -, -, -, -, -, hhour, hminute, hsecond, -⟩ := t.valid
  rw [IsLeapSecond] at ht
  rw [nanoOfDay]
  omega

/-- **The later of two timestamps has the later day**, or the same day and then more of it has
passed. -/
theorem day_lt_or_of_lt (ht : ¬ t.IsLeapSecond) (h : t < u) :
    t.dayNumber < u.dayNumber ∨ t.dayNumber = u.dayNumber ∧ t.nanoOfDay < u.nanoOfDay := by
  have hdate := Calendar.dayNumber_lt t.isDate u.isDate
  obtain ⟨-, -, -, -, -, -, hhour, hminute, hsecond, -⟩ := t.valid
  rw [IsLeapSecond] at ht
  rw [lt_iff, Earlier] at h
  by_cases hsame : t.year = u.year ∧ t.month = u.month ∧ t.day = u.day
  · obtain ⟨hyear, hmonth, hday⟩ := hsame
    refine .inr ⟨by rw [dayNumber, dayNumber, hyear, hmonth, hday], ?_⟩
    rw [nanoOfDay, nanoOfDay]
    omega
  · exact .inl (hdate (by omega))

end Timestamp

end SqlClient
