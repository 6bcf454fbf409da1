import Mathlib.Data.List.Basic
import Mathlib.Tactic.Ring
import SqlClient.Postgres.Column
import SqlClient.Proofs.Number.BigEndian
import SqlClient.Proofs.Timestamp.Order
/-!
# PostgreSQL — times that read back

A timestamp is bound as a count of microseconds, and a date as one of days, from the beginning of the
year 2000. Every timestamp has such counts, the first within 64 bits with a tenth of their range to
spare (`fitting_micros`). A column gives the count back as the timestamp that it is the count of: the
one that was bound, cut off to whole microseconds toward the year 2000 (`cutToward_of_micros`), or the
midnight before it.
-/

namespace SqlClient

namespace Postgres

variable {t u r : Timestamp}

/-- What a column of a type shows of a value that was bound to a parameter of that type. -/
def readBack (type : PgType) (v : Value) : Option Value := (bindChecked v type).bind (readColumn type)

/-! ## Integers of a width -/

section Fitting

variable {width : Nat} {i : Int} {bytes : List UInt8}

theorem fitting_eq_some_iff : fitting width i = some bytes ↔
    (-(pow256 width : Int) ≤ 2 * i ∧ 2 * i < pow256 width) ∧ BigEndian.ofInt width i = bytes := by
  rw [fitting]
  split
  case isTrue h => simp [h]
  case isFalse h => simp [h]

theorem sized_of_fitting (h : fitting width i = some bytes) : sized width bytes = some bytes := by
  obtain ⟨-, rfl⟩ := fitting_eq_some_iff.1 h
  exact if_pos (BigEndian.length_ofInt width i)

theorem toInt_of_fitting (h : fitting width i = some bytes) : BigEndian.toInt bytes = i := by
  obtain ⟨⟨hleast, hgreatest⟩, rfl⟩ := fitting_eq_some_iff.1 h
  exact BigEndian.toInt_ofInt hleast hgreatest

end Fitting

/-! ## Nanoseconds since 2000 -/

/-- The first moment of the year 2000. -/
def epoch : Timestamp := ⟨⟨2000, 1, 1, 0, 0, 0, 0⟩, by decide⟩

theorem epochDay_eq : epochDay = 730119 := by decide

theorem nanosSinceEpoch_eq (t : Timestamp) :
    nanosSinceEpoch t = (t.dayNumber - 730119) * 86400000000000 + t.nanoOfDay := by
  rw [nanosSinceEpoch, epochDay_eq, dayNanos, Timestamp.nanoOfDay]
  push_cast
  ring

theorem nanosSinceEpoch_epoch : nanosSinceEpoch epoch = 0 := by decide

/-- Time goes on, but for leap seconds. -/
theorem nanosSinceEpoch_lt (ht : ¬ t.IsLeapSecond) (h : t < u) :
    nanosSinceEpoch t < nanosSinceEpoch u := by
  have hpassed := Timestamp.nanoOfDay_lt ht
  have hday := Timestamp.day_lt_or_of_lt ht h
  rw [nanosSinceEpoch_eq, nanosSinceEpoch_eq]
  omega

theorem nanosSinceEpoch_le_iff (ht : ¬ t.IsLeapSecond) (hu : ¬ u.IsLeapSecond) :
    nanosSinceEpoch t ≤ nanosSinceEpoch u ↔ t ≤ u := by
  rcases Timestamp.lt_or_eq_or_gt t u with h | rfl | h
  · exact iff_of_true (nanosSinceEpoch_lt ht h).le h.le
  · exact iff_of_true le_rfl le_rfl
  · exact iff_of_false (nanosSinceEpoch_lt hu h).not_ge h.not_ge

/-- A timestamp is whole if its count of nanoseconds is one of microseconds. -/
theorem micros_iff (t : Timestamp) : t.nano % 1000 = 0 ↔ nanosSinceEpoch t % 1000 = 0 := by
  rw [nanosSinceEpoch_eq, Timestamp.nanoOfDay]
  omega

/-! ## Counts and their ranges -/

/-- Microseconds are nanoseconds cut off toward zero. -/
theorem microsSinceEpoch_spec (t : Timestamp) :
    (0 ≤ nanosSinceEpoch t → 0 ≤ microsSinceEpoch t ∧
      1000 * microsSinceEpoch t ≤ nanosSinceEpoch t ∧
      nanosSinceEpoch t < 1000 * microsSinceEpoch t + 1000) ∧
    (nanosSinceEpoch t ≤ 0 → microsSinceEpoch t ≤ 0 ∧
      nanosSinceEpoch t ≤ 1000 * microsSinceEpoch t ∧
      1000 * microsSinceEpoch t < nanosSinceEpoch t + 1000) := by
  rw [microsSinceEpoch, Int.tdiv_eq_ediv]
  split
  case isTrue h => omega
  case isFalse h =>
    have hsign : (1000 : Int).sign = 1 := rfl
    rw [hsign]
    omega

/-- **The microseconds of every timestamp fit 64 bits**, with a tenth of their range to spare. -/
theorem microsSinceEpoch_mem (t : Timestamp) :
    -9223372036854775808 ≤ microsSinceEpoch t ∧ microsSinceEpoch t < 9223372036854775808 := by
  have hmicros := microsSinceEpoch_spec t
  have hday := t.dayNumber_mem
  obtain ⟨-, -, -, -, -, -, hhour, hminute, hsecond, hnano, -⟩ := t.valid
  rw [nanosSinceEpoch_eq, Timestamp.nanoOfDay] at hmicros
  omega

theorem daysSinceEpoch_mem (t : Timestamp) :
    -2147483648 ≤ daysSinceEpoch t ∧ daysSinceEpoch t < 2147483648 := by
  have hday := t.dayNumber_mem
  rw [daysSinceEpoch, epochDay_eq]
  omega

theorem fitting_micros (t : Timestamp) :
    fitting 8 (microsSinceEpoch t) = some (BigEndian.ofInt 8 (microsSinceEpoch t)) := by
  have hmem := microsSinceEpoch_mem t
  have hpow : (pow256 8 : Int) = 18446744073709551616 := rfl
  exact fitting_eq_some_iff.2 ⟨by omega, rfl⟩

theorem fitting_days (t : Timestamp) :
    fitting 4 (daysSinceEpoch t) = some (BigEndian.ofInt 4 (daysSinceEpoch t)) := by
  have hmem := daysSinceEpoch_mem t
  have hpow : (pow256 4 : Int) = 4294967296 := rfl
  exact fitting_eq_some_iff.2 ⟨by omega, rfl⟩

/-! ## Binding -/

theorem bindTimestamp_date (t : Timestamp) :
    bindTimestamp t .date = .ok (BigEndian.ofInt 4 (daysSinceEpoch t)) := by
  simp only [bindTimestamp, if_pos, fitting_days]

theorem bindTimestamp_of_ne {type : PgType} (t : Timestamp) (htype : type ≠ .date) :
    bindTimestamp t type = .ok (BigEndian.ofInt 8 (microsSinceEpoch t)) := by
  simp only [bindTimestamp, if_neg htype, fitting_micros]

theorem bindChecked_date (t : Timestamp) :
    bindChecked (.timestamp t) .date = some (some (BigEndian.ofInt 4 (daysSinceEpoch t))) := by
  rw [bindChecked, bind, bindTimestamp_date]
  rfl

/-- **Timestamps are bound to every other type that is accepted.** -/
theorem bindChecked_timestamp {type : PgType} (t : Timestamp) (htype : type ≠ .date)
    (haccepted : type.isAccepted = true) :
    bindChecked (.timestamp t) type = some (some (BigEndian.ofInt 8 (microsSinceEpoch t))) := by
  rw [bindChecked, if_pos haccepted, bind, bindTimestamp_of_ne t htype]
  rfl

/-! ## Reading -/

/-- **A column has the timestamp that its microseconds count to.** -/
theorem exists_timestampOfMicros {micros : Int} (hleast : -8335547913600000000 ≤ micros)
    (hgreatest : micros < 8209320192000000000) :
    ∃ r, timestampOfMicros micros = some r ∧ r.IsWhole ∧ nanosSinceEpoch r = 1000 * micros := by
  have hfirst : -95746130 ≤ epochDay + micros / 1000000 / 86400 := by
    rw [epochDay_eq]
    omega
  have hlast : epochDay + micros / 1000000 / 86400 < 95745399 := by
    rw [epochDay_eq]
    omega
  have hsecond : (micros / 1000000 % 86400).toNat < 86400 := by omega
  have hnano : (micros % 1000000).toNat * 1000 < 1000000000 := by omega
  obtain ⟨r, hr, hday, hclock, hnano'⟩ := Timestamp.exists_ofDayAndSecond hfirst hlast hsecond hnano
  refine ⟨r, hr, ⟨?_, ?_⟩, ?_⟩
  · rw [Timestamp.IsLeapSecond, hnano']
    omega
  · rw [hnano']
    omega
  · rw [nanosSinceEpoch_eq, Timestamp.nanoOfDay, hday, hclock, hnano', epochDay_eq]
    omega

/-- Without leap seconds the counts stay within the years that timestamps have. -/
theorem microsSinceEpoch_mem_years (ht : ¬ t.IsLeapSecond) :
    -8335547913600000000 ≤ microsSinceEpoch t ∧ microsSinceEpoch t < 8209320192000000000 := by
  have hmicros := microsSinceEpoch_spec t
  have hday := t.dayNumber_mem
  have hpassed := Timestamp.nanoOfDay_lt ht
  rw [nanosSinceEpoch_eq] at hmicros
  omega

/-- The types of points in time. -/
theorem timestampType_cases {type : PgType} (htype : type ∈ [PgType.timestamp, .timestamptz]) :
    type ≠ .date ∧ type.isAccepted = true ∧ ∀ bytes, readColumn type (some bytes) =
      (sized 8 bytes).bind fun bytes => (timestampOfMicros (BigEndian.toInt bytes)).map .timestamp := by
  rcases List.mem_pair.1 htype with rfl | rfl
  · exact ⟨by decide, rfl, fun _ => rfl⟩
  · exact ⟨by decide, rfl, fun _ => rfl⟩

theorem readBack_timestamp (ht : ¬ t.IsLeapSecond) :
    ∃ r, (∀ type ∈ [PgType.timestamp, .timestamptz],
        readBack type (.timestamp t) = some (.timestamp r)) ∧
      r.IsWhole ∧ nanosSinceEpoch r = 1000 * microsSinceEpoch t := by
  obtain ⟨hleast, hgreatest⟩ := microsSinceEpoch_mem_years ht
  obtain ⟨r, hr, hwhole, hnanos⟩ := exists_timestampOfMicros hleast hgreatest
  refine ⟨r, fun type htype => ?_, hwhole, hnanos⟩
  obtain ⟨hdate, haccepted, hread⟩ := timestampType_cases htype
  rw [readBack, bindChecked_timestamp t hdate haccepted, Option.bind_some, hread,
    sized_of_fitting (fitting_micros t), Option.bind_some, toInt_of_fitting (fitting_micros t), hr,
    Option.map_some]

theorem timestampOfDays_daysSinceEpoch (t : Timestamp) :
    timestampOfDays (daysSinceEpoch t) = some t.midnight := by
  have hday : epochDay + daysSinceEpoch t = t.dayNumber := by
    rw [daysSinceEpoch]
    omega
  rw [timestampOfDays, hday, Timestamp.ofDayAndSecond?, Timestamp.dayNumber,
    Calendar.ofDayNumber_dayNumber t.isDate]
  exact dif_pos t.midnight.valid

theorem readBack_date (t : Timestamp) :
    readBack .date (.timestamp t) = some (.timestamp t.midnight) := by
  have hread (bytes : List UInt8) : readColumn .date (some bytes) = (sized 4 bytes).bind fun bytes =>
    (timestampOfDays (BigEndian.toInt bytes)).map .timestamp := rfl
  rw [readBack, bindChecked_date, Option.bind_some, hread, sized_of_fitting (fitting_days t),
    Option.bind_some, toInt_of_fitting (fitting_days t), timestampOfDays_daysSinceEpoch,
    Option.map_some]

/-! ## What is read back -/

theorem regular_epoch : ¬ epoch.IsLeapSecond := by
  rw [Timestamp.IsLeapSecond]
  decide

/-- **What is left of a timestamp is cut off toward the year 2000.** -/
theorem cutToward_of_micros (ht : ¬ t.IsLeapSecond) (hr : r.IsWhole)
    (hnanos : nanosSinceEpoch r = 1000 * microsSinceEpoch t) : Timestamp.CutToward epoch t r := by
  have hmicros := microsSinceEpoch_spec t
  have hepoch := nanosSinceEpoch_epoch
  -- Timestamps compare as their counts of nanoseconds do, and whole ones have multiples of 1000.
  refine ⟨hr, ?_, fun s hs => ?_⟩
  · rw [← nanosSinceEpoch_le_iff regular_epoch hr.regular, ← nanosSinceEpoch_le_iff hr.regular ht,
      ← nanosSinceEpoch_le_iff ht hr.regular, ← nanosSinceEpoch_le_iff hr.regular regular_epoch]
    omega
  · have hmod := (micros_iff s).1 hs.micros
    rw [← nanosSinceEpoch_le_iff regular_epoch hs.regular, ← nanosSinceEpoch_le_iff hs.regular ht,
      ← nanosSinceEpoch_le_iff ht hs.regular, ← nanosSinceEpoch_le_iff hs.regular regular_epoch,
      ← nanosSinceEpoch_le_iff hs.regular hr.regular, ← nanosSinceEpoch_le_iff hr.regular hs.regular]
    omega

theorem microsSinceEpoch_mono (h : nanosSinceEpoch t ≤ nanosSinceEpoch u) :
    microsSinceEpoch t ≤ microsSinceEpoch u := by
  have ht := microsSinceEpoch_spec t
  have hu := microsSinceEpoch_spec u
  omega

/-- **Times are bound, and read back in their order.** Each timestamp is bound to the types of times,
its count within the bits of the format. A column has it back to the microsecond, cut off toward the
year 2000 and hence unchanged if it is whole, and as a date the midnight before it; and no earlier
timestamp is read back as a later one. -/
theorem times_read_back (t : Timestamp) :
    ((∀ type ∈ [PgType.timestamp, .timestamptz], bindChecked (.timestamp t) type =
        some (some (BigEndian.ofInt 8 (microsSinceEpoch t)))) ∧
      -9223372036854775808 ≤ microsSinceEpoch t ∧ microsSinceEpoch t ≤ 9223372036854775807) ∧
    (bindChecked (.timestamp t) .date = some (some (BigEndian.ofInt 4 (daysSinceEpoch t))) ∧
      -2147483648 ≤ daysSinceEpoch t ∧ daysSinceEpoch t ≤ 2147483647) ∧
    (¬ t.IsLeapSecond →
      (∃ r, (∀ type ∈ [PgType.timestamp, .timestamptz],
          readBack type (.timestamp t) = some (.timestamp r)) ∧
        Timestamp.CutToward epoch t r ∧ (t.nano % 1000 = 0 → r = t)) ∧
      readBack .date (.timestamp t) = some (.timestamp t.midnight) ∧
      ∀ u : Timestamp, ¬ u.IsLeapSecond → t ≤ u →
        ∀ type ∈ [PgType.timestamp, .timestamptz, .date],
          ∃ r s, readBack type (.timestamp t) = some (.timestamp r) ∧
            readBack type (.timestamp u) = some (.timestamp s) ∧ r ≤ s) := by
  have hmicros := microsSinceEpoch_mem t
  have hdays := daysSinceEpoch_mem t
  refine ⟨⟨fun type htype => ?_, by omega, by omega⟩, ⟨bindChecked_date t, by omega, by omega⟩,
    fun ht => ?_⟩
  · obtain ⟨hdate, haccepted, -⟩ := timestampType_cases htype
    exact bindChecked_timestamp t hdate haccepted
  obtain ⟨r, hr, hwhole, hnanos⟩ := readBack_timestamp ht
  have hcut := cutToward_of_micros ht hwhole hnanos
  refine ⟨⟨r, hr, hcut, fun hexact => hcut.eq_self ⟨ht, hexact⟩⟩, readBack_date t,
    fun u hu hle type htype => ?_⟩
  obtain ⟨s, hs, hwhole', hnanos'⟩ := readBack_timestamp hu
  -- both counts are cut off alike, so the order of the instants carries over to them
  have hcount := microsSinceEpoch_mono ((nanosSinceEpoch_le_iff ht hu).2 hle)
  have horder : r ≤ s := (nanosSinceEpoch_le_iff hwhole.regular hwhole'.regular).1 (by omega)
  rcases List.mem_cons.1 htype with rfl | htype
  · exact ⟨r, s, hr _ (by decide), hs _ (by decide), horder⟩
  rcases List.mem_pair.1 htype with rfl | rfl
  · exact ⟨r, s, hr _ (by decide), hs _ (by decide), horder⟩
  · exact ⟨_, _, readBack_date t, readBack_date u, Timestamp.midnight_mono hle⟩

/-- The last nanosecond before the year 2000. -/
def lastNano : Timestamp := ⟨⟨1999, 12, 31, 23, 59, 59, 999999999⟩, by decide⟩

/-- It is less than a microsecond before the year 2000, so it is cut off to the beginning of that. -/
theorem times_read_back_lastNano :
    ¬ lastNano.IsLeapSecond ∧ readBack .timestamptz (.timestamp lastNano) = some (.timestamp epoch) ∧
      Timestamp.CutToward epoch lastNano epoch := by
  have hregular : ¬ lastNano.IsLeapSecond := by
    rw [Timestamp.IsLeapSecond]
    decide
  have hread : readBack .timestamptz (.timestamp lastNano) = some (.timestamp epoch) := by decide
  obtain ⟨⟨r, hr, hcut, -⟩, -⟩ := (times_read_back lastNano).2.2 hregular
  have heq := (hr .timestamptz (by decide)).symm.trans hread
  rw [Option.some.injEq, Value.timestamp.injEq] at heq
  exact ⟨hregular, hread, heq ▸ hcut⟩

end Postgres

end SqlClient
