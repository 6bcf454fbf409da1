import SqlClient.Proofs.Text.Digits
import SqlClient.Proofs.Timestamp.Calendar
import SqlClient.Sqlite.Storage
/-!
# Timestamps — what was written reads back

Every number of a written timestamp ends where a mark stands, or has all the digits that its reader
takes, so each reader stops where its part ends. The year may have more digits than four, but then it
has a sign; a leap second is written as second 60, from which the reader tells it (`read?_write`,
`read?_writeSpaced`). The reader tries a space between date and time before it tries a letter. That
does no harm: what it takes for white space never is a letter, and no time begins with one
(`readWith_blanks_write`).
-/

namespace SqlClient

namespace Timestamp

/-! ## Digits -/

section Digits

variable {width n : Nat} {ds rest : List Char}

theorem digitsToNat_padded (width n : Nat) : digitsToNat (padded width n).toList = n := by
  have hfold : (fun (n : Nat) (c : Char) => n * 10 + (c.toNat - '0'.toNat)) =
      fun n c => 10 * n + (c.toNat - '0'.toNat) := by
    funext n c
    rw [Nat.mul_comm]
  rw [digitsToNat, hfold, ← Nat.ofDigitChars_eq_foldl, ofDigitChars_padded]

/-- Digits are read to their end, which is where the width or another character puts it. -/
theorem readDigits_append (hne : ds ≠ []) (hds : ∀ c ∈ ds, c.isDigit = true)
    (hwidth : ds.length ≤ width)
    (hrest : ds.length = width ∨ ∀ c ∈ rest.head?, c.isDigit = false) :
    readDigits width (ds ++ rest) = some (digitsToNat ds, rest) := by
  have hend : (rest.take (width - ds.length)).takeWhile Char.isDigit = [] := by
    rcases hrest with hrest | hrest
    · rw [hrest, Nat.sub_self, List.take_zero, List.takeWhile_nil]
    · cases rest with
      | nil => rw [List.take_nil, List.takeWhile_nil]
      | cons c rest =>
        cases width - ds.length with
        | zero => rw [List.take_zero, List.takeWhile_nil]
        | succ k => rw [List.take_succ_cons, List.takeWhile_cons_of_neg (by simp [hrest c rfl])]
  have hdigits : ((ds ++ rest).take width).takeWhile Char.isDigit = ds := by
    rw [List.take_append, List.take_of_length_le hwidth, List.takeWhile_append_of_pos hds, hend,
      List.append_nil]
  have hnonempty : ds.isEmpty = false := by simpa using hne
  rw [readDigits, hdigits, hnonempty, List.drop_left]
  rfl

/-- No white space stands before digits. -/
theorem trimFront_append (hne : ds ≠ []) (hds : ∀ c ∈ ds, c.isDigit = true) :
    trimFront (ds ++ rest) = ds ++ rest := by
  obtain ⟨d, ds, rfl⟩ := List.exists_cons_of_ne_nil hne
  rw [trimFront, List.cons_append, List.dropWhile_cons_of_neg]
  simp [isBlank_of_isDigit (hds d (.head _))]

theorem readPair_padded (hn : n < 100) (rest : List Char) :
    readPair ((padded 2 n).toList ++ rest) = some (n, rest) := by
  have hlength : (padded 2 n).toList.length = 2 := length_padded (by decide) hn
  have hds : ∀ c ∈ (padded 2 n).toList, c.isDigit = true := fun _ hc => isDigit_padded hc
  rw [readPair, trimFront_append (padded_ne_nil 2 n) hds,
    readDigits_append (padded_ne_nil 2 n) hds (Nat.le_of_eq hlength) (.inl hlength), digitsToNat_padded]

end Digits

/-! ## Years -/

/-- A year with a sign is read as far as its digits go. -/
theorem readDigits_signed (n : Nat) (rest : List Char) :
    readDigits ((padded 4 n).toList ++ '-' :: rest).length ((padded 4 n).toList ++ '-' :: rest) =
      some (n, '-' :: rest) := by
  rw [readDigits_append (padded_ne_nil 4 n) (fun _ hc => isDigit_padded hc), digitsToNat_padded]
  · rw [List.length_append]
    exact Nat.le_add_right _ _
  · right
    rintro _ ⟨⟩
    rfl

/-- A text that begins with a digit has no sign. -/
theorem readYear_unsigned {ds rest : List Char} (hne : ds ≠ []) (hds : ∀ c ∈ ds, c.isDigit = true) :
    readYear (ds ++ rest) = (readDigits 4 (ds ++ rest)).map fun (n, rest) => ((n : Int), rest) := by
  rw [readYear, trimFront_append hne hds]
  obtain ⟨d, ds, rfl⟩ := List.exists_cons_of_ne_nil hne
  have hd : d.isDigit = true := hds d (.head _)
  split
  case h_1 h =>
    rw [(List.cons.inj h).1] at hd
    cases hd
  case h_2 h =>
    rw [(List.cons.inj h).1] at hd
    cases hd
  case h_3 => rfl

/-- **A year is read up to the mark behind it**, whatever its sign and the number of its digits. -/
theorem readYear_yearText (year : Int) (rest : List Char) :
    readYear ((yearText year).toList ++ '-' :: rest) = some (year, '-' :: rest) := by
  rw [yearText]
  split
  case isTrue hyear =>
    -- Without a sign there are four digits, and the reader stops after them by itself.
    have hlength : (padded 4 year.toNat).toList.length = 4 :=
      length_padded (by decide) (show year.toNat < 10000 by omega)
    have hds : ∀ c ∈ (padded 4 year.toNat).toList, c.isDigit = true := fun _ hc => isDigit_padded hc
    rw [readYear_unsigned (padded_ne_nil 4 _) hds,
      readDigits_append (padded_ne_nil 4 _) hds (Nat.le_of_eq hlength) (.inl hlength), digitsToNat_padded]
    exact congrArg (fun y => some (y, '-' :: rest)) (Int.toNat_of_nonneg hyear.1)
  case isFalse hyear =>
    -- Behind a sign it takes what digits there are, so the mark has to stop it.
    rw [String.toList_append, List.append_assoc]
    generalize htail : (padded 4 year.natAbs).toList ++ '-' :: rest = tail
    have hread : readDigits tail.length tail = some (year.natAbs, '-' :: rest) :=
      htail ▸ readDigits_signed year.natAbs rest
    split
    case isTrue hneg =>
      have hvalue : -(year.natAbs : Int) = year := by omega
      change (readDigits tail.length tail).map _ = _
      rw [hread]
      exact congrArg (fun y => some (y, '-' :: rest)) hvalue
    case isFalse hpos =>
      have hvalue : (year.natAbs : Int) = year := by omega
      change (readDigits tail.length tail).map _ = _
      rw [hread]
      exact congrArg (fun y => some (y, '-' :: rest)) hvalue

/-! ## Fractions -/

/-- So many digits of a fraction are enough if the rest of it is zero. -/
theorem readFraction_point (width nano : Nat) (hwidth : 0 < width) (hnine : width ≤ 9)
    (hexact : nano % pow10 (9 - width) = 0) (hnano : nano / pow10 (9 - width) < pow10 width) :
    readFraction ("." ++ padded width (nano / pow10 (9 - width))).toList = some (nano, []) := by
  generalize hdigits : (padded width (nano / pow10 (9 - width))).toList = digits
  have hlength : digits.length = width := hdigits ▸ length_padded hwidth hnano
  have hvalue : digitsToNat digits = nano / pow10 (9 - width) := hdigits ▸ digitsToNat_padded _ _
  have htake : digits.takeWhile Char.isDigit = digits := by
    rw [← List.append_nil digits, List.takeWhile_append_of_pos, List.takeWhile_nil]
    exact fun c hc => isDigit_padded (hdigits ▸ hc)
  have hnonempty : digits.isEmpty = false := by
    simpa using hdigits ▸ padded_ne_nil width (nano / pow10 (9 - width))
  rw [String.toList_append, hdigits]
  change (if (digits.takeWhile Char.isDigit).isEmpty then none else
    some (digitsToNat ((digits.takeWhile Char.isDigit).take 9) *
      pow10 (9 - ((digits.takeWhile Char.isDigit).take 9).length),
      digits.drop (digits.takeWhile Char.isDigit).length)) = _
  rw [htake, List.take_of_length_le (by omega), hvalue, hlength,
    Nat.div_mul_cancel (Nat.dvd_of_mod_eq_zero hexact), List.drop_of_length_le (by omega), hnonempty]
  rfl

/-- **A fraction is read exactly**: only zeros are left out. -/
theorem readFraction_fractionText {nano : Nat} (hnano : nano < 1000000000) :
    readFraction (fractionText nano).toList = some (nano, []) := by
  rw [fractionText]
  split
  case isTrue h =>
    rw [beq_iff_eq] at h
    rw [h]
    rfl
  case isFalse =>
    split
    case isTrue h =>
      exact readFraction_point 3 nano (by decide) (by decide) (beq_iff_eq.1 h)
        (Nat.div_lt_of_lt_mul hnano)
    case isFalse =>
      split
      case isTrue h =>
        exact readFraction_point 6 nano (by decide) (by decide) (beq_iff_eq.1 h)
          (Nat.div_lt_of_lt_mul hnano)
      case isFalse =>
        have hread := readFraction_point 9 nano (by decide) (by decide) (Nat.mod_one nano)
          (Nat.div_lt_of_lt_mul hnano)
        rwa [show nano / pow10 (9 - 9) = nano from Nat.div_one nano] at hread

/-! ## Texts -/

section Texts

variable (t : Timestamp)

theorem ofParts?_toCivilParts : ofParts? t.toCivilParts = some t := dif_pos t.valid

/-- What is read behind a date. -/
def readClock (separator : Separator) (year : Int) (month day : Nat) (cs : List Char) :
    Option Timestamp := do
  let (_, cs) ← separator.read cs
  let (hour, cs) ← readPair cs
  let (_, cs) ← readMark ':' cs
  let (minute, cs) ← readPair cs
  let (_, cs) ← readMark ':' cs
  let (second, cs) ← readPair cs
  let (nano, cs) ← readFraction cs
  if !cs.isEmpty then none
  else if second = 60 then ofParts? ⟨year, month, day, hour, minute, 59, nano + 1000000000⟩
  else ofParts? ⟨year, month, day, hour, minute, second, nano⟩

theorem readWith_dateText (separator : Separator) (rest : String) :
    readWith separator (t.dateText ++ rest) =
      readClock separator t.year t.month t.day rest.toList := by
  have htext : (t.dateText ++ rest).toList = (yearText t.year).toList ++
      '-' :: ((padded 2 t.month).toList ++ '-' :: ((padded 2 t.day).toList ++ rest.toList)) := by
    simp [dateText]
  obtain ⟨-, -, -, hmonth, -, hday, -⟩ := t.valid
  have hmonth' : t.month < 100 := by omega
  have hday' : t.day < 100 := by
    have := Calendar.daysInMonth_le t.year t.month
    omega
  simp only [readWith, htext, readYear_yearText, readMark, readPair_padded hmonth',
    readPair_padded hday', Option.bind_eq_bind, Option.bind_some, if_pos]
  rfl

/-- The parts of a timestamp as its text has them: a leap second is second 60. -/
theorem ofParts?_shown : (if t.second + t.nano / 1000000000 = 60 then
      ofParts? ⟨t.year, t.month, t.day, t.hour, t.minute, 59, t.nano % 1000000000 + 1000000000⟩
    else ofParts? ⟨t.year, t.month, t.day, t.hour, t.minute, t.second + t.nano / 1000000000,
      t.nano % 1000000000⟩) = some t := by
  obtain ⟨-, -, -, -, -, -, -, -, hsecond, hnano, hleap⟩ := t.valid
  rw [← ofParts?_toCivilParts t]
  split
  case isTrue h =>
    have hnano' : t.nano % 1000000000 + 1000000000 = t.nano := by omega
    rw [hnano', ← hleap (by omega)]
  case isFalse h =>
    have hnano' : t.nano < 1000000000 := by
      refine Nat.lt_of_not_le fun hle => h ?_
      rw [hleap hle]
      omega
    rw [Nat.div_eq_of_lt hnano', Nat.mod_eq_of_lt hnano', Nat.add_zero]

theorem readClock_timeText {separator : Separator} {cs : List Char}
    (hcs : separator.read cs = some ((), t.timeText.toList)) :
    readClock separator t.year t.month t.day cs = some t := by
  have htext : t.timeText.toList = (padded 2 t.hour).toList ++ ':' :: ((padded 2 t.minute).toList ++
      ':' :: ((padded 2 (t.second + t.nano / 1000000000)).toList ++
        (fractionText (t.nano % 1000000000)).toList)) := by
    simp [timeText]
  obtain ⟨-, -, -, -, -, -, hhour, hminute, hsecond, hnano, -⟩ := t.valid
  have hhour' : t.hour < 100 := by omega
  have hminute' : t.minute < 100 := by omega
  have hsecond' : t.second + t.nano / 1000000000 < 100 := by omega
  have hfraction : t.nano % 1000000000 < 1000000000 := Nat.mod_lt _ (by decide)
  simp only [readClock, hcs, htext, readMark, readPair_padded hhour', readPair_padded hminute',
    readPair_padded hsecond', readFraction_fractionText hfraction, Option.bind_eq_bind,
    Option.bind_some, if_pos]
  exact t.ofParts?_shown

/-- The time of day begins with a digit. -/
theorem trimFront_timeText : trimFront t.timeText.toList = t.timeText.toList := by
  simp only [timeText, String.toList_append, List.append_assoc]
  exact trimFront_append (padded_ne_nil 2 _) fun _ hc => isDigit_padded hc

theorem readWith_writeSpaced : readWith .blanks t.writeSpaced = some t := by
  rw [writeSpaced, String.append_assoc, readWith_dateText]
  have hspace : trimFront (' ' :: t.timeText.toList) = trimFront t.timeText.toList :=
    List.dropWhile_cons_of_pos rfl
  refine t.readClock_timeText ?_
  simp only [String.toList_append, Separator.read, String.reduceToList, List.singleton_append, hspace,
    trimFront_timeText]

theorem readWith_write : readWith .letter t.write = some t := by
  rw [write, String.append_assoc, readWith_dateText]
  refine t.readClock_timeText ?_
  rw [String.toList_append]
  rfl

/-- The letter between date and time is no white space, and no hour begins with it. -/
theorem readWith_blanks_write : readWith .blanks t.write = none := by
  have hletter : trimFront ('T' :: t.timeText.toList) = 'T' :: t.timeText.toList := rfl
  have hhour : readPair ('T' :: t.timeText.toList) = none := rfl
  rw [write, String.append_assoc, readWith_dateText, String.toList_append]
  simp only [readClock, Separator.read, String.reduceToList, List.singleton_append, hletter, hhour,
    Option.bind_eq_bind, Option.bind_some, Option.bind_none]

/-- **The text with a space reads back.** -/
theorem read?_writeSpaced : read? t.writeSpaced = some t := by
  rw [read?, readWith_writeSpaced]
  rfl

/-- **The text with a letter reads back.** -/
theorem read?_write : read? t.write = some t := by
  rw [read?, readWith_blanks_write, readWith_write]
  rfl

/-- A leap second in a year with a sign. -/
example : (⟨⟨-44, 3, 15, 23, 59, 59, 1500000000⟩, by decide⟩ : Timestamp).write =
    "-0044-03-15T23:59:60.500" := by cbv

end Texts

end Timestamp

/-! ## Values -/

namespace Value

end Value

end SqlClient
