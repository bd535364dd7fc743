import NotifyHub.DomainTypes
import Mathlib.Tactic

/-!
# The text of a moment

`datetime.isoformat` in UTC, and `datetime.fromisoformat` on the texts it
writes.  A moment is first taken apart into its calendar fields, as Python does
it, over cycles of 400, 100, 4 and 1 years.
-/

namespace NotifyHub

/-! ## Calendar -/

def isLeap (year : ℕ) : Bool :=
  year % 4 = 0 && (year % 100 ≠ 0 || year % 400 = 0)

def daysInMonths (leap : Bool) : List ℕ :=
  [31, if leap then 29 else 28, 31, 30, 31, 30, 31, 31, 30, 31, 30, 31]

def daysBeforeYear (year : ℕ) : ℕ :=
  (year - 1) * 365 + (year - 1) / 4 - (year - 1) / 100 + (year - 1) / 400

def daysBeforeMonth (leap : Bool) (month : ℕ) : ℕ :=
  ((daysInMonths leap).take (month - 1)).sum

def daysInMonth (leap : Bool) (month : ℕ) : ℕ :=
  (daysInMonths leap).getD (month - 1) 0

structure CalendarDate where
  year : ℕ
  month : ℕ
  day : ℕ
  deriving DecidableEq

/-- The month and the day of a day of the year, the last one of a leap year
apart; the first guess of the month is off by at most one. -/
def monthAndDay (leap : Bool) (dayOfYear : ℕ) : ℕ × ℕ :=
  let guess := (dayOfYear + 50) / 32
  let month :=
    if dayOfYear < daysBeforeMonth leap guess then guess - 1 else guess
  (month, dayOfYear - daysBeforeMonth leap month + 1)

/-- `_ord2ymd`, with 0 for the first day of the year 1. -/
def dateOfDay (day : ℕ) : CalendarDate :=
  let n400 := day / 146097
  let n100 := day % 146097 / 36524
  let n4 := day % 146097 % 36524 / 1461
  let n1 := day % 146097 % 36524 % 1461 / 365
  let dayOfYear := day % 146097 % 36524 % 1461 % 365
  let year := n400 * 400 + n100 * 100 + n4 * 4 + n1 + 1
  if n1 = 4 ∨ n100 = 4 then ⟨year - 1, 12, 31⟩
  else
    let leap := n1 = 3 && (n4 ≠ 24 || n100 = 3)
    let (month, day) := monthAndDay leap dayOfYear
    ⟨year, month, day⟩

/-- `_ymd2ord`, with no value for a date which does not exist. -/
def dayOfDate (date : CalendarDate) : Option ℕ :=
  let leap := isLeap date.year
  if 1 ≤ date.year ∧ date.year ≤ 9999 ∧ 1 ≤ date.month ∧ date.month ≤ 12 ∧
      1 ≤ date.day ∧ date.day ≤ daysInMonth leap date.month then
    some (daysBeforeYear date.year + daysBeforeMonth leap date.month +
      (date.day - 1))
  else none

theorem monthAndDay_spec :
    ∀ leap, ∀ dayOfYear < 365,
      let date := monthAndDay leap dayOfYear
      1 ≤ date.1 ∧ date.1 ≤ 12 ∧ 1 ≤ date.2 ∧
        date.2 ≤ daysInMonth leap date.1 ∧
        daysBeforeMonth leap date.1 + (date.2 - 1) = dayOfYear := by
  decide +kernel

/-- How far into its cycles a day can be. -/
structure Cycles (n400 n100 n4 n1 dayOfYear : ℕ) : Prop where
  withinYear : dayOfYear < 365
  lastDay : n1 = 4 → dayOfYear = 0
  fourYears : n1 ≤ 4
  century : n4 ≤ 24
  lastYears : n4 = 24 → n1 ≤ 3
  centuries : n100 ≤ 4
  lastCentury : n100 = 4 → n4 = 0 ∧ n1 = 0 ∧ dayOfYear = 0

theorem cycles (day : ℕ) :
    Cycles (day / 146097) (day % 146097 / 36524)
      (day % 146097 % 36524 / 1461) (day % 146097 % 36524 % 1461 / 365)
      (day % 146097 % 36524 % 1461 % 365) := by
  constructor
  all_goals omega

theorem day_eq_cycles (day : ℕ) :
    day = 146097 * (day / 146097) + 36524 * (day % 146097 / 36524) +
      1461 * (day % 146097 % 36524 / 1461) +
      365 * (day % 146097 % 36524 % 1461 / 365) +
      day % 146097 % 36524 % 1461 % 365 := by
  omega

/-- The days before a year in terms of its cycles. -/
theorem daysBeforeYear_cycles
    (n400 : ℕ) {n100 n4 n1 : ℕ} (hn100 : n100 ≤ 3) (hn4 : n4 ≤ 24) (hn1 : n1 ≤ 3) :
    daysBeforeYear (n400 * 400 + n100 * 100 + n4 * 4 + n1 + 1) =
      146097 * n400 + 36524 * n100 + 1461 * n4 + 365 * n1 := by
  unfold daysBeforeYear
  omega

theorem isLeap_cycles
    (n400 : ℕ) {n100 n4 n1 : ℕ} (hn100 : n100 ≤ 3) (hn4 : n4 ≤ 24) (hn1 : n1 ≤ 3) :
    isLeap (n400 * 400 + n100 * 100 + n4 * 4 + n1 + 1) =
      (n1 = 3 && (n4 ≠ 24 || n100 = 3) : Bool) := by
  rw [Bool.eq_iff_iff]
  simp only [isLeap, Bool.and_eq_true, Bool.or_eq_true, decide_eq_true_eq]
  omega

/-- The last day of a leap year. -/
theorem dayOfDate_lastDay
    {year : ℕ} (hpositive : 1 ≤ year) (hyear : year ≤ 9999)
    (hleap : isLeap year = true) :
    dayOfDate ⟨year, 12, 31⟩ = some (daysBeforeYear year + 365) := by
  simp [dayOfDate, hpositive, hyear, hleap, daysInMonth, daysBeforeMonth,
    daysInMonths]

theorem dayOfDate_dateOfDay
    {day : ℕ} (hday : day < 3652059) :
    dayOfDate (dateOfDay day) = some day := by
  have hcycles := cycles day
  have hsum := day_eq_cycles day
  unfold dateOfDay
  simp only
  generalize day / 146097 = n400 at *
  generalize day % 146097 / 36524 = n100 at *
  generalize day % 146097 % 36524 / 1461 = n4 at *
  generalize day % 146097 % 36524 % 1461 / 365 = n1 at *
  generalize day % 146097 % 36524 % 1461 % 365 = dayOfYear at *
  obtain ⟨hwithinYear, hlastDay, hfourYears, hcentury, hlastYears, hcenturies,
    hlastCentury⟩ := hcycles
  split
  next hlast =>
    rcases Nat.lt_or_ge n100 4 with hn100 | hn100
    · -- The last day of four years.
      have hn1 : n1 = 4 := by omega
      have hn4 : n4 ≤ 23 := by omega
      have hyear : n400 * 400 + n100 * 100 + n4 * 4 + n1 + 1 - 1 =
          n400 * 400 + n100 * 100 + n4 * 4 + 3 + 1 := by omega
      have hleap := isLeap_cycles n400 (n100.le_of_lt_succ hn100) hcentury
        (le_refl 3)
      rw [hyear, dayOfDate_lastDay (by omega) (by omega) ?_,
        daysBeforeYear_cycles n400 (by omega) hcentury (le_refl 3)]
      · congr 1
        omega
      · rw [hleap]
        simp only [decide_true, Bool.true_and, Bool.or_eq_true,
          decide_eq_true_eq]
        omega
    · -- The last day of four centuries.
      have hyear : n400 * 400 + n100 * 100 + n4 * 4 + n1 + 1 - 1 =
          n400 * 400 + 3 * 100 + 24 * 4 + 3 + 1 := by omega
      have hleap := isLeap_cycles n400 (le_refl 3) (le_refl 24) (le_refl 3)
      have hbefore :=
        daysBeforeYear_cycles n400 (le_refl 3) (le_refl 24) (le_refl 3)
      rw [hyear, dayOfDate_lastDay (by omega) (by omega) hleap, hbefore]
      congr 1
      omega
  next hinner =>
    have hn1 : n1 ≤ 3 := by omega
    have hn100 : n100 ≤ 3 := by omega
    have hyear : n400 * 400 + n100 * 100 + n4 * 4 + n1 + 1 ≤ 9999 := by omega
    have hbefore := daysBeforeYear_cycles n400 hn100 hcentury hn1
    rw [← isLeap_cycles n400 hn100 hcentury hn1]
    obtain ⟨hmonth, hmonthLe, hdayPos, hdayLe, hdays⟩ := monthAndDay_spec
      (isLeap (n400 * 400 + n100 * 100 + n4 * 4 + n1 + 1)) dayOfYear
      hwithinYear
    unfold dayOfDate
    rw [if_pos
      ⟨Nat.le_add_left 1 _, hyear, hmonth, hmonthLe, hdayPos, hdayLe⟩]
    simp only [hbefore]
    congr 1
    omega

/-! ## Fields of digits -/

def digitChar (digit : ℕ) : Char :=
  Char.ofNat (digit + 48)

def digitValue (char : Char) : Option ℕ :=
  if char.isDigit then some (char.toNat - 48) else none

/-- A number in a fixed width. -/
def padded : ℕ → ℕ → Text
  | 0, _ => []
  | width + 1, number => padded width (number / 10) ++ [digitChar (number % 10)]

/-- The number in the next digits, with what has been read before them. -/
def readDigits : ℕ → ℕ → Text → Option (ℕ × Text)
  | 0, number, rest => some (number, rest)
  | _ + 1, _, [] => none
  | width + 1, number, char :: rest =>
      (digitValue char).bind fun digit =>
        readDigits width (number * 10 + digit) rest

def readChar (char : Char) : Text → Option Text
  | [] => none
  | next :: rest => if next = char then some rest else none

theorem digitValue_digitChar {digit : ℕ} (hdigit : digit < 10) :
    digitValue (digitChar digit) = some digit := by
  revert digit
  decide

theorem readDigits_append_padded
    (width further number before : ℕ) (rest : Text)
    (hnumber : number < 10 ^ width) :
    readDigits (width + further) before (padded width number ++ rest) =
      readDigits further (before * 10 ^ width + number) rest := by
  induction width generalizing number further rest with
  | zero =>
      have hzero : number = 0 := by omega
      simp [padded, hzero]
  | succ width ih =>
      have hdiv : number / 10 < 10 ^ width := by
        rw [pow_succ] at hnumber
        omega
      have hmod : number % 10 < 10 := Nat.mod_lt _ (by decide)
      rw [padded, List.append_assoc, List.singleton_append,
        Nat.add_right_comm width 1 further, Nat.add_assoc,
        ih (further + 1) (number / 10) _ hdiv, readDigits,
        digitValue_digitChar hmod, Option.bind_some]
      have hpow : before * 10 ^ (width + 1) = before * 10 ^ width * 10 := by
        ring
      congr 1
      omega

theorem readDigits_padded
    {width number : ℕ} (rest : Text) (hnumber : number < 10 ^ width) :
    readDigits width 0 (padded width number ++ rest) = some (number, rest) := by
  have hread := readDigits_append_padded width 0 number 0 rest hnumber
  rw [Nat.add_zero, Nat.zero_mul, Nat.zero_add] at hread
  exact hread

/-! ## The text -/

def microsPerDay : ℕ := 86400 * 1000000

/-- The fields of a time of day. -/
structure TimeOfDay where
  hour : ℕ
  minute : ℕ
  second : ℕ
  microsecond : ℕ
  deriving DecidableEq

def timeOfMicros (micros : ℕ) : TimeOfDay where
  hour := micros / 1000000 / 3600
  minute := micros / 1000000 / 60 % 60
  second := micros / 1000000 % 60
  microsecond := micros % 1000000

def microsOfTime (time : TimeOfDay) : Option ℕ :=
  if time.hour < 24 ∧ time.minute < 60 ∧ time.second < 60 ∧
      time.microsecond < 1000000 then
    some (((time.hour * 60 + time.minute) * 60 + time.second) * 1000000 +
      time.microsecond)
  else none

theorem microsOfTime_timeOfMicros
    {micros : ℕ} (hmicros : micros < microsPerDay) :
    microsOfTime (timeOfMicros micros) = some micros := by
  unfold microsPerDay at hmicros
  unfold microsOfTime timeOfMicros
  rw [if_pos (by simp only; omega)]
  congr 1
  simp only
  omega

def dateText (date : CalendarDate) : Text :=
  padded 4 date.year ++ '-' :: padded 2 date.month ++ '-' :: padded 2 date.day

def fractionText (microsecond : ℕ) : Text :=
  if microsecond = 0 then [] else '.' :: padded 6 microsecond

def timeText (time : TimeOfDay) : Text :=
  padded 2 time.hour ++ ':' :: padded 2 time.minute ++
    ':' :: padded 2 time.second ++ fractionText time.microsecond

def utcOffset : Text := "+00:00".toList

/-- `datetime.isoformat` of a moment in UTC. -/
def isoformat (moment : Datetime) : Text :=
  let micros := moment.val.toNat
  dateText (dateOfDay (micros / microsPerDay)) ++
    'T' :: timeText (timeOfMicros (micros % microsPerDay)) ++ utcOffset

def readDate (text : Text) : Option (CalendarDate × Text) := do
  let (year, text) ← readDigits 4 0 text
  let text ← readChar '-' text
  let (month, text) ← readDigits 2 0 text
  let text ← readChar '-' text
  let (day, text) ← readDigits 2 0 text
  return (⟨year, month, day⟩, text)

def readFraction (text : Text) : Option (ℕ × Text) :=
  match readChar '.' text with
  | some digits => readDigits 6 0 digits
  | none => some (0, text)

def readTime (text : Text) : Option (TimeOfDay × Text) := do
  let (hour, text) ← readDigits 2 0 text
  let text ← readChar ':' text
  let (minute, text) ← readDigits 2 0 text
  let text ← readChar ':' text
  let (second, text) ← readDigits 2 0 text
  let (microsecond, text) ← readFraction text
  return (⟨hour, minute, second, microsecond⟩, text)

/-- `datetime.fromisoformat`; of the formats which it accepts only the one
written by `isoformat` is read. -/
def fromisoformat (text : Text) : Option Instant := do
  let (date, text) ← readDate text
  let text ← readChar 'T' text
  let (time, text) ← readTime text
  let day ← dayOfDate date
  let micros ← microsOfTime time
  if text = utcOffset then some ((day * microsPerDay + micros : ℕ) : ℤ)
  else none

@[simp] theorem readChar_cons (char : Char) (rest : Text) :
    readChar char (char :: rest) = some rest := by
  simp [readChar]

theorem readDate_dateText
    {date : CalendarDate} (rest : Text) (hyear : date.year < 10 ^ 4)
    (hmonth : date.month < 10 ^ 2) (hday : date.day < 10 ^ 2) :
    readDate (dateText date ++ rest) = some (date, rest) := by
  simp only [readDate, dateText, List.append_assoc, List.cons_append,
    readDigits_padded _ hyear, readDigits_padded _ hmonth,
    readDigits_padded _ hday, Option.bind_eq_bind, Option.bind_some,
    readChar_cons]
  rfl

theorem readFraction_fractionText
    {microsecond : ℕ} {rest : Text} (hmicrosecond : microsecond < 10 ^ 6)
    (hrest : readChar '.' rest = none) :
    readFraction (fractionText microsecond ++ rest) =
      some (microsecond, rest) := by
  unfold fractionText
  split
  next hzero =>
    rw [List.nil_append, readFraction, hrest, hzero]
  · rw [List.cons_append, readFraction, readChar_cons]
    exact readDigits_padded rest hmicrosecond

theorem readTime_timeText
    {time : TimeOfDay} {rest : Text} (hhour : time.hour < 10 ^ 2)
    (hminute : time.minute < 10 ^ 2) (hsecond : time.second < 10 ^ 2)
    (hmicrosecond : time.microsecond < 10 ^ 6)
    (hrest : readChar '.' rest = none) :
    readTime (timeText time ++ rest) = some (time, rest) := by
  simp only [readTime, timeText, List.append_assoc, List.cons_append,
    readDigits_padded _ hhour, readDigits_padded _ hminute,
    readDigits_padded _ hsecond, Option.bind_eq_bind, Option.bind_some,
    readChar_cons, readFraction_fractionText hmicrosecond hrest]
  rfl

/-- A date which exists fits its text. -/
theorem dayOfDate_range
    {date : CalendarDate} {day : ℕ} (hday : dayOfDate date = some day) :
    date.year < 10 ^ 4 ∧ date.month < 10 ^ 2 ∧ date.day < 10 ^ 2 := by
  simp only [dayOfDate] at hday
  split at hday
  next hdate =>
    obtain ⟨-, hyear, hmonthPos, hmonth, -, hdays⟩ := hdate
    have hlong : ∀ leap, ∀ month < 13, daysInMonth leap month < 32 := by
      decide
    have hlonger := hlong (isLeap date.year) date.month (by omega)
    omega
  · cases hday

theorem readTime_timeOfMicros
    {micros : ℕ} (hmicros : micros < microsPerDay) :
    readTime (timeText (timeOfMicros micros) ++ utcOffset) =
      some (timeOfMicros micros, utcOffset) := by
  unfold microsPerDay at hmicros
  apply readTime_timeText
  · simp only [timeOfMicros]
    omega
  · simp only [timeOfMicros]
    omega
  · simp only [timeOfMicros]
    omega
  · exact Nat.mod_lt _ (by decide)
  · rfl

/-- What `isoformat` writes is read back as it was. -/
theorem fromisoformat_isoformat (moment : Datetime) :
    fromisoformat (isoformat moment) = some moment.val := by
  obtain ⟨moment, hnonneg, hmax⟩ := moment
  have hbound : moment.toNat ≤ 3652059 * (86400 * 1000000) - 1 :=
    Int.toNat_le.mpr hmax
  have hday : moment.toNat / microsPerDay < 3652059 := by
    unfold microsPerDay
    omega
  have hmicros : moment.toNat % microsPerDay < microsPerDay :=
    Nat.mod_lt _ (by decide)
  have hdate := dayOfDate_dateOfDay hday
  obtain ⟨hyear, hmonth, hdays⟩ := dayOfDate_range hdate
  have htime := readTime_timeOfMicros hmicros
  simp only [fromisoformat, isoformat, List.append_assoc, List.cons_append,
    readDate_dateText _ hyear hmonth hdays, Option.bind_eq_bind,
    Option.bind_some, readChar_cons, htime, hdate,
    microsOfTime_timeOfMicros hmicros, if_true]
  congr 1
  rw [Nat.div_add_mod']
  exact Int.toNat_of_nonneg hnonneg

/-- The last microsecond of the first century with a leap day at its end. -/
example :
    isoformat ⟨12622780799999999, by decide, by decide⟩ =
      "0400-12-31T23:59:59.999999+00:00".toList := by
  decide +kernel

end NotifyHub
