import Mathlib.Tactic

/-!
# Months of the Gregorian calendar

Days are counted from the first of January 1970, in both directions, and months
from the January of the year 0.  What is used of the calendar is that the months
follow each other without a gap, how long they are, and that every eight years
have a leap year.
-/

namespace NotifyHub.Calendar

def isLeapYear (year : ℤ) : Bool :=
  year % 4 = 0 && (year % 100 ≠ 0 || year % 400 = 0)

def leapDay (year : ℤ) : ℤ :=
  if isLeapYear year then 1 else 0

/-- The first day of a year. -/
def dayFromYear (year : ℤ) : ℤ :=
  365 * (year - 1970) + (year - 1969) / 4 - (year - 1901) / 100 +
    (year - 1601) / 400

/-- The length of a month of the year, the January being 0. -/
def placeLength (leap place : ℤ) : ℤ :=
  if place = 1 then 28 + leap
  else if place = 3 ∨ place = 5 ∨ place = 8 ∨ place = 10 then 30
  else 31

/-- The days of a year before its month. -/
def daysBeforeMonth (leap place : ℤ) : ℤ :=
  (367 * place + 5) / 12 - (if place ≤ 1 then 0 else 2 - leap)

/-- The first day of a month. -/
def monthStart (month : ℤ) : ℤ :=
  dayFromYear (month / 12) + daysBeforeMonth (leapDay (month / 12)) (month % 12)

def monthLength (month : ℤ) : ℤ :=
  placeLength (leapDay (month / 12)) (month % 12)

/-- The year of a day; the first guess is off by at most one. -/
def yearOfDay (day : ℤ) : ℤ :=
  let guess := 1970 + day * 400 / 146097
  if day < dayFromYear guess then guess - 1
  else if dayFromYear (guess + 1) ≤ day then guess + 1
  else guess

/-- The month of the year in which a day of the year is. -/
def monthInYear (leap : ℤ) (dayInYear : ℤ) : ℤ :=
  if dayInYear < 31 then 0
  else if dayInYear < 59 + leap then 1
  else if dayInYear < 90 + leap then 2
  else if dayInYear < 120 + leap then 3
  else if dayInYear < 151 + leap then 4
  else if dayInYear < 181 + leap then 5
  else if dayInYear < 212 + leap then 6
  else if dayInYear < 243 + leap then 7
  else if dayInYear < 273 + leap then 8
  else if dayInYear < 304 + leap then 9
  else if dayInYear < 334 + leap then 10
  else 11

def monthOfDay (day : ℤ) : ℤ :=
  let year := yearOfDay day
  12 * year + monthInYear (leapDay year) (day - dayFromYear year)

/-- Sunday is 0. -/
def weekday (day : ℤ) : ℤ :=
  (day + 4) % 7

theorem leapDay_cases (year : ℤ) : leapDay year = 0 ∨ leapDay year = 1 := by
  unfold leapDay
  split
  · exact .inr rfl
  · exact .inl rfl

theorem dayFromYear_succ (year : ℤ) :
    dayFromYear (year + 1) = dayFromYear year + 365 + leapDay year := by
  unfold dayFromYear leapDay isLeapYear
  split
  next hleap =>
    simp only [Bool.and_eq_true, Bool.or_eq_true, decide_eq_true_eq] at hleap
    omega
  next hleap =>
    simp only [Bool.and_eq_true, Bool.or_eq_true, decide_eq_true_eq] at hleap
    omega

theorem yearOfDay_spec (day : ℤ) :
    dayFromYear (yearOfDay day) ≤ day ∧
      day < dayFromYear (yearOfDay day + 1) := by
  simp only [yearOfDay]
  split
  next hbefore =>
    refine ⟨?_, by rwa [sub_add_cancel]⟩
    clear hbefore
    unfold dayFromYear
    omega
  next hbefore =>
    split
    next hafter =>
      refine ⟨hafter, ?_⟩
      clear hbefore hafter
      unfold dayFromYear
      omega
    next hafter => exact ⟨not_lt.mp hbefore, not_le.mp hafter⟩

/-! ## Months -/

/-- A month as its year and its place in the year. -/
theorem exists_year_month (month : ℤ) :
    ∃ year place : ℤ, month = 12 * year + place ∧ 0 ≤ place ∧ place < 12 ∧
      month / 12 = year ∧ month % 12 = place :=
  ⟨month / 12, month % 12, by omega, by omega, by omega, rfl, rfl⟩

theorem monthStart_add
    (year : ℤ) {place : ℤ} (hlow : 0 ≤ place) (hhigh : place < 12) :
    monthStart (12 * year + place) =
      dayFromYear year + daysBeforeMonth (leapDay year) place := by
  have hyear : (12 * year + place) / 12 = year := by omega
  have hplace : (12 * year + place) % 12 = place := by omega
  rw [monthStart, hyear, hplace]

theorem daysBeforeMonth_succ :
    ∀ leap ∈ [(0 : ℤ), 1], ∀ place < 12,
      daysBeforeMonth leap (place + 1 : ℕ) =
        daysBeforeMonth leap (place : ℕ) + placeLength leap (place : ℕ) := by
  decide +kernel

theorem daysBeforeMonth_twelve {leap : ℤ} (hleap : leap = 0 ∨ leap = 1) :
    daysBeforeMonth leap 12 = 365 + leap := by
  rcases hleap with rfl | rfl
  · rfl
  · rfl

/-- The months follow each other without a gap. -/
theorem monthStart_succ (month : ℤ) :
    monthStart (month + 1) = monthStart month + monthLength month := by
  obtain ⟨year, place, rfl, hlow, hhigh, hyear, hplace⟩ := exists_year_month month
  have hleap : leapDay year ∈ [(0 : ℤ), 1] := by
    simpa using leapDay_cases year
  have hnext := daysBeforeMonth_succ _ hleap place.toNat (by omega)
  have hcast : ((place.toNat + 1 : ℕ) : ℤ) = place + 1 := by omega
  rw [hcast, Int.toNat_of_nonneg hlow] at hnext
  rw [monthStart_add year hlow hhigh, monthLength, hyear, hplace]
  rcases eq_or_ne place 11 with rfl | hlast
  · have hturn : 12 * year + 11 + 1 = 12 * (year + 1) + 0 := by ring
    have hfirst : daysBeforeMonth (leapDay (year + 1)) 0 = 0 := rfl
    have htwelve := daysBeforeMonth_twelve (leapDay_cases year)
    have hlast : (11 : ℤ) + 1 = 12 := rfl
    rw [hlast, htwelve] at hnext
    rw [hturn, monthStart_add (year + 1) (le_refl _) (by decide), hfirst,
      dayFromYear_succ]
    omega
  · have hsame : 12 * year + place + 1 = 12 * year + (place + 1) := by ring
    rw [hsame, monthStart_add year (by omega) (by omega)]
    omega

theorem monthLength_bounds (month : ℤ) :
    28 ≤ monthLength month ∧ monthLength month ≤ 31 := by
  have hleap := leapDay_cases (month / 12)
  unfold monthLength placeLength
  split
  · omega
  · split
    · omega
    · omega

theorem monthStart_strictMono : StrictMono monthStart := by
  refine strictMono_int_of_lt_succ fun month => ?_
  have hlength := monthLength_bounds month
  have hnext := monthStart_succ month
  omega

theorem monthStart_add_le (month : ℤ) (count : ℕ) :
    monthStart month + count ≤ monthStart (month + count) := by
  induction count with
  | zero => simp
  | succ count ih =>
      have hlength := monthLength_bounds (month + count)
      have hnext := monthStart_succ (month + count)
      rw [add_assoc] at hnext
      push_cast
      omega

theorem monthInYear_spec :
    ∀ leap ∈ [(0 : ℤ), 1], ∀ day : ℕ, day < 366 → (day : ℤ) < 365 + leap →
      0 ≤ monthInYear leap day ∧ monthInYear leap day < 12 ∧
        daysBeforeMonth leap (monthInYear leap day) ≤ day ∧
        day < daysBeforeMonth leap (monthInYear leap day) +
          placeLength leap (monthInYear leap day) := by
  decide +kernel

theorem monthOfDay_spec (day : ℤ) :
    monthStart (monthOfDay day) ≤ day ∧
      day < monthStart (monthOfDay day + 1) := by
  obtain ⟨hlow, hhigh⟩ := yearOfDay_spec day
  rw [dayFromYear_succ] at hhigh
  rw [monthStart_succ]
  simp only [monthOfDay]
  generalize yearOfDay day = year at *
  have hcases := leapDay_cases year
  have hleap : leapDay year ∈ [(0 : ℤ), 1] := by
    simpa using hcases
  have hcast : ((day - dayFromYear year).toNat : ℤ) = day - dayFromYear year :=
    Int.toNat_of_nonneg (Int.sub_nonneg.mpr hlow)
  have hplace := monthInYear_spec _ hleap (day - dayFromYear year).toNat
    (by omega) (by omega)
  rw [hcast] at hplace
  obtain ⟨hfirst, hlast, hbefore, hafter⟩ := hplace
  generalize monthInYear (leapDay year) (day - dayFromYear year) = place at *
  have hyear : (12 * year + place) / 12 = year := by omega
  have hmonth : (12 * year + place) % 12 = place := by omega
  rw [monthStart_add year hfirst hlast, monthLength, hyear, hmonth]
  exact ⟨by omega, by omega⟩

/-- A day is in the month between whose start and end it lies. -/
theorem monthOfDay_eq
    {day month : ℤ} (hlow : monthStart month ≤ day)
    (hhigh : day < monthStart (month + 1)) : monthOfDay day = month := by
  obtain ⟨hfirst, hlast⟩ := monthOfDay_spec day
  have hbefore : monthOfDay day < month + 1 :=
    monthStart_strictMono.lt_iff_lt.mp (hfirst.trans_lt hhigh)
  have hafter : month < monthOfDay day + 1 :=
    monthStart_strictMono.lt_iff_lt.mp (hlow.trans_lt hlast)
  omega

theorem monthOfDay_mono {first second : ℤ} (hle : first ≤ second) :
    monthOfDay first ≤ monthOfDay second := by
  by_contra hlt
  have hfirst := (monthOfDay_spec first).1
  have hsecond := (monthOfDay_spec second).2
  have hmonths : monthStart (monthOfDay second + 1) ≤
      monthStart (monthOfDay first) :=
    monthStart_strictMono.monotone (by omega)
  omega

/-- A leap year comes within the eight years after a year. -/
theorem exists_leapYear (year : ℤ) :
    ∃ leap, year < leap ∧ leap ≤ year + 8 ∧ isLeapYear leap = true := by
  have hdivided : ∀ candidate : ℤ, candidate % 4 = 0 → candidate % 100 ≠ 0 →
      isLeapYear candidate = true := by
    intro candidate hfour hcentury
    simp [isLeapYear, hfour, hcentury]
  -- Of two neighbouring multiples of four one is not a century.
  by_cases hcentury : (year / 4 * 4 + 4) % 100 = 0
  · exact ⟨year / 4 * 4 + 8, by omega, by omega,
      hdivided _ (by omega) (by omega)⟩
  · exact ⟨year / 4 * 4 + 4, by omega, by omega,
      hdivided _ (by omega) hcentury⟩

/-- A month is never longer than in a leap year. -/
theorem monthLength_le_of_leap
    {month year : ℤ} (hleap : isLeapYear year = true) :
    monthLength month ≤ monthLength (12 * year + month % 12) := by
  have hyear : (12 * year + month % 12) / 12 = year := by omega
  have hplace : (12 * year + month % 12) % 12 = month % 12 := by omega
  have hcases := leapDay_cases (month / 12)
  have hlong : leapDay year = 1 := if_pos hleap
  rw [monthLength, monthLength, hyear, hplace, hlong]
  unfold placeLength
  split
  · omega
  · exact le_refl _

end NotifyHub.Calendar
