import NotifyHub.CronFields
import NotifyHub.JumpSearch
import NotifyHub.MonthCalendar
import Mathlib.Tactic

/-!
# The search for the next local time

`searchWall` of the dashboard.  A `wall` is the time of a clock, as the
milliseconds of a `Date` which is read in UTC.  The search jumps over the
months, days, hours and minutes which the fields do not allow; without the
elements `W`, `#` and `L` of a weekday it finds the first time which all fields
allow.
-/

namespace NotifyHub.Cron

open Calendar JumpSearch

def minuteMs : ℤ := 60000

def hourMs : ℤ := 3600000

def dayMs : ℤ := 86400000

def maxYearsBetweenMatches : ℤ := 50

structure Civil where
  y : ℤ
  mo : ℤ
  d : ℤ
  h : ℤ
  mi : ℤ
  dow : ℤ

def civil (wall : ℤ) : Civil :=
  let day := wall / dayMs
  let month := monthOfDay day
  { y := month / 12
    mo := month % 12 + 1
    d := day - monthStart month + 1
    h := wall / hourMs % 24
    mi := wall / minuteMs % 60
    dow := weekday day }

/-- `Date.UTC` takes the years 0 to 99 for 1900 to 1999. -/
def utcYear (y : ℤ) : ℤ :=
  if 0 ≤ y ∧ y ≤ 99 then 1900 + y else y

def wallOf (y mo d h mi : ℤ) : ℤ :=
  (monthStart (12 * utcYear y + (mo - 1)) + (d - 1)) * dayMs + h * hourMs +
    mi * minuteMs

def lastDayOfMonth (y mo : ℤ) : ℤ :=
  (civil (wallOf y (mo + 1) 0 0 0)).d

def weekdaysOfMonth (y mo dow : ℤ) : List ℤ :=
  let first := (civil (wallOf y mo 1 0 0)).dow
  let start := 1 + (dow - first + 7) % 7
  ((List.range 5).map fun week => start + 7 * (week : ℤ)).filter
    (· ≤ lastDayOfMonth y mo)

def nearestWeekday (y mo target : ℤ) : ℤ :=
  let last := lastDayOfMonth y mo
  let day := min target last
  let weekday := ((civil (wallOf y mo day 0 0)).dow + 6) % 7
  if weekday < 5 then day
  else if weekday = 5 then (if 1 < day then day - 1 else day + 2)
  else if day < last then day + 1
  else day - 2

/-- The number which a value stands for in a month or a day of `rangeVal`. -/
def CronValue.within (rangeVal : ℤ) : CronValue → Option ℤ
  | .last => some rangeVal
  | .star => none
  | .num value => if rangeVal < value then none else some value

def firstAllowed (allowed : List CronValue) (rangeVal : ℤ) : ℤ :=
  match allowed with
  | .num first :: _ => first
  | _ => rangeVal

def nextNearestDiff (x : ℤ) (allowed : List CronValue) (rangeVal : ℤ) : ℤ :=
  match (allowed.filterMap (·.within rangeVal)).find? (x ≤ ·) with
  | some value => value - x
  | none => firstAllowed allowed rangeVal - x + rangeVal

/-! ## The steps of the search -/

/-- A jump by so many units, or none. -/
def jumpBy (floor unit diff : ℤ) : Option ℤ :=
  if diff = 0 then none else some (floor + diff * unit)

/-- The jump of a field whose values come around after `rangeVal` units. -/
def jumpToAllowed
    (values : List CronValue) (x rangeVal floor unit : ℤ) : Option ℤ :=
  if .star ∈ values then none
  else jumpBy floor unit (nextNearestDiff x values rangeVal)

namespace Proc

def month (values : List CronValue) (c : Civil) : Option ℤ :=
  if .star ∈ values then none
  else
    let diff := nextNearestDiff c.mo values 12
    if diff = 0 then none
    else
      let total := c.mo - 1 + diff
      some (wallOf (c.y + total / 12) (total % 12 + 1) 1 0 0)

def dayOfMonth (values : List CronValue) (c : Civil) : Option ℤ :=
  if .star ∈ values then none
  else
    let days := lastDayOfMonth c.y c.mo
    if .last ∈ values ∧ days = c.d then none
    else
      jumpBy (wallOf c.y c.mo c.d 0 0) dayMs (nextNearestDiff c.d values days)

def toCandidate (c : Civil) (candidates : List ℤ) : Option ℤ :=
  match candidates.min? with
  | none =>
      some (wallOf c.y c.mo c.d 0 0 +
        (lastDayOfMonth c.y c.mo - c.d + 1) * dayMs)
  | some least => jumpBy (wallOf c.y c.mo c.d 0 0) dayMs (least - c.d)

def nearestDay (nearest : List ℕ) (c : Civil) : Option ℤ :=
  toCandidate c ((nearest.map fun target =>
    nearestWeekday c.y c.mo target).filter (c.d ≤ ·))

def dayOfWeek (values : List CronValue) (c : Civil) : Option ℤ :=
  jumpToAllowed values c.dow 7 (wallOf c.y c.mo c.d 0 0) dayMs

/-- The day of a position, with none for a fifth week which is missing. -/
def nthDay (days : List ℤ) : NthSpec → Option ℤ
  | .last => days.getLast?
  | .position number => days[number - 1]?

def nthDayOfWeek (nth : List (ℕ × NthSpec)) (c : Civil) : Option ℤ :=
  toCandidate c ((nth.filterMap fun pair =>
    nthDay (weekdaysOfMonth c.y c.mo pair.1) pair.2).filter (c.d ≤ ·))

def hour (values : List CronValue) (c : Civil) : Option ℤ :=
  jumpToAllowed values c.h 24 (wallOf c.y c.mo c.d c.h 0) hourMs

def minute (values : List CronValue) (c : Civil) : Option ℤ :=
  jumpToAllowed values c.mi 60 (wallOf c.y c.mo c.d c.h c.mi) minuteMs

end Proc

def procs (fields : CronFields) (schedule : CronSchedule) :
    List (Civil → Option ℤ) :=
  [Proc.month fields.month,
    if schedule.nearest ≠ [] then Proc.nearestDay schedule.nearest
    else Proc.dayOfMonth fields.day,
    if schedule.nth ≠ [] then Proc.nthDayOfWeek schedule.nth
    else Proc.dayOfWeek fields.dow,
    Proc.hour fields.hour,
    Proc.minute fields.minute]

/-- The first of the steps which moves. -/
def searchStep
    (fields : CronFields) (schedule : CronSchedule) (wall : ℤ) : Option ℤ :=
  (procs fields schedule).findSome? (· (civil wall))

/-! ## Reading and writing a wall -/

section Walls

variable (wall : ℤ)

theorem civil_month :
    12 * (civil wall).y + ((civil wall).mo - 1) = monthOfDay (wall / dayMs) := by
  simp only [civil]
  omega

theorem civil_mo : 1 ≤ (civil wall).mo ∧ (civil wall).mo ≤ 12 := by
  simp only [civil]
  omega

theorem civil_d :
    1 ≤ (civil wall).d ∧
      (civil wall).d ≤ monthLength (monthOfDay (wall / dayMs)) := by
  obtain ⟨hlow, hhigh⟩ := monthOfDay_spec (wall / dayMs)
  rw [monthStart_succ] at hhigh
  simp only [civil]
  omega

theorem civil_h : 0 ≤ (civil wall).h ∧ (civil wall).h < 24 := by
  simp only [civil]
  omega

theorem civil_mi : 0 ≤ (civil wall).mi ∧ (civil wall).mi < 60 := by
  simp only [civil]
  omega

theorem civil_dow : 0 ≤ (civil wall).dow ∧ (civil wall).dow < 7 := by
  simp only [civil, weekday]
  omega

theorem lastDayOfMonth_eq (y mo : ℤ) :
    lastDayOfMonth y mo = monthLength (12 * utcYear y + (mo - 1)) := by
  generalize hmonth : 12 * utcYear y + (mo - 1) = month
  have hwall : wallOf y (mo + 1) 0 0 0 / dayMs = monthStart (month + 1) - 1 := by
    have hnext : 12 * utcYear y + (mo + 1 - 1) = month + 1 := by omega
    rw [wallOf, hnext, zero_mul, zero_mul, add_zero, add_zero,
      Int.mul_ediv_cancel _ (by decide), zero_sub, Int.sub_eq_add_neg]
  have hlength := monthLength_bounds month
  have hnext := monthStart_succ month
  have hread : monthOfDay (monthStart (month + 1) - 1) = month :=
    monthOfDay_eq (by omega) (by omega)
  simp only [lastDayOfMonth, civil, hwall, hread]
  omega

theorem utcYear_cases (y : ℤ) :
    utcYear y = y ∨ 0 ≤ y ∧ y ≤ 99 ∧ utcYear y = y + 1900 := by
  unfold utcYear
  split
  · next hshort => exact .inr ⟨hshort.1, hshort.2, add_comm _ _⟩
  · exact .inl rfl

theorem le_utcYear (y : ℤ) : y ≤ utcYear y := by
  rcases utcYear_cases y with hsame | ⟨-, -, hlater⟩
  · exact hsame.ge
  · omega

theorem civil_day :
    monthStart (monthOfDay (wall / dayMs)) + ((civil wall).d - 1) =
      wall / dayMs := by
  simp only [civil]
  omega

theorem wallOf_civil_of_utcYear {wall : ℤ}
    (hyear : utcYear (civil wall).y = (civil wall).y) :
    wallOf (civil wall).y (civil wall).mo (civil wall).d 0 0 =
      wall / dayMs * dayMs := by
  rw [wallOf, hyear, civil_month, civil_day, zero_mul, zero_mul, add_zero, add_zero]

/-- The start of the day on a wall, which `Date.UTC` moves forward in the
years 0 to 99. -/
theorem wallOf_civil :
    utcYear (civil wall).y = (civil wall).y ∧
        wallOf (civil wall).y (civil wall).mo (civil wall).d 0 0 =
          wall / dayMs * dayMs ∨
      wall + 2 * dayMs ≤
        wallOf (civil wall).y (civil wall).mo (civil wall).d 0 0 := by
  have hmonth := civil_month wall
  have hday := civil_day wall
  rcases utcYear_cases (civil wall).y with hsame | ⟨-, -, hlater⟩
  · exact .inl ⟨hsame, wallOf_civil_of_utcYear hsame⟩
  · refine .inr ?_
    have hmoved : 12 * utcYear (civil wall).y + ((civil wall).mo - 1) =
        monthOfDay (wall / dayMs) + (22800 : ℕ) := by
      push_cast
      omega
    have hfar := monthStart_add_le (monthOfDay (wall / dayMs)) 22800
    rw [wallOf, hmoved]
    push_cast at hfar ⊢
    simp only [dayMs] at *
    omega

end Walls

/-! ## Every step goes forward -/

section Forward

variable {wall next : ℤ}

theorem nextNearestDiff_ge
    (x : ℤ) (allowed : List CronValue) {rangeVal : ℤ} (hrange : 0 ≤ rangeVal) :
    0 ≤ nextNearestDiff x allowed rangeVal ∨
      rangeVal - x ≤ nextNearestDiff x allowed rangeVal := by
  unfold nextNearestDiff
  split
  · next value hfound =>
      have hle := List.find?_some hfound
      simp only [decide_eq_true_eq] at hle
      exact .inl (by omega)
  · have hfirst : 0 ≤ firstAllowed allowed rangeVal := by
      unfold firstAllowed
      split
      · exact Int.natCast_nonneg _
      · exact hrange
    exact .inr (by omega)

theorem jumpBy_eq_some {floor unit diff : ℤ} :
    jumpBy floor unit diff = some next ↔
      diff ≠ 0 ∧ next = floor + diff * unit := by
  unfold jumpBy
  split
  · next hstays => simp [hstays]
  · next hmoves => simp [hmoves, eq_comm]

theorem jumpBy_eq_none {floor unit diff : ℤ} :
    jumpBy floor unit diff = none ↔ diff = 0 := by
  unfold jumpBy
  split
  · next hstays => simp [hstays]
  · next hmoves => simp [hmoves]

/-- A jump forward from the unit in which the wall is, or from a time far
ahead of it. -/
def GoesForward (wall floor unit diff : ℤ) : Prop :=
  0 < diff ∧ wall < floor + unit ∨ -1 ≤ diff ∧ wall + unit < floor

theorem GoesForward.lt
    {floor unit diff : ℤ} (hforward : GoesForward wall floor unit diff)
    (hunit : 0 < unit) : wall < floor + diff * unit := by
  rcases hforward with ⟨hdiff, hnear⟩ | ⟨hdiff, hfar⟩
  · have hone : 1 * unit ≤ diff * unit :=
      mul_le_mul_of_nonneg_right (by omega) hunit.le
    omega
  · have hback : -1 * unit ≤ diff * unit :=
      mul_le_mul_of_nonneg_right hdiff hunit.le
    omega

theorem goesForward_day {diff : ℤ}
    (hdiff : utcYear (civil wall).y = (civil wall).y → 0 < diff)
    (hlow : -1 ≤ diff) :
    GoesForward wall (wallOf (civil wall).y (civil wall).mo (civil wall).d 0 0)
      dayMs diff := by
  rcases wallOf_civil wall with ⟨hyear, hstart⟩ | hfar
  · refine .inl ⟨hdiff hyear, ?_⟩
    rw [hstart]
    simp only [dayMs]
    omega
  · refine .inr ⟨hlow, ?_⟩
    simp only [dayMs] at *
    omega

theorem wallOf_time (y mo d h mi : ℤ) :
    wallOf y mo d h mi = wallOf y mo d 0 0 + h * hourMs + mi * minuteMs := by
  simp only [wallOf]
  ring

theorem Proc.month_lt {values : List CronValue}
    (hnext : Proc.month values (civil wall) = some next) : wall < next := by
  unfold Proc.month at hnext
  split at hnext
  · cases hnext
  dsimp only at hnext
  split at hnext
  · cases hnext
  next hmoves =>
    cases hnext
    have hmonth := civil_month wall
    have hplace := civil_mo wall
    have hdiff := nextNearestDiff_ge (civil wall).mo values
      (show (0 : ℤ) ≤ 12 by decide)
    generalize nextNearestDiff (civil wall).mo values 12 = diff at *
    generalize htotal : (civil wall).mo - 1 + diff = total
    have hyear := le_utcYear ((civil wall).y + total / 12)
    have hstart : monthStart (monthOfDay (wall / dayMs) + 1) ≤
        monthStart (12 * utcYear ((civil wall).y + total / 12) +
          (total % 12 + 1 - 1)) :=
      monthStart_strictMono.monotone (by omega)
    have hday := (monthOfDay_spec (wall / dayMs)).2
    simp only [wallOf, dayMs] at *
    omega

theorem lastDayOfMonth_ge :
    (civil wall).d - 1 ≤ lastDayOfMonth (civil wall).y (civil wall).mo ∧
      (utcYear (civil wall).y = (civil wall).y →
        (civil wall).d ≤ lastDayOfMonth (civil wall).y (civil wall).mo) := by
  have hday := (civil_d wall).2
  rw [← civil_month wall] at hday
  rw [lastDayOfMonth_eq]
  refine ⟨?_, fun hyear => by rwa [hyear]⟩
  rcases utcYear_cases (civil wall).y with hsame | ⟨-, -, hlater⟩
  · rw [hsame]
    omega
  -- The two months have the same place in their years.
  have hplace := civil_mo wall
  have hleap := leapDay_cases ((12 * (civil wall).y + ((civil wall).mo - 1)) / 12)
  have hother := leapDay_cases
    ((12 * ((civil wall).y + 1900) + ((civil wall).mo - 1)) / 12)
  rw [hlater]
  unfold monthLength at hday ⊢
  have hsame : (12 * ((civil wall).y + 1900) + ((civil wall).mo - 1)) % 12 =
      (12 * (civil wall).y + ((civil wall).mo - 1)) % 12 := by
    omega
  rw [hsame]
  unfold placeLength at hday ⊢
  split
  · next hshort =>
      rw [if_pos hshort] at hday
      omega
  · next hlong =>
      rw [if_neg hlong] at hday
      omega

theorem Proc.dayOfMonth_lt {values : List CronValue}
    (hnext : Proc.dayOfMonth values (civil wall) = some next) :
    wall < next := by
  unfold Proc.dayOfMonth at hnext
  split at hnext
  · cases hnext
  dsimp only at hnext
  split at hnext
  · cases hnext
  obtain ⟨hmoves, rfl⟩ := jumpBy_eq_some.mp hnext
  obtain ⟨hday, hlast⟩ := @lastDayOfMonth_ge wall
  have hlow := (civil_d wall).1
  have hrange : 0 ≤ lastDayOfMonth (civil wall).y (civil wall).mo := by omega
  have hdiff := nextNearestDiff_ge (civil wall).d values hrange
  refine (goesForward_day (fun hyear => ?_) ?_).lt (by decide)
  · have hwithin := hlast hyear
    omega
  · omega

theorem Proc.toCandidate_lt {candidates : List ℤ}
    (hahead : ∀ candidate ∈ candidates, (civil wall).d ≤ candidate)
    (hnext : Proc.toCandidate (civil wall) candidates = some next) :
    wall < next := by
  unfold Proc.toCandidate at hnext
  split at hnext
  · cases hnext
    obtain ⟨hday, hlast⟩ := @lastDayOfMonth_ge wall
    refine (goesForward_day (fun hyear => ?_) ?_).lt (by decide)
    · have hwithin := hlast hyear
      omega
    · omega
  · next least hleast =>
      obtain ⟨hmoves, rfl⟩ := jumpBy_eq_some.mp hnext
      have hle := hahead least (List.min?_mem hleast)
      exact (goesForward_day (fun _ => by omega) (by omega)).lt (by decide)

theorem jumpToAllowed_lt
    {values : List CronValue} {x rangeVal floor unit : ℤ} (hx : x ≤ rangeVal)
    (hrange : 0 ≤ rangeVal) (hunit : 0 < unit)
    (hnear : wall < floor + unit)
    (hnext : jumpToAllowed values x rangeVal floor unit = some next) :
    wall < next := by
  unfold jumpToAllowed at hnext
  split at hnext
  · cases hnext
  obtain ⟨hmoves, rfl⟩ := jumpBy_eq_some.mp hnext
  have hdiff := nextNearestDiff_ge x values hrange
  have hforward : GoesForward wall floor unit (nextNearestDiff x values rangeVal) :=
    .inl ⟨by omega, hnear⟩
  exact hforward.lt hunit

theorem lt_wallOf_civil :
    wall < wallOf (civil wall).y (civil wall).mo (civil wall).d 0 0 + dayMs ∧
      wall < wallOf (civil wall).y (civil wall).mo (civil wall).d (civil wall).h 0
        + hourMs ∧
      wall < wallOf (civil wall).y (civil wall).mo (civil wall).d (civil wall).h
        (civil wall).mi + minuteMs := by
  have hh : (civil wall).h = wall / hourMs % 24 := rfl
  have hmi : (civil wall).mi = wall / minuteMs % 60 := rfl
  rw [wallOf_time _ _ _ (civil wall).h 0,
    wallOf_time _ _ _ (civil wall).h (civil wall).mi, hh, hmi]
  rcases wallOf_civil wall with ⟨-, hstart⟩ | hfar
  · rw [hstart]
    simp only [dayMs, hourMs, minuteMs]
    omega
  · simp only [dayMs, hourMs, minuteMs] at *
    omega

theorem searchStep_lt {fields : CronFields} {schedule : CronSchedule}
    (hnext : searchStep fields schedule wall = some next) : wall < next := by
  obtain ⟨hday, hhour, hminute⟩ := @lt_wallOf_civil wall
  obtain ⟨proc, hproc, hmoves⟩ := List.exists_of_findSome?_eq_some hnext
  simp only [procs, List.mem_cons, List.not_mem_nil, or_false] at hproc
  rcases hproc with rfl | rfl | rfl | rfl | rfl
  · exact Proc.month_lt hmoves
  · split at hmoves
    · exact Proc.toCandidate_lt
        (fun candidate hmem => of_decide_eq_true (List.mem_filter.mp hmem).2)
        hmoves
    · exact Proc.dayOfMonth_lt hmoves
  · split at hmoves
    · exact Proc.toCandidate_lt
        (fun candidate hmem => of_decide_eq_true (List.mem_filter.mp hmem).2)
        hmoves
    · exact jumpToAllowed_lt (civil_dow wall).2.le (by decide) (by decide) hday
        hmoves
  · exact jumpToAllowed_lt (civil_h wall).2.le (by decide) (by decide) hhour
      hmoves
  · exact jumpToAllowed_lt (civil_mi wall).2.le (by decide) (by decide) hminute
      hmoves

end Forward

/-! ## The search -/

theorem civil_y_mono {first second : ℤ} (hle : first ≤ second) :
    (civil first).y ≤ (civil second).y := by
  have hmonths : monthOfDay (first / dayMs) ≤ monthOfDay (second / dayMs) :=
    monthOfDay_mono (Int.ediv_le_ediv (by decide) hle)
  exact Int.ediv_le_ediv (by decide) hmonths

/-- A wall lies before the end of its year. -/
theorem lt_year_end (wall : ℤ) :
    wall < monthStart (12 * ((civil wall).y + 1)) * dayMs := by
  have hmonth := civil_month wall
  have hplace := civil_mo wall
  have hday := (monthOfDay_spec (wall / dayMs)).2
  have hend : monthStart (monthOfDay (wall / dayMs) + 1) ≤
      monthStart (12 * ((civil wall).y + 1)) :=
    monthStart_strictMono.monotone (by omega)
  simp only [dayMs] at *
  omega

/-- The minute after a start. -/
def firstWall (start : ℤ) : ℤ :=
  (start + minuteMs) / minuteMs * minuteMs

def withinYears (start wall : ℤ) : Bool :=
  decide (|(civil wall).y - (civil (firstWall start)).y| ≤
    maxYearsBetweenMatches)

theorem withinYears_lt {start wall : ℤ} (hwithin : withinYears start wall = true) :
    wall < monthStart (12 * ((civil (firstWall start)).y +
      maxYearsBetweenMatches + 1)) * dayMs := by
  have hyears := (abs_le.mp (of_decide_eq_true hwithin)).2
  have hend : monthStart (12 * ((civil wall).y + 1)) ≤
      monthStart (12 * ((civil (firstWall start)).y +
        maxYearsBetweenMatches + 1)) :=
    monthStart_strictMono.monotone (by omega)
  exact (lt_year_end wall).trans_le
    (mul_le_mul_of_nonneg_right hend (by decide))

def searchLoop
    (start : ℤ) (fields : CronFields) (schedule : CronSchedule) : Loop where
  step := searchStep fields schedule
  within := withinYears start
  limit := monthStart (12 * ((civil (firstWall start)).y +
    maxYearsBetweenMatches + 1)) * dayMs
  forward _ _ := searchStep_lt
  bounded _ := withinYears_lt

def searchWall
    (start : ℤ) (fields : CronFields) (schedule : CronSchedule) :
    Except CronError ℤ :=
  match (searchLoop start fields schedule).run (firstWall start) with
  | some wall => .ok wall
  | none => .error .noMatch

theorem searchWall_eq_ok
    {start wall : ℤ} {fields : CronFields} {schedule : CronSchedule} :
    searchWall start fields schedule = .ok wall ↔
      (searchLoop start fields schedule).run (firstWall start) = some wall := by
  unfold searchWall
  split
  · next found hrun => simp [hrun]
  · next hrun => simp [hrun]

theorem lt_firstWall (start : ℤ) : start < firstWall start := by
  simp only [firstWall, minuteMs]
  omega

/-- A search ends after its start. -/
theorem searchWall_lt
    {start wall : ℤ} {fields : CronFields} {schedule : CronSchedule}
    (hsearch : searchWall start fields schedule = .ok wall) : start < wall :=
  (lt_firstWall start).trans_le (Loop.le_run (searchWall_eq_ok.mp hsearch))

end NotifyHub.Cron
