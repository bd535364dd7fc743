import NotifyHub.CronMatches
import NotifyHub.CronZones
import Mathlib.Tactic

/-!
# Cron expressions in UTC

What an accepted expression matches comes again within nine years: a day of the
month in the next leap year, a weekday in the first week of the month of the
next year.  So in UTC the search never gives up, and its result is the first
minute which matches.
-/

namespace NotifyHub.Cron

open Calendar

/-- A whole minute which the fields match.  Where both day fields are
restricted, one of them is enough. -/
structure Matches (fields : CronFields) (instant : ℤ) : Prop where
  whole : minuteMs ∣ instant
  minute : Allows fields.minute (civil instant).mi
  hour : Allows fields.hour (civil instant).h
  month : Allows fields.month (civil instant).mo
  day :
    if .star ∉ fields.day ∧ .star ∉ fields.dow then
      AllowsDay fields.day instant ∨ Allows fields.dow (civil instant).dow
    else AllowsDay fields.day instant ∧ Allows fields.dow (civil instant).dow

/-! ## Times of a month -/

/-- A time of a month. -/
def timeOf (month d h mi : ℤ) : ℤ :=
  (monthStart month + (d - 1)) * dayMs + h * hourMs + mi * minuteMs

structure InMonth (month d h mi : ℤ) : Prop where
  firstDay : 1 ≤ d
  lastDay : d ≤ monthLength month
  firstHour : 0 ≤ h
  lastHour : h < 24
  firstMinute : 0 ≤ mi
  lastMinute : mi < 60

theorem timeOf_day {month d h mi : ℤ} (hin : InMonth month d h mi) :
    timeOf month d h mi / dayMs = monthStart month + (d - 1) := by
  obtain ⟨-, -, hh, hhour, hmi, hminute⟩ := hin
  simp only [timeOf, dayMs, hourMs, minuteMs]
  omega

theorem timeOf_month {month d h mi : ℤ} (hin : InMonth month d h mi) :
    monthOfDay (timeOf month d h mi / dayMs) = month := by
  have hd := hin.firstDay
  have hlast := hin.lastDay
  have hnext := monthStart_succ month
  rw [timeOf_day hin]
  exact monthOfDay_eq (by omega) (by omega)

theorem civil_timeOf {month d h mi : ℤ} (hin : InMonth month d h mi) :
    civil (timeOf month d h mi) =
      ⟨month / 12, month % 12 + 1, d, h, mi, weekday (monthStart month + (d - 1))⟩ := by
  have hday := timeOf_day hin
  have hmonth := timeOf_month hin
  obtain ⟨-, -, hh, hhour, hmi, hminute⟩ := hin
  have hhours : timeOf month d h mi / hourMs % 24 = h := by
    simp only [timeOf, dayMs, hourMs, minuteMs]
    omega
  have hminutes : timeOf month d h mi / minuteMs % 60 = mi := by
    simp only [timeOf, dayMs, hourMs, minuteMs]
    omega
  simp only [civil, hmonth, hhours, hminutes]
  rw [hday]
  congr 1
  ring

theorem dvd_timeOf (month d h mi : ℤ) : minuteMs ∣ timeOf month d h mi := by
  simp only [timeOf, dayMs, hourMs, minuteMs]
  omega

/-! ## Matches come again -/

section Again

variable {fields : CronFields} {wall start : ℤ}

theorem inMonth_civil (wall month d : ℤ) (hfirst : 1 ≤ d) (hlast : d ≤ monthLength month) :
    InMonth month d (civil wall).h (civil wall).mi :=
  ⟨hfirst, hlast, (civil_h wall).1, (civil_h wall).2, (civil_mi wall).1,
    (civil_mi wall).2⟩

/-- The same month of the year, hour and minute match again on a day which
matches. -/
theorem Hit.again
    {month d : ℤ} (hhit : Hit fields wall)
    (hmonth : month % 12 = monthOfDay (wall / dayMs) % 12) (hfirst : 1 ≤ d)
    (hlast : d ≤ monthLength month)
    (hday : Allows fields.day d ∨ .last ∈ fields.day ∧ d = monthLength month)
    (hdow : Allows fields.dow (weekday (monthStart month + (d - 1)))) :
    Hit fields (timeOf month d (civil wall).h (civil wall).mi) := by
  have hin := inMonth_civil wall month d hfirst hlast
  have hread := civil_timeOf hin
  have hmo : (civil wall).mo = month % 12 + 1 := by
    rw [hmonth]
    rfl
  refine ⟨dvd_timeOf _ _ _ _, ?_, ?_, ?_, ?_, ?_⟩
  · rw [hread, ← hmo]
    exact hhit.month
  · rw [AllowsDay, timeOf_month hin, hread]
    exact hday
  · rw [hread]
    exact hdow
  · rw [hread]
    exact hhit.hour
  · rw [hread]
    exact hhit.minute

/-- A later year is a later time. -/
theorem lt_timeOf
    {year place d h mi : ℤ} (hin : InMonth (12 * year + place) d h mi)
    (hplace : 0 ≤ place) (hyear : place < 12)
    (hlater : (civil (firstWall start)).y < year) :
    start < timeOf (12 * year + place) d h mi ∧
      (civil (timeOf (12 * year + place) d h mi)).y = year := by
  have hy : (civil (timeOf (12 * year + place) d h mi)).y = year := by
    rw [civil_timeOf hin]
    dsimp only
    omega
  refine ⟨?_, hy⟩
  by_contra hearly
  have hmono := civil_y_mono
    ((not_lt.mp hearly).trans (lt_firstWall start).le)
  omega

/-- With one restricted day field at most, a match comes again within nine
years. -/
theorem Hit.exists_later
    (hhit : Hit fields wall) (hday : .star ∈ fields.day ∨ .star ∈ fields.dow)
    (start : ℤ) :
    ∃ other, start < other ∧ Hit fields other ∧
      (civil other).y ≤ (civil (firstWall start)).y + 50 := by
  have hplace := Int.emod_nonneg (monthOfDay (wall / dayMs)) (by decide : (12 : ℤ) ≠ 0)
  have hyear := Int.emod_lt_of_pos (monthOfDay (wall / dayMs))
    (by decide : (0 : ℤ) < 12)
  have hd := civil_d wall
  rcases hday with hanyDay | hanyDow
  · -- The weekday in the first week of the month, next year.
    generalize hmonth : monthOfDay (wall / dayMs) % 12 = place at *
    have hlength := monthLength_bounds
      (12 * ((civil (firstWall start)).y + 1) + place)
    have hweekday := civil_dow wall
    generalize hstart : monthStart
      (12 * ((civil (firstWall start)).y + 1) + place) = firstDay
    have hmatches : weekday (firstDay +
        (1 + ((civil wall).dow - weekday firstDay) % 7 - 1)) =
          (civil wall).dow := by
      unfold weekday
      omega
    have hin := inMonth_civil wall
      (12 * ((civil (firstWall start)).y + 1) + place)
      (1 + ((civil wall).dow - weekday firstDay) % 7) (by omega) (by omega)
    obtain ⟨hlater, hy⟩ := lt_timeOf hin hplace hyear (lt_add_one _)
    refine ⟨_, hlater, hhit.again ?_ hin.firstDay hin.lastDay (.inl (.inl hanyDay))
      ?_, ?_⟩
    · omega
    · rw [hstart, hmatches]
      exact hhit.dow
    · omega
  · -- The day of the month in a leap year.
    obtain ⟨year, hlater, hsoon, hleap⟩ := exists_leapYear (civil (firstWall start)).y
    have hlong : monthLength (monthOfDay (wall / dayMs)) ≤
        monthLength (12 * year + monthOfDay (wall / dayMs) % 12) :=
      monthLength_le_of_leap hleap
    generalize hmonth : monthOfDay (wall / dayMs) % 12 = place at *
    have hlength := monthLength_bounds (12 * year + place)
    obtain ⟨d, hfirst, hlast, hallowed⟩ : ∃ d, 1 ≤ d ∧
        d ≤ monthLength (12 * year + place) ∧
        (Allows fields.day d ∨
          .last ∈ fields.day ∧ d = monthLength (12 * year + place)) := by
      rcases hhit.day with hnumber | ⟨hlastMem, -⟩
      · exact ⟨(civil wall).d, hd.1, hd.2.trans hlong, .inl hnumber⟩
      · exact ⟨_, by omega, le_refl _, .inr ⟨hlastMem, rfl⟩⟩
    have hin := inMonth_civil wall (12 * year + place) d hfirst hlast
    obtain ⟨hafter, hy⟩ := lt_timeOf hin hplace hyear hlater
    refine ⟨_, hafter, hhit.again ?_ hfirst hlast hallowed (.inl hanyDow), ?_⟩
    · omega
    · omega

end Again

/-! ## The search in UTC -/

section Utc

variable {fields : CronFields} {schedule : CronSchedule} {rounds : ℕ}
  {instant wall fire : ℤ} {moment : Moment}

theorem instantsOf_utc (wall : ℤ) : instantsOf utc wall = [wall] := by
  simp [instantsOf, utc]

theorem addTimezone_utc (rounds : ℕ) (wall : ℤ) (now : Moment) :
    addTimezone utc rounds wall now = some ⟨⟨wall, wall, 0⟩, true⟩ := by
  unfold addTimezone
  rw [instantsOf_utc]
  simp [chosenInstant]

theorem firstMoment_utc {now : Moment} :
    Returns (firstMoment utc rounds now fields schedule) moment ↔
      ∃ wall, searchWall now.wall fields schedule = .ok wall ∧
        ⟨wall, wall, 0⟩ = moment := by
  unfold firstMoment
  simp only [returns_bind, returns_ofSearch, returns_ofRounds, addTimezone_utc,
    Option.some.injEq, exists_eq_left', Bool.true_eq_false, false_and, if_false,
    returns_pure]

theorem calcAware_utc :
    Returns (calcAware utc rounds (momentAt utc instant) fields schedule) moment ↔
      ∃ wall, searchWall instant fields schedule = .ok wall ∧
        ⟨wall, wall, 0⟩ = moment := by
  have hnow : momentAt utc instant = ⟨instant, instant, 0⟩ := by
    rw [momentAt, utc, add_zero]
  rw [calcAware, hnow, returns_bind]
  simp only [firstMoment_utc]
  constructor
  · rintro ⟨first, ⟨wall, hsearch, rfl⟩, hreturns⟩
    rw [if_pos (sub_self 0)] at hreturns
    exact ⟨wall, hsearch, returns_pure.mp hreturns⟩
  · rintro ⟨wall, hsearch, rfl⟩
    refine ⟨_, ⟨wall, hsearch, rfl⟩, ?_⟩
    rw [if_pos (sub_self 0)]
    exact returns_pure.mpr rfl

/-- The fields of the two searches for either day field. -/
def CronFields.byDay (fields : CronFields) : CronFields :=
  { fields with dow := [.star] }

def CronFields.byWeekday (fields : CronFields) : CronFields :=
  { fields with day := [.star] }

theorem nextFireAfter_utc_either
    (hboth : .star ∉ fields.day ∧ .star ∉ fields.dow)
    (hfields : schedule.fields = fields) :
    Returns (nextFireAfter utc rounds schedule instant) fire ↔
      ∃ first second,
        searchWall instant fields.byDay schedule = .ok first ∧
        searchWall instant fields.byWeekday schedule = .ok second ∧
        min first second = fire := by
  unfold nextFireAfter
  dsimp only
  rw [hfields, if_pos hboth]
  simp only [returns_bind, calcAware_utc, returns_pure]
  constructor
  · rintro ⟨byDay, ⟨first, hfirst, rfl⟩, byWeekday, ⟨second, hsecond, rfl⟩, rfl⟩
    refine ⟨first, second, hfirst, hsecond, ?_⟩
    split
    · next hlt => exact min_eq_left hlt.le
    · next hge => exact min_eq_right (not_lt.mp hge)
  · rintro ⟨first, second, hfirst, hsecond, rfl⟩
    refine ⟨_, ⟨first, hfirst, rfl⟩, _, ⟨second, hsecond, rfl⟩, ?_⟩
    split
    · next hlt => exact (min_eq_left hlt.le).symm
    · next hge => exact (min_eq_right (not_lt.mp hge)).symm

theorem nextFireAfter_utc_both
    (hany : ¬(.star ∉ fields.day ∧ .star ∉ fields.dow))
    (hfields : schedule.fields = fields) :
    Returns (nextFireAfter utc rounds schedule instant) fire ↔
      searchWall instant fields schedule = .ok fire := by
  unfold nextFireAfter
  dsimp only
  rw [hfields, if_neg hany]
  simp only [returns_bind, calcAware_utc, returns_pure]
  constructor
  · rintro ⟨moment, ⟨wall, hsearch, rfl⟩, rfl⟩
    exact hsearch
  · intro hsearch
    exact ⟨_, ⟨fire, hsearch, rfl⟩, rfl⟩

theorem byDay_shape (hshape : fields.Shape) : fields.byDay.Shape := by
  intro field
  cases field with
  | minute => exact hshape .minute
  | hour => exact hshape .hour
  | day => exact hshape .day
  | month => exact hshape .month
  | dow => exact fieldShape_star

theorem byWeekday_shape (hshape : fields.Shape) : fields.byWeekday.Shape := by
  intro field
  cases field with
  | minute => exact hshape .minute
  | hour => exact hshape .hour
  | day => exact fieldShape_star
  | month => exact hshape .month
  | dow => exact hshape .dow

theorem matches_either (hboth : .star ∉ fields.day ∧ .star ∉ fields.dow) :
    Matches fields wall ↔ Hit fields.byDay wall ∨ Hit fields.byWeekday wall := by
  constructor
  · rintro ⟨hwhole, hminute, hhour, hmonth, hday⟩
    rw [if_pos hboth] at hday
    rcases hday with hday | hdow
    · exact .inl ⟨hwhole, hmonth, hday, .inl List.mem_cons_self, hhour, hminute⟩
    · exact .inr ⟨hwhole, hmonth, .inl (.inl List.mem_cons_self), hdow, hhour,
        hminute⟩
  · rintro (hhit | hhit)
    · refine ⟨hhit.whole, hhit.minute, hhit.hour, hhit.month, ?_⟩
      rw [if_pos hboth]
      exact .inl hhit.day
    · refine ⟨hhit.whole, hhit.minute, hhit.hour, hhit.month, ?_⟩
      rw [if_pos hboth]
      exact .inr hhit.dow

theorem matches_both (hany : ¬(.star ∉ fields.day ∧ .star ∉ fields.dow)) :
    Matches fields wall ↔ Hit fields wall := by
  constructor
  · rintro ⟨hwhole, hminute, hhour, hmonth, hday⟩
    rw [if_neg hany] at hday
    exact ⟨hwhole, hmonth, hday.1, hday.2, hhour, hminute⟩
  · intro hhit
    refine ⟨hhit.whole, hhit.minute, hhit.hour, hhit.month, ?_⟩
    rw [if_neg hany]
    exact ⟨hhit.day, hhit.dow⟩

/-- A search which has found a time once finds one from every start. -/
theorem searchWall_again
    {start clock found : ℤ} (hshape : fields.Shape) (hplain : schedule.Plain)
    (hday : .star ∈ fields.day ∨ .star ∈ fields.dow) (hclock : 0 ≤ clock)
    (hfound : searchWall clock fields schedule = .ok found) (hstart : 0 ≤ start) :
    ∃ wall, searchWall start fields schedule = .ok wall ∧
      IsLeast {time | start < time ∧ Hit fields time} wall := by
  have hhit := (searchWall_least hshape hplain hclock hfound).1.2
  obtain ⟨other, hlater, hagain, hyears⟩ := hhit.exists_later hday start
  obtain ⟨wall, hwall⟩ :=
    searchWall_finds hshape hplain hstart hlater hagain hyears
  exact ⟨wall, hwall, searchWall_least hshape hplain hstart hwall⟩

/-- The first match where the expression has fired once. -/
theorem nextFireAfter_utc_again
    {clock before : ℤ} {checkRounds : ℕ} (hshape : schedule.fields.Shape)
    (hplain : schedule.Plain) (hclock : 0 ≤ clock) (hinstant : 0 ≤ instant)
    (hfires : Returns (nextFireAfter utc checkRounds schedule clock) before) :
    ∃ fire, Returns (nextFireAfter utc rounds schedule instant) fire ∧
      IsLeast {time | instant < time ∧ Matches schedule.fields time} fire := by
  by_cases hboth : .star ∉ schedule.fields.day ∧ .star ∉ schedule.fields.dow
  · obtain ⟨dayBefore, weekdayBefore, hday, hweekday, -⟩ :=
      (nextFireAfter_utc_either hboth rfl).mp hfires
    obtain ⟨first, hfirst, hfirstLeast⟩ := searchWall_again (byDay_shape hshape)
      hplain (.inr List.mem_cons_self) hclock hday hinstant
    obtain ⟨second, hsecond, hsecondLeast⟩ := searchWall_again
      (byWeekday_shape hshape) hplain (.inl List.mem_cons_self) hclock hweekday
      hinstant
    refine ⟨min first second, (nextFireAfter_utc_either hboth rfl).mpr
      ⟨first, second, hfirst, hsecond, rfl⟩, ?_⟩
    have hunion : {time | instant < time ∧ Matches schedule.fields time} =
        {time | instant < time ∧ Hit schedule.fields.byDay time} ∪
          {time | instant < time ∧ Hit schedule.fields.byWeekday time} := by
      ext time
      simp only [Set.mem_ofPred_eq, Set.mem_union, matches_either hboth]
      exact and_or_left
    rw [hunion]
    exact hfirstLeast.union hsecondLeast
  · have hany : .star ∈ schedule.fields.day ∨ .star ∈ schedule.fields.dow := by
      by_contra hneither
      rw [not_or] at hneither
      exact hboth hneither
    obtain ⟨fire, hfire, hleast⟩ := searchWall_again hshape hplain hany hclock
      ((nextFireAfter_utc_both hboth rfl).mp hfires) hinstant
    refine ⟨fire, (nextFireAfter_utc_both hboth rfl).mpr hfire, ?_⟩
    simpa only [matches_both hboth] using hleast

/-- What the dashboard accepts has been expanded, and fires in UTC. -/
theorem fires_of_accepted
    {lower : Text → Text} {clock : ℤ} {expression : Text}
    (haccepted : validateCronExpression lower rounds clock expression =
      some none) :
    ∃ schedule before,
      expandSchedule lower (trim expression) = .ok schedule ∧
        Returns (nextFireAfter utc rounds schedule clock) before := by
  unfold validateCronExpression at haccepted
  dsimp only at haccepted
  split_ifs at haccepted
  · cases haccepted
  · cases haccepted
  · cases haccepted
  split at haccepted
  · cases haccepted
  · cases haccepted
  · next schedule hexpand =>
      obtain ⟨result, hresult, hnone⟩ := Option.map_eq_some_iff.mp haccepted
      cases result with
      | error error => cases hnone
      | ok before => exact ⟨schedule, before, hexpand, hresult⟩

/-- The years for which the search is promised. -/
def InYears (instant : ℤ) : Prop :=
  1970 ≤ (civil instant).y ∧ (civil instant).y ≤ 9900

theorem InYears.nonneg (hyears : InYears instant) : 0 ≤ instant := by
  by_contra hbefore
  have hlast : (civil (-1)).y = 1969 := by decide
  have hmono := civil_y_mono (show instant ≤ -1 by omega)
  rw [hlast] at hmono
  exact absurd hyears.1 (by omega)

/-- In UTC the search for an accepted expression never throws, and its result is
the first minute after the instant which matches. -/
theorem nextFireAfter_utc_least
    {lower : Text → Text} {expression : Text} {schedule : CronSchedule}
    {clock instant : ℤ} {checkRounds : ℕ} (hclock : InYears clock)
    (haccepted : validateCronExpression lower checkRounds clock expression =
      some none)
    (hexpand : expandSchedule lower (trim expression) = .ok schedule)
    (hplain : PlainExpression lower (trim expression))
    (hinstant : InYears instant) (rounds : ℕ) :
    ∃ fire, Returns (nextFireAfter utc rounds schedule instant) fire ∧
      IsLeast {time | instant < time ∧ Matches schedule.fields time} fire := by
  obtain ⟨expanded, before, hexpanded, hfires⟩ := fires_of_accepted haccepted
  rw [hexpand] at hexpanded
  cases hexpanded
  exact nextFireAfter_utc_again (expandSchedule_shape hexpand)
    (expandSchedule_plain hplain hexpand) hclock.nonneg hinstant.nonneg hfires

/-- The expansion of an expression for the twenty-ninth of February. -/
def leapDaySchedule : CronSchedule where
  fields := {
    minute := [.num 0]
    hour := [.num 0]
    day := [.num 29]
    month := [.num 2]
    dow := [.star] }
  nth := []
  nearest := []

theorem nextFireAfter_utc_least_leapDay :
    ∃ fire,
      Returns (nextFireAfter utc 0 leapDaySchedule 1785931200000) fire ∧
        IsLeast {time | 1785931200000 < time ∧
          Matches leapDaySchedule.fields time} fire := by
  have hyears : InYears 1785931200000 :=
    ⟨by decide +kernel, by decide +kernel⟩
  have haccepted : validateCronExpression id 0 1785931200000
      "0 0 29 feb *".toList = some none := by
    decide +kernel
  have hexpand : expandSchedule id (trim "0 0 29 feb *".toList) =
      .ok leapDaySchedule := by
    decide +kernel
  have hplain : PlainExpression id (trim "0 0 29 feb *".toList) :=
    ⟨by decide +kernel, by decide +kernel⟩
  exact nextFireAfter_utc_least hyears haccepted hexpand hplain hyears 0

end Utc

end NotifyHub.Cron
