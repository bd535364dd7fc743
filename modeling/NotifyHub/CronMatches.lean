import NotifyHub.CronSearch
import Mathlib.Tactic

/-!
# What the search passes over

A jump of `searchWall` passes no time which all fields allow, and where nothing
is left to jump over all fields allow the time.  With the rules of searches
that jump, the result is the first time which the fields allow.
-/

namespace NotifyHub.Cron

open Calendar JumpSearch

/-- A number which a field allows. -/
def Allows (values : List CronValue) (x : ℤ) : Prop :=
  .star ∈ values ∨ ∃ value : ℕ, .num value ∈ values ∧ (value : ℤ) = x

/-- A day of the month; `L` is the last one. -/
def AllowsDay (values : List CronValue) (wall : ℤ) : Prop :=
  Allows values (civil wall).d ∨
    .last ∈ values ∧ (civil wall).d = monthLength (monthOfDay (wall / dayMs))

/-- A whole minute which every field allows. -/
structure Hit (fields : CronFields) (wall : ℤ) : Prop where
  whole : minuteMs ∣ wall
  month : Allows fields.month (civil wall).mo
  day : AllowsDay fields.day wall
  dow : Allows fields.dow (civil wall).dow
  hour : Allows fields.hour (civil wall).h
  minute : Allows fields.minute (civil wall).mi

/-! ## The next value of a field -/

section NextValue

variable {field : CronField} {values : List CronValue} {x rangeVal k : ℤ}
  {value : ℕ}

theorem find_least
    {list : List ℤ} {found : ℤ} (hsorted : list.Pairwise (· ≤ ·))
    (hfind : list.find? (x ≤ ·) = some found) :
    ∀ other ∈ list, x ≤ other → found ≤ other := by
  intro other hother hle
  obtain ⟨-, before, after, rfl, hbefore⟩ :=
    List.find?_eq_some_iff_append.mp hfind
  rcases List.mem_append.mp hother with hfirst | hlast
  · have hsmall := hbefore other hfirst
    simp only [Bool.not_eq_true', decide_eq_false_iff_not] at hsmall
    exact absurd hle hsmall
  · rcases List.mem_cons.mp hlast with rfl | hrest
    · exact le_refl _
    · exact (List.pairwise_cons.mp (List.pairwise_append.mp hsorted).2.1).1 _
        hrest

theorem within_num {u : ℤ} :
    (CronValue.num value).within rangeVal = some u ↔
      (value : ℤ) ≤ rangeVal ∧ (value : ℤ) = u := by
  simp only [CronValue.within]
  split
  · next hlarge => simp [not_le.mpr hlarge]
  · next hsmall => simp [not_lt.mp hsmall]

/-- The values of a field as numbers are ascending. -/
theorem within_pairwise (hshape : FieldShape field values) (rangeVal : ℤ) :
    (values.filterMap (·.within rangeVal)).Pairwise (· ≤ ·) := by
  refine List.pairwise_filterMap.mpr ?_
  refine hshape.ascending.imp_of_mem ?_
  intro first second hfirst hsecond hrank low hlow high hhigh
  cases second with
  | star => cases hhigh
  | last =>
      cases hhigh
      cases first with
      | star => cases hlow
      | last => exact (Option.some.inj hlow).ge
      | num value =>
          obtain ⟨hle, rfl⟩ := within_num.mp hlow
          exact hle
  | num larger =>
      obtain ⟨-, rfl⟩ := within_num.mp hhigh
      cases first with
      | star => cases hlow
      | last =>
          have hmax := (hshape.inField _ hsecond).2.trans_lt field.max_lt
          simp only [CronValue.rank] at hrank
          omega
      | num value =>
          obtain ⟨-, rfl⟩ := within_num.mp hlow
          simp only [CronValue.rank] at hrank
          omega

/-- No value of a field is before the first one. -/
theorem firstAllowed_le
    (hshape : FieldShape field values) (hstar : .star ∉ values)
    (hlast : .last ∉ values) (hvalue : .num value ∈ values) (rangeVal : ℤ) :
    firstAllowed values rangeVal ≤ value := by
  cases values with
  | nil => cases hvalue
  | cons first rest =>
      cases first with
      | star => exact absurd List.mem_cons_self hstar
      | last => exact absurd List.mem_cons_self hlast
      | num first =>
          rcases List.mem_cons.mp hvalue with hsame | hrest
          · cases hsame
            exact le_refl _
          · have hrank :=
              (List.pairwise_cons.mp hshape.ascending).1 _ hrest
            simp only [CronValue.rank] at hrank
            simp only [firstAllowed]
            omega

/-- The next value is the least one from `x` on, or the first one after
`rangeVal`. -/
theorem nextNearestDiff_cases
    (hshape : FieldShape field values) (x rangeVal : ℤ) :
    (∃ found ∈ values.filterMap (·.within rangeVal), x ≤ found ∧
        nextNearestDiff x values rangeVal = found - x ∧
        ∀ other ∈ values.filterMap (·.within rangeVal),
          x ≤ other → found ≤ other) ∨
      (∀ other ∈ values.filterMap (·.within rangeVal), other < x) ∧
        nextNearestDiff x values rangeVal =
          firstAllowed values rangeVal - x + rangeVal := by
  unfold nextNearestDiff
  split
  · next found hfind =>
      have hle := List.find?_some hfind
      exact .inl ⟨found, List.mem_of_find?_eq_some hfind,
        of_decide_eq_true hle, rfl,
        find_least (within_pairwise hshape rangeVal) hfind⟩
  · next hnone =>
      refine .inr ⟨fun other hother => ?_, rfl⟩
      have hbefore := List.find?_eq_none.mp hnone other hother
      simpa using hbefore

theorem mem_within_num
    (hvalue : .num value ∈ values) (hle : (value : ℤ) ≤ rangeVal) :
    (value : ℤ) ∈ values.filterMap (·.within rangeVal) :=
  List.mem_filterMap.mpr ⟨_, hvalue, within_num.mpr ⟨hle, rfl⟩⟩

theorem mem_within_last (hlast : .last ∈ values) :
    rangeVal ∈ values.filterMap (·.within rangeVal) :=
  List.mem_filterMap.mpr ⟨_, hlast, rfl⟩

theorem within_le {u : ℤ} (hu : u ∈ values.filterMap (·.within rangeVal)) :
    u ≤ rangeVal := by
  obtain ⟨value, -, hvalue⟩ := List.mem_filterMap.mp hu
  cases value with
  | star => cases hvalue
  | last => exact (Option.some.inj hvalue).ge
  | num value =>
      obtain ⟨hle, rfl⟩ := within_num.mp hvalue
      exact hle

/-- No value of the field is passed. -/
theorem nextNearestDiff_skips
    (hshape : FieldShape field values) (hstar : .star ∉ values)
    (hx : x ≤ rangeVal) (hk : 0 ≤ k) (hlt : k < nextNearestDiff x values rangeVal)
    (hvalue : .num value ∈ values) :
    (x + k ≤ rangeVal → (value : ℤ) ≠ x + k) ∧
      (rangeVal ≤ x + k → x + k - rangeVal < value) := by
  rcases nextNearestDiff_cases hshape x rangeVal with
    ⟨found, hfound, -, hdiff, hleast⟩ | ⟨hbefore, hdiff⟩
  · have hrange := within_le hfound
    refine ⟨fun hle hsame => ?_, fun hge => by omega⟩
    have hnext := hleast _ (mem_within_num hvalue (hsame.trans_le hle)) (by omega)
    omega
  · refine ⟨fun hle hsame => ?_, fun hge => ?_⟩
    · have hsmall := hbefore _ (mem_within_num hvalue (hsame.trans_le hle))
      omega
    · have hlast : .last ∉ values := fun hmem =>
        absurd (hbefore _ (mem_within_last hmem)) (not_lt.mpr hx)
      have hfirst := firstAllowed_le hshape hstar hlast hvalue rangeVal
      omega

/-- A field with `L` does not look beyond the end of the month. -/
theorem nextNearestDiff_last_le
    (hshape : FieldShape field values) (hx : x ≤ rangeVal)
    (hlast : .last ∈ values) :
    nextNearestDiff x values rangeVal ≤ rangeVal - x := by
  rcases nextNearestDiff_cases hshape x rangeVal with
    ⟨found, hfound, -, hdiff, -⟩ | ⟨hbefore, -⟩
  · have hrange := within_le hfound
    omega
  · exact absurd (hbefore _ (mem_within_last hlast)) (not_lt.mpr hx)

/-- Nothing to jump over is a value of the field. -/
theorem eq_of_nextNearestDiff_eq_zero
    (hshape : FieldShape field values)
    (hfirst : 0 < firstAllowed values rangeVal - x + rangeVal)
    (hzero : nextNearestDiff x values rangeVal = 0) :
    Allows values x ∨ .last ∈ values ∧ x = rangeVal := by
  rcases nextNearestDiff_cases hshape x rangeVal with
    ⟨found, hfound, -, hdiff, -⟩ | ⟨-, hdiff⟩
  · have hsame : found = x := by omega
    obtain ⟨value, hmem, hvalue⟩ := List.mem_filterMap.mp hfound
    cases value with
    | star => cases hvalue
    | last =>
        cases hvalue
        exact .inr ⟨hmem, hsame.symm⟩
    | num value =>
        obtain ⟨-, hnumber⟩ := within_num.mp hvalue
        exact .inl (.inr ⟨value, hmem, hnumber.trans hsame⟩)
  · omega

theorem not_allows
    (hstar : .star ∉ values)
    (hnum : ∀ value : ℕ, .num value ∈ values → (value : ℤ) ≠ x) :
    ¬Allows values x := by
  rintro (hany | ⟨value, hmem, hsame⟩)
  · exact hstar hany
  · exact hnum value hmem hsame

end NextValue

/-! ## What a step passes over -/

section Steps

variable {wall other next : ℤ} {values : List CronValue} {field : CronField}

theorem FieldShape.num_le
    (hshape : FieldShape field values) {value : ℕ}
    (hvalue : .num value ∈ values) : field.min ≤ value ∧ value ≤ field.max :=
  hshape.inField _ hvalue

theorem jumpToAllowed_skips
    {unit shift rangeVal : ℤ} (hshape : FieldShape field values)
    (hmax : (field.max : ℤ) < rangeVal) (hunit : 0 < unit)
    (hjump : jumpToAllowed values ((wall / unit + shift) % rangeVal) rangeVal
      (wall / unit * unit) unit = some next)
    (hle : wall ≤ other) (hlt : other < next) :
    ¬Allows values ((other / unit + shift) % rangeVal) := by
  unfold jumpToAllowed at hjump
  split at hjump
  · cases hjump
  next hstar =>
    obtain ⟨-, rfl⟩ := jumpBy_eq_some.mp hjump
    have hrange : 0 < rangeVal :=
      (Int.natCast_nonneg field.max).trans_lt hmax
    have hlow := Int.emod_nonneg (wall / unit + shift) hrange.ne'
    have hhigh := Int.emod_lt_of_pos (wall / unit + shift) hrange
    have hfirst : wall / unit ≤ other / unit := Int.ediv_le_ediv hunit hle
    rw [← add_mul] at hlt
    have hlast := Int.ediv_lt_of_lt_mul hunit hlt
    generalize hx : (wall / unit + shift) % rangeVal = x at *
    obtain ⟨k, hk⟩ : ∃ k, other / unit = wall / unit + k :=
      ⟨other / unit - wall / unit, by omega⟩
    have hsum : (other / unit + shift) % rangeVal = (x + k) % rangeVal := by
      rw [hk, ← hx, Int.emod_add_emod, add_right_comm]
    rw [hsum]
    refine not_allows hstar fun value hvalue hsame => ?_
    obtain ⟨hnear, hfar⟩ := nextNearestDiff_skips hshape hstar hhigh.le
      (show 0 ≤ k by omega) (by omega) hvalue
    have hvalueMax := (hshape.num_le hvalue).2
    rcases lt_or_ge (x + k) rangeVal with hwithin | hbeyond
    · rw [Int.emod_eq_of_lt (by omega) hwithin] at hsame
      exact hnear hwithin.le hsame
    · have hvalueLarge := hfar hbeyond
      rw [← Int.sub_emod_right, Int.emod_eq_of_lt (by omega) (by omega)] at hsame
      omega

theorem allows_of_jumpToAllowed
    {x rangeVal floor unit : ℤ} (hshape : FieldShape field values)
    (hfield : field ≠ .day) (hx : x < rangeVal) (hrange : 0 ≤ rangeVal)
    (hjump : jumpToAllowed values x rangeVal floor unit = none) :
    Allows values x := by
  unfold jumpToAllowed at hjump
  split at hjump
  · next hany => exact .inl hany
  next hstar =>
    have hzero := jumpBy_eq_none.mp hjump
    have hfirst : 0 ≤ firstAllowed values rangeVal := by
      unfold firstAllowed
      split
      · exact Int.natCast_nonneg _
      · exact hrange
    rcases eq_of_nextNearestDiff_eq_zero hshape (by omega) hzero with
      hallows | ⟨hlast, -⟩
    · exact hallows
    · exact absurd (hshape.inField _ hlast) hfield

theorem utcYear_of_nonneg {y : ℤ} (hy : 1970 ≤ y) : utcYear y = y :=
  if_neg (by omega)

theorem civil_y_ge (hwall : 0 ≤ wall) : 1970 ≤ (civil wall).y := by
  have hstart : (civil 0).y = 1970 := by decide
  rw [← hstart]
  exact civil_y_mono hwall

theorem wallOf_civil_of_nonneg (hwall : 0 ≤ wall) :
    wallOf (civil wall).y (civil wall).mo (civil wall).d 0 0 =
      wall / dayMs * dayMs :=
  wallOf_civil_of_utcYear (utcYear_of_nonneg (civil_y_ge hwall))

theorem lastDayOfMonth_civil (hwall : 0 ≤ wall) :
    lastDayOfMonth (civil wall).y (civil wall).mo =
      monthLength (monthOfDay (wall / dayMs)) := by
  rw [lastDayOfMonth_eq, utcYear_of_nonneg (civil_y_ge hwall), civil_month]

theorem firstAllowed_pos
    (hshape : FieldShape field values) (hfield : 1 ≤ field.min) {rangeVal : ℤ}
    (hrange : 0 < rangeVal) : 0 < firstAllowed values rangeVal := by
  unfold firstAllowed
  split
  · next first rest =>
      have hmin := (hshape.num_le List.mem_cons_self).1
      omega
  · exact hrange

theorem Proc.month_skips
    (hshape : FieldShape .month values) (hwall : 0 ≤ wall)
    (hjump : Proc.month values (civil wall) = some next)
    (hle : wall ≤ other) (hlt : other < next) :
    ¬Allows values (civil other).mo := by
  unfold Proc.month at hjump
  split at hjump
  · cases hjump
  next hstar =>
    dsimp only at hjump
    split at hjump
    · cases hjump
    cases hjump
    have hyear := civil_y_ge hwall
    have hplace := civil_mo wall
    have hmonth := civil_month wall
    have hother := civil_month other
    have hotherPlace := civil_mo other
    have hdiff := nextNearestDiff_ge (civil wall).mo values
      (show (0 : ℤ) ≤ 12 by decide)
    have hfirst : monthOfDay (wall / dayMs) ≤ monthOfDay (other / dayMs) :=
      monthOfDay_mono (Int.ediv_le_ediv (by decide) hle)
    have hlast : monthOfDay (other / dayMs) <
        monthOfDay (wall / dayMs) + nextNearestDiff (civil wall).mo values 12 := by
      rw [wallOf, utcYear_of_nonneg (by omega)] at hlt
      have hbefore : other / dayMs < monthStart
          (monthOfDay (wall / dayMs) +
            nextNearestDiff (civil wall).mo values 12) := by
        refine Int.ediv_lt_of_lt_mul (by decide) (hlt.trans_eq ?_)
        rw [zero_mul, zero_mul, add_zero, add_zero, sub_self, add_zero]
        congr 2
        omega
      exact monthStart_strictMono.lt_iff_lt.mp
        ((monthOfDay_spec (other / dayMs)).1.trans_lt hbefore)
    refine not_allows hstar fun value hvalue hsame => ?_
    have hskips := nextNearestDiff_skips hshape hstar hplace.2
      (show 0 ≤ monthOfDay (other / dayMs) - monthOfDay (wall / dayMs) by omega)
      (by omega) hvalue
    omega

theorem Proc.dayOfMonth_skips
    (hshape : FieldShape .day values) (hwall : 0 ≤ wall)
    (hjump : Proc.dayOfMonth values (civil wall) = some next)
    (hle : wall ≤ other) (hlt : other < next) :
    ¬AllowsDay values other := by
  unfold Proc.dayOfMonth at hjump
  split at hjump
  · cases hjump
  next hstar =>
    dsimp only at hjump
    split at hjump
    · cases hjump
    obtain ⟨-, rfl⟩ := jumpBy_eq_some.mp hjump
    rw [wallOf_civil_of_nonneg hwall, lastDayOfMonth_civil hwall, ← add_mul] at hlt
    have hfirst : wall / dayMs ≤ other / dayMs :=
      Int.ediv_le_ediv (by decide) hle
    have hlast := Int.ediv_lt_of_lt_mul (by decide) hlt
    have hd := (civil_d wall).2
    have hwallDay : (civil wall).d =
        wall / dayMs - monthStart (monthOfDay (wall / dayMs)) + 1 := rfl
    have hotherDay : (civil other).d =
        other / dayMs - monthStart (monthOfDay (other / dayMs)) + 1 := rfl
    have hnext := monthStart_succ (monthOfDay (wall / dayMs))
    generalize hdiff : nextNearestDiff (civil wall).d values
      (monthLength (monthOfDay (wall / dayMs))) = diff at hlast
    -- The day is in the month of the wall, or as many days into a later one.
    have hmonth : monthOfDay (other / dayMs) = monthOfDay (wall / dayMs) ∨
        monthStart (monthOfDay (wall / dayMs) + 1) ≤
          monthStart (monthOfDay (other / dayMs)) := by
      rcases (monthOfDay_mono hfirst).eq_or_lt with hsame | hlater
      · exact .inl hsame.symm
      · exact .inr (monthStart_strictMono.monotone (by omega))
    rintro (hallows | ⟨hlastMem, hlength⟩)
    · refine not_allows hstar (fun value hvalue hsame => ?_) hallows
      have hskips := nextNearestDiff_skips hshape hstar hd
        (show 0 ≤ other / dayMs - wall / dayMs by omega) (by omega) hvalue
      rcases hmonth with hsameMonth | hlater
      · rw [hsameMonth] at hotherDay
        have hotherLength := (civil_d other).2
        rw [hsameMonth] at hotherLength
        exact hskips.1 (by omega) (by omega)
      · have hlarge := hskips.2 (by omega)
        omega
    · have hshort := nextNearestDiff_last_le hshape hd hlastMem
      rcases hmonth with hsameMonth | hlater
      · rw [hsameMonth] at hotherDay hlength
        omega
      · have hotherStart := (monthOfDay_spec (other / dayMs)).1
        omega

theorem Proc.allows_of_month
    (hshape : FieldShape .month values)
    (hjump : Proc.month values (civil wall) = none) :
    Allows values (civil wall).mo := by
  unfold Proc.month at hjump
  split at hjump
  · next hany => exact .inl hany
  dsimp only at hjump
  split at hjump
  · next hzero =>
      have hplace := civil_mo wall
      have hpos := firstAllowed_pos hshape (by decide) (show (0 : ℤ) < 12 by decide)
      rcases eq_of_nextNearestDiff_eq_zero hshape (by omega) hzero with
        hallows | ⟨hlast, -⟩
      · exact hallows
      · cases hshape.inField _ hlast
  · cases hjump

theorem Proc.allows_of_dayOfMonth
    (hshape : FieldShape .day values) (hwall : 0 ≤ wall)
    (hjump : Proc.dayOfMonth values (civil wall) = none) :
    AllowsDay values wall := by
  unfold Proc.dayOfMonth at hjump
  split at hjump
  · next hany => exact .inl (.inl hany)
  dsimp only at hjump
  rw [lastDayOfMonth_civil hwall] at hjump
  split at hjump
  · next hlast => exact .inr ⟨hlast.1, hlast.2.symm⟩
  have hzero := jumpBy_eq_none.mp hjump
  have hd := civil_d wall
  have hpos := firstAllowed_pos hshape (by decide)
    (show 0 < monthLength (monthOfDay (wall / dayMs)) by omega)
  exact eq_of_nextNearestDiff_eq_zero hshape (by omega) hzero

end Steps

/-! ## The first time which the fields allow -/

section Search

variable {fields : CronFields} {schedule : CronSchedule}
  {start wall other next found : ℤ}

theorem dvd_wallOf (y mo d h mi : ℤ) : minuteMs ∣ wallOf y mo d h mi := by
  simp only [wallOf, dayMs, hourMs, minuteMs]
  omega

theorem dvd_jumpBy
    {floor unit diff : ℤ} (hfloor : minuteMs ∣ floor) (hunit : minuteMs ∣ unit)
    (hjump : jumpBy floor unit diff = some next) : minuteMs ∣ next := by
  obtain ⟨-, rfl⟩ := jumpBy_eq_some.mp hjump
  exact hfloor.add (hunit.mul_left diff)

theorem dvd_jumpToAllowed
    {values : List CronValue} {x rangeVal floor unit : ℤ}
    (hfloor : minuteMs ∣ floor) (hunit : minuteMs ∣ unit)
    (hjump : jumpToAllowed values x rangeVal floor unit = some next) :
    minuteMs ∣ next := by
  unfold jumpToAllowed at hjump
  split at hjump
  · cases hjump
  · exact dvd_jumpBy hfloor hunit hjump

theorem findSome?_cons_or {α β : Type*} (f : α → Option β) (first : α) (rest : List α) :
    (first :: rest).findSome? f = (f first).or (rest.findSome? f) := by
  rw [List.findSome?_cons]
  cases f first with
  | none => rfl
  | some value => rfl

/-- The steps of a search without special elements. -/
theorem searchStep_eq (hplain : schedule.Plain) :
    searchStep fields schedule wall =
      (Proc.month fields.month (civil wall)).or
        ((Proc.dayOfMonth fields.day (civil wall)).or
          ((Proc.dayOfWeek fields.dow (civil wall)).or
            ((Proc.hour fields.hour (civil wall)).or
              (Proc.minute fields.minute (civil wall))))) := by
  rw [searchStep, procs, if_neg (not_not.mpr hplain.nearest),
    if_neg (not_not.mpr hplain.nth)]
  simp only [findSome?_cons_or, List.findSome?_nil, Option.or_none]

theorem wallOf_hour (hwall : 0 ≤ wall) :
    wallOf (civil wall).y (civil wall).mo (civil wall).d (civil wall).h 0 =
      wall / hourMs * hourMs := by
  have hh : (civil wall).h = wall / hourMs % 24 := rfl
  rw [wallOf_time, wallOf_civil_of_nonneg hwall, hh]
  simp only [dayMs, hourMs]
  omega

theorem wallOf_minute (hwall : 0 ≤ wall) :
    wallOf (civil wall).y (civil wall).mo (civil wall).d (civil wall).h
        (civil wall).mi = wall / minuteMs * minuteMs := by
  have hmi : (civil wall).mi = wall / minuteMs % 60 := rfl
  have hhour := wallOf_hour hwall
  rw [wallOf_time, zero_mul, add_zero] at hhour
  rw [wallOf_time, hhour, hmi]
  simp only [hourMs, minuteMs]
  omega

theorem searchStep_dvd (hplain : schedule.Plain)
    (hstep : searchStep fields schedule wall = some next) : minuteMs ∣ next := by
  have hunits : minuteMs ∣ dayMs ∧ minuteMs ∣ hourMs := by decide
  rw [searchStep_eq hplain] at hstep
  simp only [Option.or_eq_some_iff] at hstep
  rcases hstep with hmonth | ⟨-, hday | ⟨-, hdow | ⟨-, hhour | ⟨-, hminute⟩⟩⟩⟩
  · unfold Proc.month at hmonth
    split at hmonth
    · cases hmonth
    dsimp only at hmonth
    split at hmonth
    · cases hmonth
    cases hmonth
    exact dvd_wallOf _ _ _ _ _
  · unfold Proc.dayOfMonth at hday
    split at hday
    · cases hday
    dsimp only at hday
    split at hday
    · cases hday
    exact dvd_jumpBy (dvd_wallOf _ _ _ _ _) hunits.1 hday
  · exact dvd_jumpToAllowed (dvd_wallOf _ _ _ _ _) hunits.1 hdow
  · exact dvd_jumpToAllowed (dvd_wallOf _ _ _ _ _) hunits.2 hhour
  · exact dvd_jumpToAllowed (dvd_wallOf _ _ _ _ _) (dvd_refl _) hminute

/-- A step passes no time which the fields allow. -/
theorem searchStep_skips
    (hshape : fields.Shape) (hplain : schedule.Plain) (hwall : 0 ≤ wall)
    (hstep : searchStep fields schedule wall = some next)
    (hle : wall ≤ other) (hlt : other < next) : ¬Hit fields other := by
  intro hhit
  have hhour : ∀ time, (civil time).h = (time / hourMs + 0) % 24 := fun time => by
    rw [add_zero]
    rfl
  have hminute : ∀ time, (civil time).mi = (time / minuteMs + 0) % 60 :=
    fun time => by
      rw [add_zero]
      rfl
  rw [searchStep_eq hplain] at hstep
  simp only [Option.or_eq_some_iff] at hstep
  rcases hstep with hstep | ⟨-, hstep | ⟨-, hstep | ⟨-, hstep | ⟨-, hstep⟩⟩⟩⟩
  · exact Proc.month_skips (hshape .month) hwall hstep hle hlt hhit.month
  · exact Proc.dayOfMonth_skips (hshape .day) hwall hstep hle hlt hhit.day
  · rw [Proc.dayOfWeek, wallOf_civil_of_nonneg hwall] at hstep
    exact jumpToAllowed_skips (hshape .dow) (by decide) (by decide) hstep hle hlt
      hhit.dow
  · rw [Proc.hour, wallOf_hour hwall, hhour] at hstep
    have hskips := jumpToAllowed_skips (hshape .hour) (by decide) (by decide) hstep
      hle hlt
    rw [← hhour] at hskips
    exact hskips hhit.hour
  · rw [Proc.minute, wallOf_minute hwall, hminute] at hstep
    have hskips := jumpToAllowed_skips (hshape .minute) (by decide) (by decide)
      hstep hle hlt
    rw [← hminute] at hskips
    exact hskips hhit.minute

/-- Where no step moves, the fields allow the time. -/
theorem hit_of_searchStep
    (hshape : fields.Shape) (hplain : schedule.Plain) (hwall : 0 ≤ wall)
    (hwhole : minuteMs ∣ wall)
    (hstep : searchStep fields schedule wall = none) : Hit fields wall := by
  rw [searchStep_eq hplain] at hstep
  simp only [Option.or_eq_none_iff] at hstep
  obtain ⟨hmonth, hday, hdow, hhour, hminute⟩ := hstep
  exact {
    whole := hwhole
    month := Proc.allows_of_month (hshape .month) hmonth
    day := Proc.allows_of_dayOfMonth (hshape .day) hwall hday
    dow := allows_of_jumpToAllowed (hshape .dow) (by decide) (civil_dow wall).2
      (by decide) hdow
    hour := allows_of_jumpToAllowed (hshape .hour) (by decide) (civil_h wall).2
      (by decide) hhour
    minute := allows_of_jumpToAllowed (hshape .minute) (by decide)
      (civil_mi wall).2 (by decide) hminute }

theorem searchLoop_exact
    (hshape : fields.Shape) (hplain : schedule.Plain) (start : ℤ) :
    (searchLoop start fields schedule).Exact
      (fun wall => 0 ≤ wall ∧ minuteMs ∣ wall) (Hit fields) where
  aligned _ _ haligned hstep :=
    ⟨haligned.1.trans (searchStep_lt hstep).le, searchStep_dvd hplain hstep⟩
  stops _ haligned hstep :=
    hit_of_searchStep hshape hplain haligned.1 haligned.2 hstep
  skips _ _ haligned hstep _ hle hlt :=
    searchStep_skips hshape hplain haligned.1 hstep hle hlt

theorem firstWall_aligned (hstart : 0 ≤ start) :
    0 ≤ firstWall start ∧ minuteMs ∣ firstWall start := by
  refine ⟨hstart.trans (lt_firstWall start).le, ?_⟩
  exact Dvd.intro_left _ rfl

theorem firstWall_le (hlt : start < other) (hwhole : minuteMs ∣ other) :
    firstWall start ≤ other := by
  simp only [firstWall, minuteMs] at *
  omega

/-- The result of a search is the first time after its start which the fields
allow. -/
theorem searchWall_least
    (hshape : fields.Shape) (hplain : schedule.Plain) (hstart : 0 ≤ start)
    (hsearch : searchWall start fields schedule = .ok found) :
    IsLeast {wall | start < wall ∧ Hit fields wall} found := by
  obtain ⟨hhit, hleast⟩ := (searchLoop_exact hshape hplain start).run_least
    (firstWall_aligned hstart) (searchWall_eq_ok.mp hsearch)
  refine ⟨⟨searchWall_lt hsearch, hhit⟩, ?_⟩
  rintro other ⟨hlt, hother⟩
  exact hleast other (firstWall_le hlt hother.whole) hother

/-- A search has a result if there is one within fifty years. -/
theorem searchWall_finds
    (hshape : fields.Shape) (hplain : schedule.Plain) (hstart : 0 ≤ start)
    (hlt : start < other) (hhit : Hit fields other)
    (hyears : (civil other).y ≤ (civil (firstWall start)).y + 50) :
    ∃ found, searchWall start fields schedule = .ok found := by
  have hsome := (searchLoop_exact hshape hplain start).run_ne_none
    (firstWall_aligned hstart) (firstWall_le hlt hhit.whole) hhit
    fun wall hfirst hlast => by
      have hlow := civil_y_mono hfirst
      have hhigh := civil_y_mono hlast
      refine decide_eq_true (abs_le.mpr ?_)
      unfold maxYearsBetweenMatches
      omega
  obtain ⟨found, hfound⟩ := Option.ne_none_iff_exists'.mp hsome
  exact ⟨found, searchWall_eq_ok.mpr hfound⟩

end Search

end NotifyHub.Cron
