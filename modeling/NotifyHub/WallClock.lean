import Mathlib.Tactic

/-!
# Wall clocks

A clock is set forward or back from time to time.  Its offset and its shifts are
below a `span`, and two shifts are more than two spans apart.  So there is at
most one shift around a time, a time of the clock which comes later on the
clock comes again later, and a time which the clock leaves out is followed by
times which it shows.
-/

namespace NotifyHub.WallClock

/-- The difference between a clock and the time. -/
structure Zone (span : ℤ) where
  offsetAt : ℤ → ℤ
  bounded : ∀ time, |offsetAt time| < span
  shift : ∀ time, |offsetAt time - offsetAt (time - 1)| < span
  apart : ∀ first second, first < second →
    offsetAt first ≠ offsetAt (first - 1) →
    offsetAt second ≠ offsetAt (second - 1) → 2 * span < second - first

/-- What the clock shows. -/
def Zone.wall {span : ℤ} (zone : Zone span) (time : ℤ) : ℤ :=
  time + zone.offsetAt time

namespace Zone

variable {span : ℤ} (zone : Zone span) {low high time wall : ℤ}

theorem bounds (time : ℤ) :
    -span < zone.offsetAt time ∧ zone.offsetAt time < span :=
  abs_lt.mp (zone.bounded time)

/-- Where the offset changes there is a shift. -/
theorem exists_shift
    (hle : low ≤ high) (hne : zone.offsetAt low ≠ zone.offsetAt high) :
    ∃ time, low < time ∧ time ≤ high ∧
      zone.offsetAt time ≠ zone.offsetAt (time - 1) := by
  induction high, hle using Int.leInduction with
  | base => exact absurd rfl hne
  | succ high hle ih =>
      by_cases hsame : zone.offsetAt low = zone.offsetAt high
      · refine ⟨high + 1, by omega, le_refl _, ?_⟩
        rw [add_sub_cancel_right, ← hsame]
        exact hne.symm
      · obtain ⟨time, hlow, hhigh, hshift⟩ := ih hsame
        exact ⟨time, hlow, by omega, hshift⟩

/-- Two spans have two offsets at most, one before and one from some time on. -/
theorem window (hle : low ≤ high) (hshort : high - low ≤ 2 * span) :
    ∃ turn, low < turn ∧ turn ≤ high + 1 ∧
      (∀ time, low ≤ time → time < turn →
        zone.offsetAt time = zone.offsetAt low) ∧
      (∀ time, turn ≤ time → time ≤ high →
        zone.offsetAt time = zone.offsetAt high) ∧
      |zone.offsetAt high - zone.offsetAt low| < span := by
  have hspan : 0 < span := (abs_nonneg _).trans_lt (zone.bounded low)
  by_cases hconstant : ∀ time, low ≤ time → time ≤ high →
      zone.offsetAt time = zone.offsetAt low
  · refine ⟨high + 1, by omega, le_refl _, fun time hlow hhigh =>
      hconstant time hlow (by omega), fun time hlow hhigh => by omega, ?_⟩
    rw [hconstant high hle (le_refl _), sub_self, abs_zero]
    exact hspan
  push Not at hconstant
  obtain ⟨changed, hlow, hhigh, hchanged⟩ := hconstant
  obtain ⟨turn, hafter, hbefore, hshift⟩ := zone.exists_shift hlow hchanged.symm
  -- There is no second shift in the window.
  have hfirst : ∀ time, low ≤ time → time < turn →
      zone.offsetAt time = zone.offsetAt low := by
    intro time htime hturn
    by_contra hother
    obtain ⟨second, hsecond, hend, hagain⟩ :=
      zone.exists_shift htime (Ne.symm hother)
    have hapart := zone.apart second turn (by omega) hagain hshift
    omega
  have hlast : ∀ time, turn ≤ time → time ≤ high →
      zone.offsetAt time = zone.offsetAt high := by
    intro time hturn htime
    by_contra hother
    obtain ⟨second, hsecond, hend, hagain⟩ := zone.exists_shift htime hother
    have hapart := zone.apart turn second (by omega) hshift hagain
    omega
  refine ⟨turn, hafter, by omega, hfirst, hlast, ?_⟩
  have hsize := zone.shift turn
  rwa [hlast turn (le_refl _) (by omega), hfirst (turn - 1) (by omega) (by omega)]
    at hsize

/-- The offset of a time of the clock is that of a span before or after it. -/
theorem offset_of_wall (hwall : zone.wall time = wall) :
    zone.offsetAt time = zone.offsetAt (wall - span) ∨
      zone.offsetAt time = zone.offsetAt (wall + span) := by
  have hbounds := zone.bounds time
  have htime : time = wall - zone.offsetAt time := by
    rw [← hwall, Zone.wall]
    ring
  obtain ⟨turn, -, -, hfirst, hlast, -⟩ :=
    zone.window (show wall - span ≤ wall + span by omega) (by omega)
  rcases lt_or_ge time turn with hbefore | hafter
  · exact .inl (hfirst time (by omega) hbefore)
  · exact .inr (hlast time hafter (by omega))

/-- What comes later on the clock comes again later. -/
theorem exists_later
    {now : ℤ} (hlater : zone.wall now < zone.wall time) :
    ∃ later, now < later ∧ zone.wall later = zone.wall time := by
  rcases lt_or_ge now time with hafter | hbefore
  · exact ⟨time, hafter, rfl⟩
  have hnow := zone.bounds now
  have htime := zone.bounds time
  unfold Zone.wall at *
  obtain ⟨turn, -, -, hfirst, hlast, hshift⟩ :=
    zone.window (show time ≤ time + 2 * span by omega) (by omega)
  rw [abs_lt] at hshift
  have hturn : turn ≤ now := by
    by_contra hearly
    have hsame := hfirst now hbefore (by omega)
    omega
  have hoffset := hlast now hturn (by omega)
  have hlater := hlast (time + zone.offsetAt time - zone.offsetAt now)
    (by omega) (by omega)
  refine ⟨time + zone.offsetAt time - zone.offsetAt now, by omega, ?_⟩
  rw [hlater, ← hoffset]
  ring

/-- A time which the clock leaves out is less than a span before times which it
shows. -/
theorem gap_ends (hgap : ∀ time, zone.wall time ≠ wall) :
    ∃ endsAt, wall < endsAt ∧ endsAt < wall + span ∧
      ∀ later, endsAt ≤ later → later < endsAt + span →
        ∃ time, zone.wall time = later := by
  have hspan : 0 < span := (abs_nonneg _).trans_lt (zone.bounded wall)
  obtain ⟨turn, hlow, hhigh, hfirst, hlast, hshift⟩ :=
    zone.window (show wall - span ≤ wall + span by omega) (by omega)
  have hbefore := zone.bounds (wall - span)
  have hafter := zone.bounds (wall + span)
  rw [abs_lt] at hshift
  generalize hbeforeOffset : zone.offsetAt (wall - span) = before at *
  generalize hafterOffset : zone.offsetAt (wall + span) = after at *
  have hstarts : turn ≤ wall - before := by
    by_contra hearly
    refine hgap (wall - before) ?_
    rw [Zone.wall, hfirst _ (by omega) (by omega)]
    ring
  have hends : wall - after < turn := by
    by_contra hlate
    refine hgap (wall - after) ?_
    rw [Zone.wall, hlast _ (by omega) (by omega)]
    ring
  -- The clock is not set again in the two spans after the gap.
  have hinside : turn ≤ wall + span := by
    by_contra houtside
    have hsame := hfirst (wall + span) (by omega) (by omega)
    omega
  obtain ⟨next, hnextLow, -, hnextFirst, hnextLast, -⟩ :=
    zone.window (show turn - 1 ≤ turn - 1 + 2 * span by omega) (by omega)
  have hturned : zone.offsetAt turn ≠ zone.offsetAt (turn - 1) := by
    rw [hlast turn (le_refl _) hinside, hfirst (turn - 1) (by omega) (by omega)]
    omega
  have hnext : next ≤ turn := by
    by_contra hlate
    exact hturned (hnextFirst turn (by omega) (by omega))
  have hsteady : ∀ time, turn ≤ time → time ≤ turn - 1 + 2 * span →
      zone.offsetAt time = after := by
    intro time htime hwithin
    rw [hnextLast time (by omega) hwithin, ← hnextLast turn hnext (by omega)]
    exact hlast turn (le_refl _) hinside
  refine ⟨turn + after, by omega, by omega, fun later hlater hsoon => ?_⟩
  refine ⟨later - after, ?_⟩
  rw [Zone.wall, hsteady _ (by omega) (by omega)]
  ring

end Zone

end NotifyHub.WallClock
