import NotifyHub.CronZones
import Mathlib.Tactic

/-!
# The preview makes progress

In a zone whose shifts are more than two days apart, every local time which
exists is found from the three samples of its offset.  A search ends at a later
local time, and the instant which is taken for it comes after `now`, so every
date of the preview comes after the one before.
-/

namespace NotifyHub.Cron

open WallClock

section Zones

variable (zone : Zone dayMs) {wall instant : ℤ} {now : Moment}

/-! ## The instants of a local time -/

theorem mem_instantsOf :
    instant ∈ instantsOf zone.offsetAt wall ↔ zone.wall instant = wall := by
  unfold instantsOf
  dsimp only
  rw [List.mem_insertionSort, List.mem_dedup, List.mem_map]
  constructor
  · rintro ⟨offset, hoffset, rfl⟩
    have hsame := of_decide_eq_true (List.mem_filter.mp hoffset).2
    rw [Zone.wall, hsame]
    ring
  · intro hwall
    have htime : wall - zone.offsetAt instant = instant := by
      rw [← hwall, Zone.wall]
      ring
    refine ⟨zone.offsetAt instant, List.mem_filter.mpr ⟨?_, ?_⟩, htime⟩
    · rcases zone.offset_of_wall hwall with hbefore | hafter
      · rw [hbefore]
        exact List.mem_cons_self
      · rw [hafter]
        simp
    · rw [htime]
      exact decide_eq_true rfl

theorem instantsOf_ascending (offsetAt : Offsets) (wall : ℤ) :
    (instantsOf offsetAt wall).Pairwise (· ≤ ·) :=
  List.pairwise_insertionSort _ _

theorem le_getLastD
    {first : ℤ} {rest : List ℤ} (hascending : (first :: rest).Pairwise (· ≤ ·)) :
    ∀ time ∈ first :: rest, time ≤ rest.getLastD first := by
  induction rest generalizing first with
  | nil =>
      intro time htime
      exact (List.mem_singleton.mp htime).le
  | cons second rest ih =>
      obtain ⟨hfirst, hrest⟩ := List.pairwise_cons.mp hascending
      intro time htime
      rw [List.getLastD_cons]
      rcases List.mem_cons.mp htime with rfl | hlater
      · exact (hfirst second List.mem_cons_self).trans
          (ih hrest second List.mem_cons_self)
      · exact ih hrest time hlater

/-- If a later instant has the local time, a later one is taken. -/
theorem lt_chosenInstant
    {now first time : ℤ} {rest : List ℤ}
    (hascending : (first :: rest).Pairwise (· ≤ ·)) (htime : time ∈ first :: rest)
    (hlater : now < time) : now < chosenInstant now first rest := by
  unfold chosenInstant
  split
  · exact hlater.trans_le (le_getLastD hascending time htime)
  next hfirst =>
    rw [not_and_not_right] at hfirst
    rcases List.mem_cons.mp htime with rfl | hrest
    · exact hlater
    · exact hfirst (List.ne_nil_of_mem hrest)

/-! ## The local time of a search -/

/-- A moment which has been read in the zone. -/
def Moment.Of (now : Moment) : Prop :=
  now.wall = zone.wall now.instant

theorem addTimezone_lt
    {rounds : ℕ} {zoned : Zoned} (hnow : now.Of zone) (hlater : now.wall < wall)
    (hzoned : addTimezone zone.offsetAt rounds wall now = some zoned)
    (hexists : zoned.exists_ = true) : now.instant < zoned.moment.instant := by
  unfold addTimezone at hzoned
  split at hzoned
  · obtain ⟨moved, -, rfl⟩ := Option.map_eq_some_iff.mp hzoned
    cases hexists
  · next first rest hinstants =>
      cases hzoned
      have hmem : first ∈ instantsOf zone.offsetAt wall := by
        rw [hinstants]
        exact List.mem_cons_self
      have hfirst := (mem_instantsOf zone).mp hmem
      rw [hnow, ← hfirst] at hlater
      obtain ⟨later, hafter, hsame⟩ := zone.exists_later hlater
      have hlaterMem := (mem_instantsOf zone).mpr (hsame.trans hfirst)
      have hascending := instantsOf_ascending zone.offsetAt wall
      rw [hinstants] at hlaterMem hascending
      exact lt_chosenInstant hascending hlaterMem hafter

/-- Minutes reach a time within a day, and not much later. -/
theorem exists_minute {endsAt : ℤ} (hafter : wall < endsAt)
    (hday : endsAt < wall + dayMs) :
    ∃ rounds : ℕ, rounds < 1440 ∧ endsAt ≤ wall + (rounds + 1) * minuteMs ∧
      wall + (rounds + 1) * minuteMs < endsAt + minuteMs := by
  refine ⟨((endsAt - wall - 1) / minuteMs).toNat, ?_, ?_, ?_⟩ <;>
    simp only [minuteMs, dayMs] at * <;> omega

theorem moveOn_of_mem
    {rounds : ℕ} (hinstant : zone.wall instant = wall + (rounds + 1) * minuteMs) :
    ∃ moved, moveOn zone.offsetAt (rounds + 1) wall = some moved := by
  induction rounds generalizing wall with
  | zero =>
      rw [Nat.cast_zero, zero_add, one_mul] at hinstant
      have hmem := (mem_instantsOf zone).mpr hinstant
      rw [moveOn]
      split
      · next hnone =>
          rw [hnone] at hmem
          cases hmem
      · exact ⟨_, rfl⟩
  | succ rounds ih =>
      rw [moveOn]
      split
      · refine ih ?_
        rw [hinstant]
        push_cast
        ring
      · exact ⟨_, rfl⟩

theorem moveOn_mono
    {offsetAt : Offsets} {fewer more : ℕ} {moved : ℤ × ℤ} (hle : fewer ≤ more)
    (hmoved : moveOn offsetAt fewer wall = some moved) :
    moveOn offsetAt more wall = some moved := by
  induction fewer generalizing more wall with
  | zero => cases hmoved
  | succ fewer ih =>
      obtain ⟨rest, rfl⟩ : ∃ rest, more = rest + 1 := ⟨more - 1, by omega⟩
      rw [moveOn] at hmoved ⊢
      split
      · next hnone =>
          rw [hnone] at hmoved
          exact ih (by omega) hmoved
      · next hsome =>
          rw [hsome] at hmoved
          exact hmoved

/-- The search for a local time which exists ends within a day of minutes. -/
theorem addTimezone_ends (wall : ℤ) (now : Moment) :
    ∃ zoned, addTimezone zone.offsetAt 1440 wall now = some zoned := by
  unfold addTimezone
  split
  · next hnone =>
      have hgap : ∀ time, zone.wall time ≠ wall := by
        intro time htime
        have hmem := (mem_instantsOf zone).mpr htime
        rw [hnone] at hmem
        cases hmem
      obtain ⟨endsAt, hafter, hday, hshown⟩ := zone.gap_ends hgap
      obtain ⟨rounds, hrounds, hreached, hsoon⟩ := exists_minute hafter hday
      obtain ⟨time, htime⟩ := hshown _ hreached
        (hsoon.trans (Int.add_lt_add_left (by decide) endsAt))
      obtain ⟨moved, hmoved⟩ := moveOn_of_mem zone htime
      rw [moveOn_mono hrounds hmoved]
      exact ⟨_, rfl⟩
  · exact ⟨_, rfl⟩

/-! ## The result of a search -/

variable {rounds : ℕ} {fields : CronFields} {schedule : CronSchedule}
  {moment : Moment}

theorem searchExisting_lt
    {left : ℕ} (hnow : now.Of zone) (hwall : now.wall ≤ wall)
    (hreturns : Returns
      (searchExisting zone.offsetAt rounds now fields schedule left wall)
      moment) : now.instant < moment.instant := by
  induction left generalizing wall with
  | zero =>
      rw [searchExisting, returns_ofRounds] at hreturns
      cases hreturns
  | succ left ih =>
      rw [searchExisting, returns_bind] at hreturns
      obtain ⟨found, hsearch, hreturns⟩ := hreturns
      obtain ⟨zoned, hzoned, hreturns⟩ := returns_bind.mp hreturns
      have hfound := hwall.trans_lt (searchWall_lt (returns_ofSearch.mp hsearch))
      split at hreturns
      · next hexists =>
          obtain rfl := returns_pure.mp hreturns
          exact addTimezone_lt zone hnow hfound (returns_ofRounds.mp hzoned) hexists
      · exact ih hfound.le hreturns

theorem firstMoment_lt
    (hnow : now.Of zone)
    (hreturns : Returns
      (firstMoment zone.offsetAt rounds now fields schedule) moment) :
    now.instant < moment.instant := by
  rw [firstMoment, returns_bind] at hreturns
  obtain ⟨found, hsearch, hreturns⟩ := hreturns
  obtain ⟨zoned, hzoned, hreturns⟩ := returns_bind.mp hreturns
  have hfound := searchWall_lt (returns_ofSearch.mp hsearch)
  split at hreturns
  · exact searchExisting_lt zone hnow hfound.le hreturns
  next hkept =>
    obtain rfl := returns_pure.mp hreturns
    cases hexists : zoned.exists_ with
    | true => exact addTimezone_lt zone hnow hfound (returns_ofRounds.mp hzoned) hexists
    | false =>
        by_contra hearly
        exact hkept ⟨hexists, .inl hearly⟩

theorem calcAware_lt
    (hnow : now.Of zone)
    (hreturns : Returns
      (calcAware zone.offsetAt rounds now fields schedule) moment) :
    now.instant < moment.instant := by
  rw [calcAware, returns_bind] at hreturns
  obtain ⟨first, hfirst, hreturns⟩ := hreturns
  have hlater := firstMoment_lt zone hnow hfirst
  dsimp only at hreturns
  split at hreturns
  · exact returns_pure.mp hreturns ▸ hlater
  obtain ⟨alternative, -, hreturns⟩ := returns_bind.mp hreturns
  split at hreturns
  · exact returns_pure.mp hreturns ▸ hlater
  next halternative =>
    rw [not_not] at halternative
    split at hreturns
    · exact returns_pure.mp hreturns ▸ halternative
    · exact returns_pure.mp hreturns ▸ hlater

theorem nextFireAfter_lt
    {fire : ℤ}
    (hreturns : Returns (nextFireAfter zone.offsetAt rounds schedule instant)
      fire) : instant < fire := by
  have hnow : (momentAt zone.offsetAt instant).Of zone := rfl
  unfold nextFireAfter at hreturns
  dsimp only at hreturns
  split at hreturns
  · obtain ⟨byDay, hday, hreturns⟩ := returns_bind.mp hreturns
    obtain ⟨byWeekday, hweekday, hreturns⟩ := returns_bind.mp hreturns
    obtain rfl := returns_pure.mp hreturns
    split
    · exact calcAware_lt zone hnow hday
    · exact calcAware_lt zone hnow hweekday
  · obtain ⟨moment, hmoment, hreturns⟩ := returns_bind.mp hreturns
    obtain rfl := returns_pure.mp hreturns
    exact calcAware_lt zone hnow hmoment

/-! ## The preview -/

theorem executionsAfter_increasing
    {count : ℕ} {cursor : ℤ} {dates : List ℤ}
    (hdates : executionsAfter zone.offsetAt rounds schedule count cursor =
      some dates) : (cursor :: dates).Pairwise (· < ·) := by
  induction count generalizing cursor dates with
  | zero =>
      cases hdates
      exact List.pairwise_singleton _ _
  | succ count ih =>
      rw [executionsAfter] at hdates
      split at hdates
      · cases hdates
      · cases hdates
        exact List.pairwise_singleton _ _
      · next fire hfire =>
          obtain ⟨rest, hrest, rfl⟩ := Option.map_eq_some_iff.mp hdates
          have hlater := nextFireAfter_lt zone hfire
          have hincreasing := ih hrest
          refine List.pairwise_cons.mpr ⟨?_, hincreasing⟩
          intro date hdate
          rcases List.mem_cons.mp hdate with rfl | hafter
          · exact hlater
          · exact hlater.trans ((List.pairwise_cons.mp hincreasing).1 date hafter)

end Zones

/-- The dates of the preview are increasing and come after `now`, and the search
for a local time which exists ends. -/
theorem nextCronExecutions_increasing
    (zone : Zone dayMs) (lower : Text → Text) (rounds : ℕ) (expression : Text)
    (now : ℤ) (count : ℕ) :
    (∀ dates,
      nextCronExecutions lower zone.offsetAt rounds expression now count =
        some dates → dates.Pairwise (· < ·) ∧ ∀ date ∈ dates, now < date) ∧
      ∀ wall moment, ∃ zoned,
        addTimezone zone.offsetAt 1440 wall moment = some zoned := by
  refine ⟨fun dates hdates => ?_, addTimezone_ends zone⟩
  unfold nextCronExecutions at hdates
  split at hdates
  · cases hdates
    exact ⟨List.Pairwise.nil, fun date hdate => by cases hdate⟩
  · have hincreasing := List.pairwise_cons.mp
      (executionsAfter_increasing zone hdates)
    exact ⟨hincreasing.2, hincreasing.1⟩

/-- An hour is left out at the given instant. -/
def springZone : Zone dayMs where
  offsetAt time := if time < 1774746000000 then 3600000 else 7200000
  bounded time := by
    split <;> decide
  shift time := by
    split <;> split <;> decide
  apart first second hlt hfirst hsecond := by
    have honly : ∀ time : ℤ,
        (if time < 1774746000000 then (3600000 : ℤ) else 7200000) ≠
            (if time - 1 < 1774746000000 then 3600000 else 7200000) →
          time = 1774746000000 := by
      intro time hshift
      split_ifs at hshift <;> omega
    rw [honly first hfirst, honly second hsecond] at hlt
    exact absurd hlt (lt_irrefl _)

/-- The first of the two dates is the end of the gap. -/
theorem nextCronExecutions_increasing_spring :
    nextCronExecutions id springZone.offsetAt 1440 "30 2 * * *".toList
        1774728000000 2 = some [1774746000000, 1774830600000] ∧
      [(1774746000000 : ℤ), 1774830600000].Pairwise (· < ·) := by
  have hdates : nextCronExecutions id springZone.offsetAt 1440
      "30 2 * * *".toList 1774728000000 2 =
        some [1774746000000, 1774830600000] := by
    decide +kernel
  exact ⟨hdates, ((nextCronExecutions_increasing springZone id 1440
    "30 2 * * *".toList 1774728000000 2).1 _ hdates).1⟩

end NotifyHub.Cron
