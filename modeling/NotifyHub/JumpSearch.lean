import Mathlib.Tactic

/-!
# Searches that jump

A loop looks at positions on a line: it stops at a position with nothing to
move, or jumps forward to the next one.  Where no jump passes a hit and the
loop stops at hits only, its result is the first hit; it has a result if a hit
comes before the loop gives up.
-/

namespace NotifyHub.JumpSearch

/-- The loop goes on while the positions are `within`, and every step goes
forward. -/
structure Loop where
  step : ℤ → Option ℤ
  within : ℤ → Bool
  limit : ℤ
  forward : ∀ position next, step position = some next → position < next
  bounded : ∀ position, within position = true → position < limit

def Loop.run (loop : Loop) (position : ℤ) : Option ℤ :=
  if _hwithin : loop.within position = true then
    match _hstep : loop.step position with
    | none => some position
    | some next => loop.run next
  else none
termination_by (loop.limit - position).toNat
decreasing_by
  have hforward := loop.forward position next _hstep
  have hbounded := loop.bounded position _hwithin
  omega

namespace Loop

variable {loop : Loop} {position next found : ℤ}

theorem run_of_none
    (hwithin : loop.within position = true) (hstep : loop.step position = none) :
    loop.run position = some position := by
  unfold run
  rw [dif_pos hwithin]
  split
  · rfl
  · next other hother =>
      rw [hstep] at hother
      cases hother

theorem run_of_some
    (hwithin : loop.within position = true)
    (hstep : loop.step position = some next) :
    loop.run position = loop.run next := by
  rw [run, dif_pos hwithin]
  split
  · next hother =>
      rw [hstep] at hother
      cases hother
  · next other hother =>
      rw [hstep] at hother
      cases hother
      rfl

theorem run_of_not_within (hwithin : ¬loop.within position = true) :
    loop.run position = none := by
  rw [run, dif_neg hwithin]

/-- An induction over the positions of a run. -/
theorem run_induction
    {motive : ℤ → Prop}
    (houtside : ∀ position, ¬loop.within position = true → motive position)
    (hstops : ∀ position, loop.within position = true →
      loop.step position = none → motive position)
    (hjumps : ∀ position next, loop.within position = true →
      loop.step position = some next → motive next → motive position)
    (position : ℤ) : motive position := by
  induction hrank : (loop.limit - position).toNat using Nat.strong_induction_on
    generalizing position with
  | h rank ih =>
      by_cases hwithin : loop.within position = true
      · cases hstep : loop.step position with
        | none => exact hstops position hwithin hstep
        | some next =>
            have hforward := loop.forward position next hstep
            have hbounded := loop.bounded position hwithin
            exact hjumps position next hwithin hstep
              (ih _ (by omega) next rfl)
      · exact houtside position hwithin

theorem le_run (hrun : loop.run position = some found) : position ≤ found := by
  induction position using loop.run_induction with
  | houtside position hwithin =>
      rw [run_of_not_within hwithin] at hrun
      cases hrun
  | hstops position hwithin hstep =>
      rw [run_of_none hwithin hstep] at hrun
      exact (Option.some.inj hrun).le
  | hjumps position next hwithin hstep ih =>
      rw [run_of_some hwithin hstep] at hrun
      exact (loop.forward position next hstep).le.trans (ih hrun)

/-- What a search has to know of its steps; `Aligned` are the positions which a
run can reach. -/
structure Exact (loop : Loop) (Aligned Hit : ℤ → Prop) : Prop where
  aligned : ∀ position next, Aligned position →
    loop.step position = some next → Aligned next
  stops : ∀ position, Aligned position → loop.step position = none →
    Hit position
  skips : ∀ position next, Aligned position →
    loop.step position = some next →
      ∀ other, position ≤ other → other < next → ¬Hit other

variable {Aligned Hit : ℤ → Prop}

/-- The result is the first hit. -/
theorem Exact.run_least
    (hexact : loop.Exact Aligned Hit) (haligned : Aligned position)
    (hrun : loop.run position = some found) :
    Hit found ∧ ∀ other, position ≤ other → Hit other → found ≤ other := by
  induction position using loop.run_induction with
  | houtside position hwithin =>
      rw [run_of_not_within hwithin] at hrun
      cases hrun
  | hstops position hwithin hstep =>
      rw [run_of_none hwithin hstep] at hrun
      cases hrun
      exact ⟨hexact.stops _ haligned hstep, fun other hle _ => hle⟩
  | hjumps position next hwithin hstep ih =>
      rw [run_of_some hwithin hstep] at hrun
      obtain ⟨hhit, hleast⟩ :=
        ih (hexact.aligned position next haligned hstep) hrun
      refine ⟨hhit, fun other hle hother => hleast other ?_ hother⟩
      by_contra hbefore
      exact hexact.skips position next haligned hstep other hle
        (lt_of_not_ge hbefore) hother

/-- There is a result if the loop does not give up before a hit. -/
theorem Exact.run_ne_none
    (hexact : loop.Exact Aligned Hit) (haligned : Aligned position) {hit : ℤ}
    (hle : position ≤ hit) (hhit : Hit hit)
    (hwithin : ∀ other, position ≤ other → other ≤ hit →
      loop.within other = true) :
    loop.run position ≠ none := by
  induction position using loop.run_induction with
  | houtside position houtside =>
      exact absurd (hwithin position (le_refl _) hle) houtside
  | hstops position hinside hstep =>
      rw [run_of_none hinside hstep]
      exact Option.some_ne_none _
  | hjumps position next hinside hstep ih =>
      rw [run_of_some hinside hstep]
      have hforward := loop.forward position next hstep
      have hnext : next ≤ hit := by
        by_contra hpassed
        exact hexact.skips position next haligned hstep hit hle
          (lt_of_not_ge hpassed) hhit
      exact ih (hexact.aligned position next haligned hstep) hnext
        fun other hother => hwithin other (hforward.le.trans hother)

end Loop

end NotifyHub.JumpSearch
