import NotifyHub.DeliveryMachine
import Mathlib.Tactic

/-!
# Fencing of delivery workers

When no two claims of a row carry the same `locked_at`, the comparison at the
start of phase 3 recognises the current claim exactly.  The row then follows
the life cycle of a delivery: one worker at a time, final once sent, and out
of `dead` only by a manual retry.
-/

namespace NotifyHub

variable {Process : Type*}

/-! ## The life cycle of a delivery -/

/-- The status of a delivery, and whose claim is current. -/
structure DeliveryStage (Process : Type*) where
  status : DeliveryStatus
  claimant : Option Process

inductive LifecycleMove (Process : Type*)
  | claim (process : Process)
  | bury
  | outcome (process : Process) (status : DeliveryStatus)
  | reclaim
  | retry

/-- One worker at a time sends, and only that worker writes the outcome. -/
def lifecycleStep [DecidableEq Process] (stage : DeliveryStage Process) :
    LifecycleMove Process → Option (DeliveryStage Process)
  | .claim process =>
      if stage.status = .pending ∨ stage.status = .failed then
        some ⟨.sending, some process⟩
      else none
  | .bury =>
      if stage.status = .pending ∨ stage.status = .failed then
        some ⟨.dead, none⟩
      else none
  | .outcome process status =>
      if stage.status = .sending ∧ stage.claimant = some process ∧
          (status = .sent ∨ status = .failed ∨ status = .dead) then
        some ⟨status, none⟩
      else none
  | .reclaim =>
      if stage.status = .sending then some ⟨.failed, none⟩ else none
  | .retry =>
      if stage.status = .dead then some ⟨.pending, none⟩ else none

def lifecycle (Process : Type*) [DecidableEq Process] :
    Machine (DeliveryStage Process) (LifecycleMove Process) where
  Initial stage := stage.status = .pending ∧ stage.claimant = none
  step := lifecycleStep

/-! ## Fresh claims -/

/-- A claim which commits carries a `locked_at` that no claim has carried
before. -/
def FreshClaims
    (state : DeliveryState Process) (action : DeliveryAction Process) : Prop :=
  match action.move, state.phase action.process with
  | .commit, .writing _ (.claim lockedAt _) =>
      ∀ other, state.claimOf other ≠ some lockedAt
  | _, _ => True

instance [Fintype Process]
    (state : DeliveryState Process) (action : DeliveryAction Process) :
    Decidable (FreshClaims state action) := by
  unfold FreshClaims
  split
  · exact inferInstanceAs (Decidable (∀ _, _ ≠ _))
  · exact .isTrue trivial

structure DeliveryState.Fenced (state : DeliveryState Process) : Prop where
  locked : state.Locked
  caller : ∀ process lockedAt,
    (state.phase process).claim? = some lockedAt →
      state.claimOf process = some lockedAt
  injective : ∀ first second lockedAt,
    state.claimOf first = some lockedAt →
      state.claimOf second = some lockedAt → first = second
  sending : state.row.status = .sending →
    ∃ process lockedAt, state.claimant = some process ∧
      state.claimOf process = some lockedAt ∧
      state.row.lockedAt = some lockedAt
  claimant_sending : ∀ process, state.claimant = some process →
    state.row.status = .sending

namespace DeliveryState

variable {state next : DeliveryState Process}

/-- Whoever passes the check of phase 3 holds the current claim. -/
theorem Fenced.claimant_of_isClaim
    (hfenced : state.Fenced) {process : Process} {lockedAt : Instant}
    (hclaim : (state.phase process).claim? = some lockedAt)
    (hcurrent : state.row.isClaim lockedAt = true) :
    state.claimant = some process := by
  obtain ⟨hsending, hlockedAt⟩ := DeliveryRow.isClaim_iff.mp hcurrent
  obtain ⟨owner, stamp, howner, hstamp, hrow⟩ := hfenced.sending hsending
  obtain rfl : stamp = lockedAt := by
    rw [hlockedAt] at hrow
    exact (Option.some.inj hrow).symm
  have hsame := hfenced.injective owner process stamp hstamp
    (hfenced.caller process stamp hclaim)
  rw [howner, hsame]

/-- Steps which neither write the row nor claim it. -/
theorem Fenced.frame
    (hfenced : state.Fenced) (hlocked : next.Locked)
    (hrow : next.row = state.row) (hclaims : next.claimOf = state.claimOf)
    (hclaimant : next.claimant = state.claimant)
    (hphases : ∀ process lockedAt,
      (next.phase process).claim? = some lockedAt →
        (state.phase process).claim? = some lockedAt) :
    next.Fenced := by
  constructor
  · exact hlocked
  · intro process lockedAt hclaim
    rw [hclaims]
    exact hfenced.caller process lockedAt (hphases process lockedAt hclaim)
  · rw [hclaims]
    exact hfenced.injective
  · rw [hrow, hclaims, hclaimant]
    exact hfenced.sending
  · rw [hrow, hclaimant]
    exact hfenced.claimant_sending

/-- The status of a row which is written back. -/
theorem Prepared.status_of_writing
    {row : DeliveryRow} {kind : WriteKind}
    (hknows : state.Prepared (.writing row kind)) :
    match kind with
    | .bury =>
        (state.row.status = .pending ∨ state.row.status = .failed) ∧
          row.status = .dead
    | .claim _ _ =>
        (state.row.status = .pending ∨ state.row.status = .failed) ∧
          row.status = .sending
    | .outcome _ =>
        state.row.status = .sending ∧
          (row.status = .sent ∨ row.status = .failed ∨ row.status = .dead)
    | .reclaim => state.row.status = .sending ∧ row.status = .failed
    | .retry => state.row.status = .dead ∧ row.status = .pending := by
  have hwaiting : (∃ dueAt, state.row.claimable dueAt = true) →
      state.row.status = .pending ∨ state.row.status = .failed := by
    rintro ⟨dueAt, hclaimable⟩
    rcases DeliveryRow.claimable_iff.mp hclaimable with hpending | ⟨hfailed, -⟩
    · exact Or.inl hpending
    · exact Or.inr hfailed
  cases kind with
  | bury =>
      obtain ⟨hclaimable, error, rfl⟩ := hknows
      exact ⟨hwaiting hclaimable, rfl⟩
  | claim lockedAt attemptsSoFar =>
      obtain ⟨hclaimable, rfl, -⟩ := hknows
      exact ⟨hwaiting hclaimable, rfl⟩
  | outcome lockedAt =>
      obtain ⟨hclaim, attemptsSoFar, result, now, jitter, rfl⟩ := hknows
      exact ⟨(DeliveryRow.isClaim_iff.mp hclaim).1,
        state.row.outcome_status attemptsSoFar result now jitter⟩
  | reclaim =>
      obtain ⟨hsending, rfl⟩ := hknows
      exact ⟨hsending, rfl⟩
  | retry =>
      obtain ⟨hdead, now, rfl⟩ := hknows
      exact ⟨hdead, rfl⟩

variable [DecidableEq Process]

/-- Steps which only move their process, and make up no claim. -/
theorem Fenced.phase_step
    (hfenced : state.Fenced) (hlocked : next.Locked)
    {process : Process} {phase : DeliveryPhase}
    (hrow : next.row = state.row) (hclaims : next.claimOf = state.claimOf)
    (hclaimant : next.claimant = state.claimant)
    (hphase : next.phase = Function.update state.phase process phase)
    (hclaim : ∀ lockedAt, phase.claim? = some lockedAt →
      (state.phase process).claim? = some lockedAt) :
    next.Fenced := by
  refine hfenced.frame hlocked hrow hclaims hclaimant
    fun other lockedAt hother => ?_
  rw [hphase] at hother
  by_cases heq : other = process
  · subst other
    rw [Function.update_self] at hother
    exact hclaim lockedAt hother
  · rwa [Function.update_of_ne heq] at hother

/-- The commit of a claim with a fresh `locked_at`. -/
theorem Fenced.commit_claim
    (hfenced : state.Fenced) {process : Process} {now : Instant}
    {row : DeliveryRow} {lockedAt : Instant} {attemptsSoFar : ℕ}
    (hphase : state.phase process =
      .writing row (.claim lockedAt attemptsSoFar))
    (hfresh : ∀ other, state.claimOf other ≠ some lockedAt) :
    (state.commit process now row (.claim lockedAt attemptsSoFar)).Fenced := by
  have hknows := hfenced.locked.prepared process
  rw [hphase] at hknows
  obtain ⟨-, hrow, -⟩ := hknows
  have hself : (state.commit process now row
      (.claim lockedAt attemptsSoFar)).claimOf process = some lockedAt := by
    simp [commit]
  have hothers : ∀ other, other ≠ process →
      (state.commit process now row
        (.claim lockedAt attemptsSoFar)).claimOf other =
        state.claimOf other := by
    intro other hne
    simp [commit, hne]
  constructor
  · exact hfenced.locked.commit_step hphase
  · intro other stamp hclaim
    by_cases heq : other = process
    · subst other
      rw [commit_phase_self] at hclaim
      rw [hself]
      exact hclaim
    · rw [commit_phase_of_ne heq] at hclaim
      rw [hothers other heq]
      exact hfenced.caller other stamp hclaim
  · intro first second stamp hfirst hsecond
    by_cases heqf : first = process <;> by_cases heqs : second = process
    · rw [heqf, heqs]
    · rw [heqf, hself] at hfirst
      rw [hothers second heqs, ← hfirst] at hsecond
      exact absurd hsecond (hfresh second)
    · rw [heqs, hself] at hsecond
      rw [hothers first heqf, ← hsecond] at hfirst
      exact absurd hfirst (hfresh first)
    · rw [hothers first heqf] at hfirst
      rw [hothers second heqs] at hsecond
      exact hfenced.injective first second stamp hfirst hsecond
  · intro _
    refine ⟨process, lockedAt, rfl, hself, ?_⟩
    rw [commit_row, hrow]
    rfl
  · intro _ _
    rw [commit_row, hrow]
    rfl

/-- The commit of anything else leaves no claim. -/
theorem Fenced.commit_other
    (hfenced : state.Fenced) {process : Process} {now : Instant}
    {row : DeliveryRow} {kind : WriteKind}
    (hphase : state.phase process = .writing row kind)
    (hkind : ∀ lockedAt attemptsSoFar, kind ≠ .claim lockedAt attemptsSoFar)
    (hstatus : row.status ≠ .sending) :
    (state.commit process now row kind).Fenced := by
  have hclaims : (state.commit process now row kind).claimOf =
      state.claimOf := by
    cases kind <;> first | rfl | exact absurd rfl (hkind _ _)
  have hclaimant : (state.commit process now row kind).claimant = none := by
    cases kind <;> first | rfl | exact absurd rfl (hkind _ _)
  have hafter : kind.after = .finished := by
    cases kind <;> first | rfl | exact absurd rfl (hkind _ _)
  constructor
  · exact hfenced.locked.commit_step hphase
  · intro other stamp hclaim
    rw [hclaims]
    by_cases heq : other = process
    · subst other
      rw [commit_phase_self, hafter] at hclaim
      contradiction
    · rw [commit_phase_of_ne heq] at hclaim
      exact hfenced.caller other stamp hclaim
  · rw [hclaims]
    exact hfenced.injective
  · intro hsending
    exact absurd hsending hstatus
  · intro other howner
    rw [hclaimant] at howner
    contradiction

theorem Fenced.commit_step
    (hfenced : state.Fenced) {process : Process} {now : Instant}
    {row : DeliveryRow} {kind : WriteKind}
    (hphase : state.phase process = .writing row kind)
    (hfresh : ∀ lockedAt attemptsSoFar, kind = .claim lockedAt attemptsSoFar →
      ∀ other, state.claimOf other ≠ some lockedAt) :
    (state.commit process now row kind).Fenced := by
  have hknows := hfenced.locked.prepared process
  rw [hphase] at hknows
  have hstatus := Prepared.status_of_writing hknows
  cases kind with
  | claim lockedAt attemptsSoFar =>
      exact hfenced.commit_claim hphase (hfresh lockedAt attemptsSoFar rfl)
  | bury =>
      exact hfenced.commit_other hphase (by simp) (by simp [hstatus.2])
  | outcome lockedAt =>
      refine hfenced.commit_other hphase (by simp) ?_
      rcases hstatus.2 with hsent | hfailed | hdead
      · simp [hsent]
      · simp [hfailed]
      · simp [hdead]
  | reclaim =>
      exact hfenced.commit_other hphase (by simp) (by simp [hstatus.2])
  | retry =>
      exact hfenced.commit_other hphase (by simp) (by simp [hstatus.2])

theorem Fenced.step
    (hfenced : state.Fenced) {action : DeliveryAction Process}
    (hfresh : FreshClaims state action)
    (hstep : deliveryStep state action = some next) : next.Fenced := by
  have hlocked := hfenced.locked.step hstep
  obtain ⟨process, now, move⟩ := action
  have hchange : DeliveryChange state process now move next :=
    deliveryStep_change hstep
  have hnone : ∀ phase : DeliveryPhase, phase.claim? = none →
      ∀ lockedAt, phase.claim? = some lockedAt →
        (state.phase process).claim? = some lockedAt := by
    intro phase hphase lockedAt hclaim
    rw [hphase] at hclaim
    contradiction
  cases hchange with
  | quiet hlock hclaim hlock' hclaim' =>
      exact hfenced.phase_step hlocked rfl rfl rfl rfl (hnone _ hclaim')
  | claiming hphase hfree hclaimable =>
      exact hfenced.phase_step hlocked rfl rfl rfl rfl (hnone _ rfl)
  | burying error hphase =>
      exact hfenced.phase_step hlocked rfl rfl rfl rfl (hnone _ rfl)
  | claimed hphase =>
      exact hfenced.phase_step hlocked rfl rfl rfl rfl (hnone _ rfl)
  | posted hphase =>
      exact hfenced.phase_step hlocked rfl rfl rfl rfl
        (by rw [hphase]; exact fun _ h => h)
  | unformatted safeError hphase =>
      exact hfenced.phase_step hlocked rfl rfl rfl rfl
        (by rw [hphase]; exact fun _ h => h)
  | answered reply hphase =>
      exact hfenced.phase_step hlocked rfl rfl rfl rfl
        (by rw [hphase]; exact fun _ h => h)
  | discarded hphase hother =>
      exact hfenced.phase_step hlocked rfl rfl rfl rfl (hnone _ rfl)
  | recording hphase hfree hclaim =>
      exact hfenced.phase_step hlocked rfl rfl rfl rfl
        (by rw [hphase]; exact fun _ h => h)
  | recorded jitter hphase =>
      exact hfenced.phase_step hlocked rfl rfl rfl rfl
        (by rw [hphase]; exact fun _ h => h)
  | reclaiming hphase hfree hstuck =>
      exact hfenced.phase_step hlocked rfl rfl rfl rfl (hnone _ rfl)
  | retrying hphase hfree hdead =>
      exact hfenced.phase_step hlocked rfl rfl rfl rfl (hnone _ rfl)
  | retried hphase =>
      exact hfenced.phase_step hlocked rfl rfl rfl rfl (hnone _ rfl)
  | committed hphase haccepted =>
      refine hfenced.commit_step hphase fun lockedAt attemptsSoFar hkind => ?_
      subst hkind
      simpa [FreshClaims, hphase] using hfresh
  | refused hphase hrefused =>
      exact hfenced.phase_step hlocked rfl rfl rfl rfl (hnone _ rfl)
  | aborted hphase =>
      exact hfenced.phase_step hlocked rfl rfl rfl rfl (hnone _ rfl)

theorem Fenced.of_reachable
    (hreach : (deliveryMachine Process).ReachableWhere FreshClaims state) :
    state.Fenced := by
  refine Machine.ReachableWhere.invariant ?_ ?_ hreach
  · intro start hinitial
    have hlocked := Locked.of_initial hinitial
    obtain ⟨⟨created, -, hrow⟩, -, hidle, hunclaimed, hclaimant, -⟩ := hinitial
    constructor
    · exact hlocked
    · intro process lockedAt hclaim
      rw [hidle process] at hclaim
      contradiction
    · intro first second lockedAt hfirst
      rw [hunclaimed first] at hfirst
      contradiction
    · intro hsending
      rw [hrow] at hsending
      contradiction
    · intro process howner
      rw [hclaimant] at howner
      contradiction
  · intro current action next hfenced hfresh hstep
    exact hfenced.step hfresh hstep

end DeliveryState

/-! ## Refinement of the life cycle -/

def DeliveryState.stage (state : DeliveryState Process) :
    DeliveryStage Process :=
  ⟨state.row.status, state.claimant⟩

/-- Only a commit changes the row, to the version its transaction has
prepared. -/
theorem DeliveryState.Locked.row_change
    [DecidableEq Process] {state next : DeliveryState Process}
    (hlocked : state.Locked) {action : DeliveryAction Process}
    (hstep : deliveryStep state action = some next) :
    (next.row = state.row ∧ next.claimant = state.claimant) ∨
      ∃ row kind, action.move = .commit ∧
        state.phase action.process = .writing row kind ∧
        state.Prepared (.writing row kind) ∧
        next = state.commit action.process action.now row kind := by
  obtain ⟨process, now, move⟩ := action
  have hknows := hlocked.prepared process
  have hchange : DeliveryChange state process now move next :=
    deliveryStep_change hstep
  cases hchange with
  | committed hphase haccepted =>
      rw [hphase] at hknows
      exact Or.inr ⟨_, _, rfl, hphase, hknows, rfl⟩
  | _ => exact Or.inl ⟨rfl, rfl⟩

theorem deliveryMachine_refines_lifecycle [DecidableEq Process] :
    (deliveryMachine Process).RefinesWhere FreshClaims (lifecycle Process)
      DeliveryState.stage := by
  constructor
  · rintro state ⟨⟨created, -, hrow⟩, -, -, -, hclaimant, -⟩
    exact ⟨by rw [DeliveryState.stage, hrow]; rfl, hclaimant⟩
  · intro state action next hreach _ hstep
    have hfenced := DeliveryState.Fenced.of_reachable hreach
    rcases hfenced.locked.row_change hstep with
      ⟨hrow, hclaimant⟩ | ⟨row, kind, -, hphase, hknows, rfl⟩
    · exact Or.inl (by rw [DeliveryState.stage, hrow, hclaimant]; rfl)
    · right
      have hstatus := DeliveryState.Prepared.status_of_writing hknows
      cases kind with
      | bury =>
          refine ⟨.bury, ?_⟩
          simp only [lifecycle, lifecycleStep, DeliveryState.stage, hstatus.1,
            if_true, DeliveryState.commit_row, hstatus.2]
          rfl
      | claim lockedAt attemptsSoFar =>
          refine ⟨.claim action.process, ?_⟩
          simp only [lifecycle, lifecycleStep, DeliveryState.stage, hstatus.1,
            if_true, DeliveryState.commit_row, hstatus.2]
          rfl
      | outcome lockedAt =>
          refine ⟨.outcome action.process row.status, ?_⟩
          have hcurrent := hfenced.claimant_of_isClaim
            (by rw [hphase]; rfl) hknows.1
          simp only [lifecycle, lifecycleStep, DeliveryState.stage, hstatus.1,
            hcurrent, hstatus.2, and_self, if_true, DeliveryState.commit_row]
          rfl
      | reclaim =>
          refine ⟨.reclaim, ?_⟩
          simp only [lifecycle, lifecycleStep, DeliveryState.stage, hstatus.1,
            if_true, DeliveryState.commit_row, hstatus.2]
          rfl
      | retry =>
          refine ⟨.retry, ?_⟩
          simp only [lifecycle, lifecycleStep, DeliveryState.stage, hstatus.1,
            if_true, DeliveryState.commit_row, hstatus.2]
          rfl

/-- The changes of the status which the three kinds of process make. -/
inductive LegalChange
    (state next : DeliveryState Process) (process : Process) : Prop
  | phaseOne {row : DeliveryRow} {kind : WriteKind}
      (hphase : state.phase process = .writing row kind)
      (hkind : kind = .bury ∨
        ∃ lockedAt attemptsSoFar, kind = .claim lockedAt attemptsSoFar)
      (hfrom : state.row.status = .pending ∨ state.row.status = .failed)
      (hto : next.row.status = .sending ∨ next.row.status = .dead)
  | phaseThree {row : DeliveryRow} {lockedAt : Instant}
      (hphase : state.phase process = .writing row (.outcome lockedAt))
      (hcurrent : state.claimant = some process)
      (hfrom : state.row.status = .sending)
      (hto : next.row.status = .sent ∨ next.row.status = .failed ∨
        next.row.status = .dead)
  | reclaim {row : DeliveryRow}
      (hphase : state.phase process = .writing row .reclaim)
      (hfrom : state.row.status = .sending)
      (hto : next.row.status = .failed)
  | manualRetry {row : DeliveryRow}
      (hphase : state.phase process = .writing row .retry)
      (hfrom : state.row.status = .dead)
      (hto : next.row.status = .pending)

/-- A step leaves the row as it is or makes a legal change. -/
theorem DeliveryState.Fenced.legalChange
    [DecidableEq Process] {state next : DeliveryState Process}
    (hfenced : state.Fenced) {action : DeliveryAction Process}
    (hstep : deliveryStep state action = some next) :
    next.row = state.row ∨ LegalChange state next action.process := by
  rcases hfenced.locked.row_change hstep with
    ⟨hrow, -⟩ | ⟨row, kind, -, hphase, hknows, rfl⟩
  · exact Or.inl hrow
  · right
    have hstatus := DeliveryState.Prepared.status_of_writing hknows
    cases kind with
    | bury =>
        exact .phaseOne hphase (Or.inl rfl) hstatus.1 (Or.inr hstatus.2)
    | claim lockedAt attemptsSoFar =>
        exact .phaseOne hphase (Or.inr ⟨_, _, rfl⟩) hstatus.1
          (Or.inl hstatus.2)
    | outcome lockedAt =>
        exact .phaseThree hphase
          (hfenced.claimant_of_isClaim (by rw [hphase]; rfl) hknows.1)
          hstatus.1 hstatus.2
    | reclaim => exact .reclaim hphase hstatus.1 hstatus.2
    | retry => exact .manualRetry hphase hstatus.1 hstatus.2

/-- Delivery fencing, over every interleaving of any number of processes. -/
theorem delivery_fencing
    [DecidableEq Process] {state next : DeliveryState Process}
    {action : DeliveryAction Process}
    (hreach : (deliveryMachine Process).ReachableWhere FreshClaims state)
    (hstep : deliveryStep state action = some next) :
    (∀ row lockedAt,
      state.phase action.process = .writing row (.outcome lockedAt) →
        state.claimant = some action.process) ∧
    (state.row.status = .sent → next.row = state.row) ∧
    (state.row.status = .dead → next.row = state.row ∨
      next.row.status = .pending ∧
        ∃ row, state.phase action.process = .writing row .retry) ∧
    (next.row = state.row ∨ LegalChange state next action.process) := by
  have hfenced := DeliveryState.Fenced.of_reachable hreach
  have hchange := hfenced.legalChange hstep
  refine ⟨?_, ?_, ?_, hchange⟩
  · intro row lockedAt hphase
    have hknows := hfenced.locked.prepared action.process
    rw [hphase] at hknows
    exact hfenced.claimant_of_isClaim (by rw [hphase]; rfl) hknows.1
  · intro hsent
    rcases hchange with hrow | hlegal
    · exact hrow
    · cases hlegal <;> simp_all
  · intro hdead
    rcases hchange with hrow | hlegal
    · exact Or.inl hrow
    · cases hlegal with
      | manualRetry hphase hfrom hto => exact Or.inr ⟨hto, _, hphase⟩
      | phaseOne => simp_all
      | phaseThree => simp_all
      | reclaim => simp_all

/-! ## An orphaned worker -/

def createdDelivery (Process : Type*) : DeliveryState Process where
  row := newDelivery 0
  holder := none
  phase := fun _ => .idle
  claimOf := fun _ => none
  claimant := none
  posts := 0
  clock := 0

def enabledChannel : DispatchReads := ⟨some true, true, none⟩

def okReply : HttpReply := .response 200 .absent []

def serverError : HttpReply := .response 500 .absent (pyText "unavailable".toList)

/-- Worker 0 is slow, pass 1 reclaims the row, worker 2 delivers it; the
outcome of worker 0 comes in between. -/
def orphanRun : List (DeliveryAction (Fin 3)) :=
  [⟨0, 1, .lock⟩, ⟨0, 2, .decide enabledChannel⟩, ⟨0, 3, .commit⟩,
    ⟨0, 4, .post⟩,
    ⟨1, timedeltaMinutes 11, .startPass⟩,
    ⟨1, timedeltaMinutes 11, .selectDue⟩,
    ⟨1, timedeltaMinutes 11, .selectStuck⟩,
    ⟨1, timedeltaMinutes 11, .reclaim⟩,
    ⟨1, timedeltaMinutes 11, .commit⟩,
    ⟨2, timedeltaMinutes 12, .lock⟩,
    ⟨2, timedeltaMinutes 12, .decide enabledChannel⟩,
    ⟨2, timedeltaMinutes 12, .commit⟩,
    ⟨2, timedeltaMinutes 12, .post⟩,
    ⟨2, timedeltaMinutes 12, .answer okReply⟩,
    ⟨0, timedeltaMinutes 13, .answer serverError⟩,
    ⟨0, timedeltaMinutes 13, .lockOutcome⟩,
    ⟨2, timedeltaMinutes 14, .lockOutcome⟩,
    ⟨2, timedeltaMinutes 14, .record 0⟩]

theorem delivery_fencing_orphan :
    ∃ state next, (deliveryMachine (Fin 3)).run (createdDelivery (Fin 3))
        orphanRun = some state ∧
      deliveryStep state ⟨2, timedeltaMinutes 14, .commit⟩ = some next ∧
      next.row.status = .sent ∧ LegalChange state next 2 := by
  have hstart : (deliveryMachine (Fin 3)).ReachableWhere FreshClaims
      (createdDelivery (Fin 3)) :=
    .initial ⟨⟨0, le_refl _, rfl⟩, rfl, fun _ => rfl, fun _ => rfl, rfl, rfl⟩
  have hallowed : (deliveryMachine (Fin 3)).AllowedAlong FreshClaims
      (createdDelivery (Fin 3)) orphanRun := by
    decide +kernel
  obtain ⟨state, next, hrun, hstep, hsent, hchanged⟩ : ∃ state next,
      (deliveryMachine (Fin 3)).run (createdDelivery (Fin 3)) orphanRun =
          some state ∧
        deliveryStep state ⟨2, timedeltaMinutes 14, .commit⟩ = some next ∧
        next.row.status = .sent ∧ next.row ≠ state.row :=
    ⟨_, _, rfl, rfl, by decide +kernel, by decide +kernel⟩
  have hfenced := delivery_fencing (hstart.run hallowed hrun) hstep
  rcases hfenced.2.2.2 with hrow | hlegal
  · exact absurd hrow hchanged
  · exact ⟨state, next, hrun, hstep, hsent, hlegal⟩

end NotifyHub
