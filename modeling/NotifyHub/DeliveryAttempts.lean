import NotifyHub.DeliveryFencing
import Mathlib.Tactic

/-!
# The number of calls of one delivery

The attempt counter advances in phase 3 only.  A call whose outcome is never
recorded is therefore not counted: one which lasts until `reconcile` takes its
row back, and one whose error text the database refuses.  Without these two,
a delivery is called at most five times, and the fifth call ends it.
-/

namespace NotifyHub

/-- The phases of a run of `dispatch_delivery`. -/
def DeliveryPhase.isWorker : DeliveryPhase → Bool
  | .claiming _ | .calling _ _ | .waiting _ _ | .answered _ _ _
  | .recording _ _ _ | .writing _ .bury | .writing _ (.claim _ _)
  | .writing _ (.outcome _) => true
  | _ => false

variable {Process : Type*}

/-- No worker dies, and its transactions are not rolled back from outside. -/
def WorkersSurvive
    (state : DeliveryState Process) (action : DeliveryAction Process) : Prop :=
  action.move = .abort → (state.phase action.process).isWorker = false

instance (state : DeliveryState Process) (action : DeliveryAction Process) :
    Decidable (WorkersSurvive state action) :=
  inferInstanceAs (Decidable (_ → _))

/-- The error text which a step takes from the call can be stored. -/
def StorableError (move : DeliveryMove) : Prop :=
  match move with
  | .answer reply => reply.storable = true
  | .formatFails safeError => unwritable safeError = false
  | _ => True

instance : DecidablePred StorableError := fun move =>
  match move with
  | .answer reply => inferInstanceAs (Decidable (reply.storable = true))
  | .formatFails safeError =>
      inferInstanceAs (Decidable (unwritable safeError = false))
  | .lock | .decide _ | .post | .lockOutcome | .record _ | .startPass
  | .selectDue | .selectStuck | .reclaim | .lockRetry | .retry | .commit
  | .abort => .isTrue trivial

/-- When the UPDATE of a reconcile pass runs, no call that is still to be
recorded was claimed before the cutoff of the pass. -/
def RecordedInTime
    (state : DeliveryState Process) (action : DeliveryAction Process) : Prop :=
  action.move = .reclaim → ∀ stuckCutoff,
    state.phase action.process = .readStuck stuckCutoff →
      ∀ worker lockedAt, (state.phase worker).claim? = some lockedAt →
        stuckCutoff ≤ lockedAt

/-- Every call is recorded. -/
structure CallsRecorded
    (state : DeliveryState Process) (action : DeliveryAction Process) :
    Prop where
  survive : WorkersSurvive state action
  storable : StorableError action.move
  inTime : RecordedInTime state action

/-! ## Counting calls -/

def WebhookResult.storable (result : WebhookResult) : Prop :=
  ∀ error, result.error = some error → unwritable error = false

/-- The worker serves the row: its claim is the one in the row, and the calls
made so far are counted, but for its own. -/
def DeliveryState.Serves
    (state : DeliveryState Process) : DeliveryPhase → Prop
  | .calling lockedAt attemptsSoFar =>
      state.row.lockedAt = some lockedAt ∧
        attemptsSoFar = state.row.attempts ∧ state.posts ≤ state.row.attempts
  | .waiting lockedAt attemptsSoFar =>
      state.row.lockedAt = some lockedAt ∧
        attemptsSoFar = state.row.attempts ∧
        state.posts ≤ state.row.attempts + 1
  | .answered lockedAt attemptsSoFar result
  | .recording lockedAt attemptsSoFar result =>
      state.row.lockedAt = some lockedAt ∧
        attemptsSoFar = state.row.attempts ∧
        state.posts ≤ state.row.attempts + 1 ∧ result.storable
  | .writing row (.outcome lockedAt) =>
      state.row.lockedAt = some lockedAt ∧
        state.posts ≤ state.row.attempts + 1 ∧ row.storable = true ∧
        ∃ result now jitter,
          row = state.row.outcome state.row.attempts result now jitter
  | _ => False

structure DeliveryState.Counted (state : DeliveryState Process) : Prop where
  locked : state.Locked
  unreclaimed : ∀ process row, state.phase process ≠ .writing row .reclaim
  below : state.row.status.isTerminal = false →
    state.row.attempts < maxAttempts
  resting : state.row.status = .pending ∨ state.row.status = .failed →
    state.posts ≤ state.row.attempts
  ended : state.row.status.isTerminal = true → state.posts ≤ maxAttempts
  unserved : state.row.status ≠ .sending →
    ∀ process, (state.phase process).claim? = none
  served : state.row.status = .sending →
    ∃ worker, state.Serves (state.phase worker) ∧
      ∀ other, other ≠ worker → (state.phase other).claim? = none

namespace DeliveryState

variable {state next : DeliveryState Process} {process : Process}

theorem Serves.claim
    {phase : DeliveryPhase} (hserves : state.Serves phase) :
    phase.claim? = state.row.lockedAt ∧ phase.claim? ≠ none := by
  cases phase with
  | writing row kind =>
      cases kind <;> simp_all [Serves, DeliveryPhase.claim?]
  | _ => simp_all [Serves, DeliveryPhase.claim?]

theorem Serves.congr
    {phase : DeliveryPhase} (hserves : state.Serves phase)
    (hrow : next.row = state.row) (hposts : next.posts = state.posts) :
    next.Serves phase := by
  cases phase with
  | writing row kind =>
      cases kind <;> simp_all [Serves]
  | _ => simp_all [Serves]

/-- A worker with a claim is the one which serves the row. -/
theorem Counted.serves_of_claim
    (hcounted : state.Counted) {lockedAt : Instant}
    (hclaim : (state.phase process).claim? = some lockedAt) :
    state.row.status = .sending ∧ state.row.lockedAt = some lockedAt ∧
      state.Serves (state.phase process) ∧
      ∀ other, other ≠ process → (state.phase other).claim? = none := by
  have hsending : state.row.status = .sending := by
    by_contra hnot
    rw [hcounted.unserved hnot process] at hclaim
    contradiction
  obtain ⟨worker, hserves, hothers⟩ := hcounted.served hsending
  obtain rfl : process = worker := by
    by_contra hne
    rw [hothers process hne] at hclaim
    contradiction
  exact ⟨hsending, by rw [← hserves.claim.1, hclaim], hserves, hothers⟩

variable [DecidableEq Process]

/-- A process without a claim moves, and the row stays. -/
theorem Counted.bystander
    (hcounted : state.Counted) (hlocked : next.Locked)
    {phase : DeliveryPhase} (hrow : next.row = state.row)
    (hposts : next.posts = state.posts)
    (hphase : next.phase = Function.update state.phase process phase)
    (hbefore : (state.phase process).claim? = none)
    (hafter : phase.claim? = none)
    (hreclaim : ∀ row, phase ≠ .writing row .reclaim) :
    next.Counted := by
  have hself : next.phase process = phase := by
    rw [hphase, Function.update_self]
  have hother : ∀ other, other ≠ process →
      next.phase other = state.phase other := by
    intro other hne
    rw [hphase, Function.update_of_ne hne]
  have hclaims : ∀ other, (next.phase other).claim? =
      (state.phase other).claim? := by
    intro other
    by_cases heq : other = process
    · rw [heq, hself, hafter, hbefore]
    · rw [hother other heq]
  constructor
  · exact hlocked
  · intro other row
    by_cases heq : other = process
    · rw [heq, hself]
      exact hreclaim row
    · rw [hother other heq]
      exact hcounted.unreclaimed other row
  · rw [hrow]
    exact hcounted.below
  · rw [hrow, hposts]
    exact hcounted.resting
  · rw [hrow, hposts]
    exact hcounted.ended
  · intro hnot other
    rw [hclaims other]
    exact hcounted.unserved (by rwa [hrow] at hnot) other
  · intro hsending
    obtain ⟨worker, hserves, hothers⟩ :=
      hcounted.served (by rwa [hrow] at hsending)
    have hne : worker ≠ process := by
      rintro rfl
      exact hserves.claim.2 hbefore
    refine ⟨worker, ?_, fun other hdiff => by
      rw [hclaims other, hothers other hdiff]⟩
    rw [hother worker hne]
    exact hserves.congr hrow hposts

/-- The worker which serves the row goes on with its call. -/
theorem Counted.serve
    (hcounted : state.Counted) (hlocked : next.Locked)
    {phase : DeliveryPhase} (hrow : next.row = state.row)
    (hphase : next.phase = Function.update state.phase process phase)
    {lockedAt : Instant}
    (hbefore : (state.phase process).claim? = some lockedAt)
    (hafter : next.Serves phase)
    (hreclaim : ∀ row, phase ≠ .writing row .reclaim) :
    next.Counted := by
  obtain ⟨hsending, -, -, hothers⟩ := hcounted.serves_of_claim hbefore
  have hself : next.phase process = phase := by
    rw [hphase, Function.update_self]
  have hother : ∀ other, other ≠ process →
      next.phase other = state.phase other := by
    intro other hne
    rw [hphase, Function.update_of_ne hne]
  constructor
  · exact hlocked
  · intro other row
    by_cases heq : other = process
    · rw [heq, hself]
      exact hreclaim row
    · rw [hother other heq]
      exact hcounted.unreclaimed other row
  · rw [hrow]
    exact hcounted.below
  · rw [hrow, hsending]
    simp
  · rw [hrow, hsending]
    simp [DeliveryStatus.isTerminal]
  · rw [hrow, hsending]
    simp
  · intro _
    refine ⟨process, by rwa [hself], fun other hne => ?_⟩
    rw [hother other hne]
    exact hothers other hne

/-- A commit after which nobody calls. -/
theorem Counted.commit_rest
    (hcounted : state.Counted) {now : Instant} {row : DeliveryRow}
    {kind : WriteKind} (hphase : state.phase process = .writing row kind)
    (hafter : kind.after = .finished) (hstatus : row.status ≠ .sending)
    (hothers : ∀ other, other ≠ process →
      (state.phase other).claim? = none)
    (hbelow : row.status.isTerminal = false → row.attempts < maxAttempts)
    (hresting : row.status = .pending ∨ row.status = .failed →
      (state.commit process now row kind).posts ≤ row.attempts)
    (hended : row.status.isTerminal = true →
      (state.commit process now row kind).posts ≤ maxAttempts) :
    (state.commit process now row kind).Counted := by
  constructor
  · exact hcounted.locked.commit_step hphase
  · intro other row'
    by_cases heq : other = process
    · rw [heq, commit_phase_self, hafter]
      simp
    · rw [commit_phase_of_ne heq]
      exact hcounted.unreclaimed other row'
  · exact hbelow
  · exact hresting
  · exact hended
  · intro _ other
    by_cases heq : other = process
    · rw [heq, commit_phase_self, hafter]
      rfl
    · rw [commit_phase_of_ne heq]
      exact hothers other heq
  · intro hsending
    exact absurd hsending hstatus

theorem Counted.commit_claim
    (hcounted : state.Counted) {now : Instant} {row : DeliveryRow}
    {lockedAt : Instant} {attemptsSoFar : ℕ}
    (hphase : state.phase process =
      .writing row (.claim lockedAt attemptsSoFar)) :
    (state.commit process now row
      (.claim lockedAt attemptsSoFar)).Counted := by
  have hknows := hcounted.locked.prepared process
  rw [hphase] at hknows
  have hwaiting := (Prepared.status_of_writing hknows).1
  obtain ⟨-, rfl, rfl⟩ := hknows
  have hnot : state.row.status ≠ .sending := by
    rcases hwaiting with hpending | hfailed
    · simp [hpending]
    · simp [hfailed]
  have hbelow : state.row.attempts < maxAttempts := by
    apply hcounted.below
    rcases hwaiting with hpending | hfailed
    · simp [hpending, DeliveryStatus.isTerminal]
    · simp [hfailed, DeliveryStatus.isTerminal]
  constructor
  · exact hcounted.locked.commit_step hphase
  · intro other row'
    by_cases heq : other = process
    · rw [heq, commit_phase_self]
      simp [WriteKind.after]
    · rw [commit_phase_of_ne heq]
      exact hcounted.unreclaimed other row'
  · exact fun _ => hbelow
  · simp [DeliveryRow.claim]
  · simp [DeliveryRow.claim, DeliveryStatus.isTerminal]
  · simp [DeliveryRow.claim]
  · intro _
    refine ⟨process, ?_, fun other hne => ?_⟩
    · rw [commit_phase_self]
      exact ⟨rfl, rfl, hcounted.resting hwaiting⟩
    · rw [commit_phase_of_ne hne]
      exact hcounted.unserved hnot other

theorem Counted.commit_outcome
    (hcounted : state.Counted) {now : Instant} {row : DeliveryRow}
    {lockedAt : Instant}
    (hphase : state.phase process = .writing row (.outcome lockedAt)) :
    (state.commit process now row (.outcome lockedAt)).Counted := by
  obtain ⟨hsending, -, hserves, hothers⟩ :=
    hcounted.serves_of_claim (by rw [hphase]; rfl)
  rw [hphase] at hserves
  obtain ⟨-, hposts, -, result, stamp, jitter, rfl⟩ := hserves
  have hbelow : state.row.attempts < maxAttempts :=
    hcounted.below (by rw [hsending]; rfl)
  have hcases := state.row.outcome_cases state.row.attempts result stamp jitter
  have hstatus := state.row.outcome_status state.row.attempts result stamp
    jitter
  refine hcounted.commit_rest hphase rfl ?_ hothers ?_ ?_ ?_
  · rcases hstatus with hsent | hfailed | hdead
    · simp [hsent]
    · simp [hfailed]
    · simp [hdead]
  · intro hopen
    rcases hcases with hterminal | ⟨-, hattempts, hless⟩
    · rw [hterminal] at hopen
      contradiction
    · rw [hattempts]
      exact hless
  · intro hwaiting
    rcases hcases with hterminal | ⟨-, hattempts, -⟩
    · rcases hwaiting with hpending | hfailed
      · rw [hpending] at hterminal
        contradiction
      · rw [hfailed] at hterminal
        contradiction
    · rw [hattempts]
      exact hposts
  · exact fun _ => le_trans hposts hbelow

theorem Counted.commit_step
    (hcounted : state.Counted) {now : Instant} {row : DeliveryRow}
    {kind : WriteKind} (hphase : state.phase process = .writing row kind) :
    (state.commit process now row kind).Counted := by
  have hknows := hcounted.locked.prepared process
  rw [hphase] at hknows
  have hstatus := Prepared.status_of_writing hknows
  cases kind with
  | claim lockedAt attemptsSoFar => exact hcounted.commit_claim hphase
  | outcome lockedAt => exact hcounted.commit_outcome hphase
  | reclaim => exact absurd hphase (hcounted.unreclaimed process row)
  | bury =>
      have hnot : state.row.status ≠ .sending := by
        rcases hstatus.1 with hpending | hfailed
        · simp [hpending]
        · simp [hfailed]
      have hbelow : state.row.attempts < maxAttempts := by
        apply hcounted.below
        rcases hstatus.1 with hpending | hfailed
        · simp [hpending, DeliveryStatus.isTerminal]
        · simp [hfailed, DeliveryStatus.isTerminal]
      refine hcounted.commit_rest hphase rfl (by simp [hstatus.2])
        (fun other _ => hcounted.unserved hnot other)
        (by simp [hstatus.2, DeliveryStatus.isTerminal])
        (by simp [hstatus.2]) ?_
      exact fun _ => le_trans (hcounted.resting hstatus.1) hbelow.le
  | retry =>
      have hnot : state.row.status ≠ .sending := by simp [hstatus.1]
      obtain ⟨-, stamp, rfl⟩ := hknows
      refine hcounted.commit_rest hphase rfl (by simp [DeliveryRow.retry])
        (fun other _ => hcounted.unserved hnot other) ?_ ?_ ?_
      · exact fun _ => maxAttempts_pos
      · exact fun _ => le_refl _
      · exact fun _ => Nat.zero_le _

theorem Counted.step
    (hcounted : state.Counted) {action : DeliveryAction Process}
    (hrecorded : CallsRecorded state action)
    (hstep : deliveryStep state action = some next) : next.Counted := by
  have hlocked := hcounted.locked.step hstep
  obtain ⟨process, now, move⟩ := action
  have hchange : DeliveryChange state process now move next :=
    deliveryStep_change hstep
  cases hchange with
  | quiet hlock hclaim hlock' hclaim' =>
      refine hcounted.bystander hlocked rfl rfl rfl hclaim hclaim' ?_
      rintro row rfl
      contradiction
  | claiming hphase hfree hclaimable =>
      exact hcounted.bystander hlocked rfl rfl rfl (by rw [hphase]; rfl) rfl
        (by simp)
  | burying error hphase =>
      exact hcounted.bystander hlocked rfl rfl rfl (by rw [hphase]; rfl) rfl
        (by simp)
  | claimed hphase =>
      exact hcounted.bystander hlocked rfl rfl rfl (by rw [hphase]; rfl) rfl
        (by simp)
  | posted hphase =>
      obtain ⟨-, -, hserves, -⟩ :=
        hcounted.serves_of_claim (by rw [hphase]; rfl)
      rw [hphase] at hserves
      obtain ⟨hlockedAt, hattempts, hposts⟩ := hserves
      exact hcounted.serve hlocked rfl rfl (by rw [hphase]; rfl)
        ⟨hlockedAt, hattempts, Nat.succ_le_succ hposts⟩ (by simp)
  | unformatted safeError hphase =>
      obtain ⟨-, -, hserves, -⟩ :=
        hcounted.serves_of_claim (by rw [hphase]; rfl)
      rw [hphase] at hserves
      obtain ⟨hlockedAt, hattempts, hposts⟩ := hserves
      refine hcounted.serve hlocked rfl rfl (by rw [hphase]; rfl)
        ⟨hlockedAt, hattempts, le_trans hposts (Nat.le_succ _), ?_⟩ (by simp)
      intro error herror
      rw [← Option.some.inj herror]
      exact hrecorded.storable
  | answered reply hphase =>
      obtain ⟨-, -, hserves, -⟩ :=
        hcounted.serves_of_claim (by rw [hphase]; rfl)
      rw [hphase] at hserves
      obtain ⟨hlockedAt, hattempts, hposts⟩ := hserves
      exact hcounted.serve hlocked rfl rfl (by rw [hphase]; rfl)
        ⟨hlockedAt, hattempts, hposts,
          (storable_iff now reply).mp hrecorded.storable⟩ (by simp)
  | discarded hphase hother =>
      obtain ⟨hsending, hlockedAt, -, -⟩ :=
        hcounted.serves_of_claim (by rw [hphase]; rfl)
      rw [DeliveryRow.isClaim_iff.mpr ⟨hsending, hlockedAt⟩] at hother
      contradiction
  | recording hphase hfree hclaim =>
      obtain ⟨-, -, hserves, -⟩ :=
        hcounted.serves_of_claim (by rw [hphase]; rfl)
      rw [hphase] at hserves
      exact hcounted.serve hlocked rfl rfl (by rw [hphase]; rfl) hserves
        (by simp)
  | recorded jitter hphase =>
      obtain ⟨-, -, hserves, -⟩ :=
        hcounted.serves_of_claim (by rw [hphase]; rfl)
      rw [hphase] at hserves
      obtain ⟨hlockedAt, rfl, hposts, hstorable⟩ := hserves
      exact hcounted.serve hlocked rfl rfl (by rw [hphase]; rfl)
        ⟨hlockedAt, hposts,
          state.row.outcome_storable hstorable _ now jitter, _, _, _, rfl⟩
        (by simp)
  | @reclaiming stuckCutoff hphase hfree hstuck =>
      obtain ⟨hsending, lockedAt, hlockedAt, hold⟩ :=
        DeliveryRow.stuck_iff.mp hstuck
      obtain ⟨worker, hserves, -⟩ := hcounted.served hsending
      have hyoung := hrecorded.inTime rfl stuckCutoff hphase worker lockedAt
        (by rw [hserves.claim.1, hlockedAt])
      exact absurd hold (not_lt.mpr hyoung)
  | retrying hphase hfree hdead =>
      exact hcounted.bystander hlocked rfl rfl rfl (by rw [hphase]; rfl) rfl
        (by simp)
  | retried hphase =>
      exact hcounted.bystander hlocked rfl rfl rfl (by rw [hphase]; rfl) rfl
        (by simp)
  | committed hphase haccepted => exact hcounted.commit_step hphase
  | @refused row kind hphase hrefused =>
      refine hcounted.bystander hlocked rfl rfl rfl ?_ rfl (by simp)
      cases kind with
      | outcome lockedAt =>
          obtain ⟨-, -, hserves, -⟩ :=
            hcounted.serves_of_claim (by rw [hphase]; rfl)
          rw [hphase] at hserves
          have hstorable := hserves.2.2.1
          simp [WriteKind.refused, hstorable] at hrefused
      | _ =>
          rw [hphase]
          rfl
  | aborted hphase =>
      refine hcounted.bystander hlocked rfl rfl rfl ?_ rfl (by simp)
      have hnot := hrecorded.survive rfl
      cases hold : state.phase process with
      | writing row kind =>
          cases kind <;>
            simp_all [DeliveryPhase.isWorker, DeliveryPhase.claim?]
      | _ => simp_all [DeliveryPhase.isWorker, DeliveryPhase.claim?]

theorem Counted.of_reachable
    (hreach : (deliveryMachine Process).ReachableWhere CallsRecorded state) :
    state.Counted := by
  refine Machine.ReachableWhere.invariant ?_ ?_ hreach
  · intro start hinitial
    have hlocked := Locked.of_initial hinitial
    obtain ⟨⟨created, -, hrow⟩, -, hidle, -, -, hposts⟩ := hinitial
    constructor
    · exact hlocked
    · intro process row
      rw [hidle process]
      simp
    · intro _
      rw [hrow]
      exact maxAttempts_pos
    · intro _
      rw [hposts]
      exact Nat.zero_le _
    · intro _
      rw [hposts]
      exact Nat.zero_le _
    · intro _ process
      rw [hidle process]
      rfl
    · intro hsending
      rw [hrow] at hsending
      contradiction
  · intro current action next hcounted hrecorded hstep
    exact hcounted.step hrecorded hstep

/-! ## The last call -/

omit [DecidableEq Process] in
theorem Serves.posts_le
    {phase : DeliveryPhase} (hserves : state.Serves phase) :
    state.posts ≤ state.row.attempts + 1 := by
  cases phase with
  | calling lockedAt attemptsSoFar => exact le_trans hserves.2.2 (by omega)
  | waiting lockedAt attemptsSoFar => exact hserves.2.2
  | answered lockedAt attemptsSoFar result => exact hserves.2.2.1
  | recording lockedAt attemptsSoFar result => exact hserves.2.2.1
  | writing row kind =>
      cases kind with
      | outcome lockedAt => exact hserves.2.1
      | _ => exact hserves.elim
  | _ => exact hserves.elim

omit [DecidableEq Process] in
theorem Counted.posts_le (hcounted : state.Counted) :
    state.posts ≤ maxAttempts := by
  cases hstatus : state.row.status with
  | sending =>
      obtain ⟨worker, hserves, -⟩ := hcounted.served hstatus
      have hbelow := hcounted.below (by rw [hstatus]; rfl)
      exact le_trans hserves.posts_le hbelow
  | pending =>
      have hbelow := hcounted.below (by rw [hstatus]; rfl)
      exact le_trans (hcounted.resting (Or.inl hstatus)) hbelow.le
  | failed =>
      have hbelow := hcounted.below (by rw [hstatus]; rfl)
      exact le_trans (hcounted.resting (Or.inr hstatus)) hbelow.le
  | sent => exact hcounted.ended (by rw [hstatus]; rfl)
  | dead => exact hcounted.ended (by rw [hstatus]; rfl)

omit [DecidableEq Process] in
/-- After the last call the row is final, or its worker is still to write the
outcome. -/
theorem Counted.last_call
    (hcounted : state.Counted) (hlast : state.posts = maxAttempts)
    (hopen : state.row.status.isTerminal = false) :
    state.row.status = .sending ∧ maxAttempts = state.row.attempts + 1 := by
  have hbelow := hcounted.below hopen
  cases hstatus : state.row.status with
  | sending =>
      obtain ⟨worker, hserves, -⟩ := hcounted.served hstatus
      have hposts := hserves.posts_le
      exact ⟨rfl, by omega⟩
  | pending =>
      have hposts := hcounted.resting (Or.inl hstatus)
      omega
  | failed =>
      have hposts := hcounted.resting (Or.inr hstatus)
      omega
  | sent =>
      rw [hstatus] at hopen
      contradiction
  | dead =>
      rw [hstatus] at hopen
      contradiction

omit [DecidableEq Process] in
theorem Counted.outcome_terminal
    (hcounted : state.Counted) (hlast : state.posts = maxAttempts)
    {row : DeliveryRow} {lockedAt : Instant}
    (hphase : state.phase process = .writing row (.outcome lockedAt)) :
    row.status.isTerminal = true := by
  obtain ⟨hsending, -, hserves, -⟩ :=
    hcounted.serves_of_claim (by rw [hphase]; rfl)
  rw [hphase] at hserves
  obtain ⟨-, hposts, -, result, stamp, jitter, rfl⟩ := hserves
  rcases state.row.outcome_cases state.row.attempts result stamp jitter with
    hterminal | ⟨-, -, hless⟩
  · exact hterminal
  · omega

/-- After the last call no step posts again, and the only step which changes
the row ends the delivery. -/
theorem Counted.step_after_last
    (hcounted : state.Counted) (hlast : state.posts = maxAttempts)
    (hopen : state.row.status.isTerminal = false)
    {action : DeliveryAction Process}
    (hstep : deliveryStep state action = some next) :
    next.posts = maxAttempts ∧
      (next.row = state.row ∨ next.row.status.isTerminal = true) := by
  obtain ⟨hsending, hattempts⟩ := hcounted.last_call hlast hopen
  obtain ⟨process, now, move⟩ := action
  have hchange : DeliveryChange state process now move next :=
    deliveryStep_change hstep
  cases hchange with
  | posted hphase =>
      obtain ⟨-, -, hserves, -⟩ :=
        hcounted.serves_of_claim (by rw [hphase]; rfl)
      rw [hphase] at hserves
      have hposts := hserves.2.2
      omega
  | @committed row kind hphase haccepted =>
      have hknows := hcounted.locked.prepared process
      rw [hphase] at hknows
      have hstatus := Prepared.status_of_writing hknows
      cases kind with
      | outcome lockedAt =>
          exact ⟨hlast, Or.inr (hcounted.outcome_terminal hlast hphase)⟩
      | reclaim => exact absurd hphase (hcounted.unreclaimed process row)
      | _ => simp [hsending] at hstatus
  | _ => exact ⟨hlast, Or.inl rfl⟩

/-- Some run from here ends the delivery without another call. -/
def Finishes (state : DeliveryState Process) : Prop :=
  ∃ actions final, (deliveryMachine Process).run state actions = some final ∧
    (deliveryMachine Process).AllowedAlong CallsRecorded state actions ∧
    final.row.status.isTerminal = true ∧ final.posts = state.posts

theorem Finishes.step
    {action : DeliveryAction Process}
    (hstep : deliveryStep state action = some next)
    (hrecorded : CallsRecorded state action)
    (hposts : next.posts = state.posts) (hfinishes : next.Finishes) :
    state.Finishes := by
  obtain ⟨actions, final, hrun, hallowed, hterminal, hsame⟩ := hfinishes
  have hmachine : (deliveryMachine Process).step state action = some next :=
    hstep
  refine ⟨action :: actions, final, ?_, ⟨hrecorded, ?_⟩, hterminal,
    hsame.trans hposts⟩
  · rw [Machine.run_cons, hmachine]
    exact hrun
  · intro other hother
    rw [hmachine] at hother
    rwa [← Option.some.inj hother]

omit [DecidableEq Process] in
theorem callsRecorded_of_move
    {action : DeliveryAction Process} (habort : action.move ≠ .abort)
    (hreclaim : action.move ≠ .reclaim) (hstorable : StorableError action.move) :
    CallsRecorded state action :=
  ⟨fun hmove => absurd hmove habort, hstorable,
    fun hmove => absurd hmove hreclaim⟩

omit [DecidableEq Process] in
/-- Nobody holds the lock while a worker is between claim and outcome. -/
theorem Counted.holder_free
    (hcounted : state.Counted) {lockedAt : Instant}
    (hclaim : (state.phase process).claim? = some lockedAt)
    (hnot : (state.phase process).holdsLock = false) :
    state.holder = none := by
  obtain ⟨hsending, -, -, hothers⟩ := hcounted.serves_of_claim hclaim
  cases hholder : state.holder with
  | none => rfl
  | some other =>
      have hheld := (hcounted.locked.holds other).mpr hholder
      have hne : other ≠ process := by
        rintro rfl
        rw [hnot] at hheld
        contradiction
      have hknows := hcounted.locked.prepared other
      have hnone := hothers other hne
      cases hphase : state.phase other with
      | claiming dueAt =>
          rw [hphase] at hknows
          have hstatus := DeliveryRow.claimable_iff.mp hknows
          simp [hsending] at hstatus
      | retrying =>
          rw [hphase] at hknows
          have hdead : state.row.status = .dead := hknows
          rw [hsending] at hdead
          contradiction
      | writing row kind =>
          rw [hphase] at hknows hnone
          have hstatus := Prepared.status_of_writing hknows
          cases kind with
          | outcome stamp => contradiction
          | reclaim => exact absurd hphase (hcounted.unreclaimed other row)
          | _ => simp [hsending] at hstatus
      | recording stamp attemptsSoFar result =>
          rw [hphase] at hnone
          contradiction
      | _ =>
          rw [hphase] at hheld
          contradiction

theorem Counted.finishes_writing
    (hcounted : state.Counted) (hlast : state.posts = maxAttempts)
    {row : DeliveryRow} {lockedAt : Instant}
    (hphase : state.phase process = .writing row (.outcome lockedAt)) :
    state.Finishes := by
  obtain ⟨-, -, hserves, -⟩ :=
    hcounted.serves_of_claim (by rw [hphase]; rfl)
  rw [hphase] at hserves
  have hstep : deliveryStep state ⟨process, state.clock, .commit⟩ =
      some (state.commit process state.clock row (.outcome lockedAt)) := by
    simp [deliveryStep, hphase, WriteKind.refused, hserves.2.2.1]
  refine Finishes.step hstep
    (callsRecorded_of_move (by simp) (by simp) trivial) rfl ?_
  exact ⟨[], _, rfl, trivial, hcounted.outcome_terminal hlast hphase, rfl⟩

theorem Counted.finishes_recording
    (hcounted : state.Counted) (hlast : state.posts = maxAttempts)
    {lockedAt : Instant} {attemptsSoFar : ℕ} {result : WebhookResult}
    (hphase : state.phase process =
      .recording lockedAt attemptsSoFar result) :
    state.Finishes := by
  have hstep : deliveryStep state ⟨process, state.clock, .record 0⟩ =
      some (state.goto process state.clock (.writing
        (state.row.outcome attemptsSoFar result state.clock 0)
        (.outcome lockedAt))) := by
    simp [deliveryStep, hphase]
  have hallowed : CallsRecorded state ⟨process, state.clock, .record 0⟩ :=
    callsRecorded_of_move (by simp) (by simp) trivial
  exact Finishes.step hstep hallowed rfl
    ((hcounted.step hallowed hstep).finishes_writing hlast
      (goto_phase_self _))

theorem Counted.finishes_answered
    (hcounted : state.Counted) (hlast : state.posts = maxAttempts)
    {lockedAt : Instant} {attemptsSoFar : ℕ} {result : WebhookResult}
    (hphase : state.phase process =
      .answered lockedAt attemptsSoFar result) :
    state.Finishes := by
  obtain ⟨hsending, hlockedAt, -, -⟩ :=
    hcounted.serves_of_claim (by rw [hphase]; rfl)
  have hclaim := DeliveryRow.isClaim_iff.mpr ⟨hsending, hlockedAt⟩
  have hfree := hcounted.holder_free (by rw [hphase]; rfl)
    (by rw [hphase]; rfl)
  have hstep : deliveryStep state ⟨process, state.clock, .lockOutcome⟩ =
      some (state.take process state.clock
        (.recording lockedAt attemptsSoFar result)) := by
    simp [deliveryStep, hphase, hfree, hclaim]
  have hallowed : CallsRecorded state ⟨process, state.clock, .lockOutcome⟩ :=
    callsRecorded_of_move (by simp) (by simp) trivial
  exact Finishes.step hstep hallowed rfl
    ((hcounted.step hallowed hstep).finishes_recording hlast
      (take_phase_self _))

theorem Counted.finishes
    (hcounted : state.Counted) (hlast : state.posts = maxAttempts) :
    state.Finishes := by
  by_cases hopen : state.row.status.isTerminal = true
  · exact ⟨[], state, rfl, trivial, hopen, rfl⟩
  · obtain ⟨hsending, hattempts⟩ :=
      hcounted.last_call hlast (by simpa using hopen)
    obtain ⟨worker, hserves, -⟩ := hcounted.served hsending
    cases hphase : state.phase worker with
    | calling lockedAt attemptsSoFar =>
        rw [hphase] at hserves
        have hposts := hserves.2.2
        omega
    | waiting lockedAt attemptsSoFar =>
        have hstep : deliveryStep state
            ⟨worker, state.clock, .answer okReply⟩ =
              some (state.goto worker state.clock
                (.answered lockedAt attemptsSoFar
                  (sendWebhookSync state.clock okReply))) := by
          simp [deliveryStep, hphase]
        have hallowed : CallsRecorded state
            ⟨worker, state.clock, .answer okReply⟩ :=
          callsRecorded_of_move (by simp) (by simp) rfl
        exact Finishes.step hstep hallowed rfl
          ((hcounted.step hallowed hstep).finishes_answered hlast
            (goto_phase_self _))
    | answered lockedAt attemptsSoFar result =>
        exact hcounted.finishes_answered hlast hphase
    | recording lockedAt attemptsSoFar result =>
        exact hcounted.finishes_recording hlast hphase
    | writing row kind =>
        cases kind with
        | outcome lockedAt => exact hcounted.finishes_writing hlast hphase
        | _ =>
            rw [hphase] at hserves
            exact hserves.elim
    | _ =>
        rw [hphase] at hserves
        exact hserves.elim

end DeliveryState

/-- A delivery whose calls are all recorded is called at most five times, and
the fifth call ends it: from there no step posts again, the only step which
changes the row makes it final, and that step can be reached. -/
theorem calls_bounded
    [DecidableEq Process] {state : DeliveryState Process}
    (hreach : (deliveryMachine Process).ReachableWhere CallsRecorded state) :
    state.posts ≤ maxAttempts ∧
      (state.posts = maxAttempts → state.row.status.isTerminal = false →
        (∀ action next, deliveryStep state action = some next →
          next.posts = maxAttempts ∧
            (next.row = state.row ∨ next.row.status.isTerminal = true)) ∧
        ∃ actions final,
          (deliveryMachine Process).run state actions = some final ∧
          (deliveryMachine Process).AllowedAlong CallsRecorded state
            actions ∧
          final.row.status.isTerminal = true ∧ final.posts = state.posts) := by
  have hcounted := DeliveryState.Counted.of_reachable hreach
  exact ⟨hcounted.posts_le, fun hlast hopen =>
    ⟨fun action next hstep => hcounted.step_after_last hlast hopen hstep,
      hcounted.finishes hlast⟩⟩

/-- Four calls fail and are recorded, and the fifth has been posted. -/
def fifthCallRun : List (DeliveryAction ℕ) :=
  let call : List DeliveryMove := [.lock, .decide enabledChannel, .commit, .post]
  let fail : List DeliveryMove :=
    [.answer serverError, .lockOutcome, .record 0, .commit]
  (List.range 4).flatMap (fun round =>
      (call ++ fail).map (⟨round, round * microsecondsPerDay, ·⟩)) ++
    call.map (⟨4, 4 * microsecondsPerDay, ·⟩)

theorem createdDelivery_reachable
    [DecidableEq Process]
    {Allowed : DeliveryState Process → DeliveryAction Process → Prop} :
    (deliveryMachine Process).ReachableWhere Allowed
      (createdDelivery Process) :=
  .initial ⟨⟨0, le_refl _, rfl⟩, rfl, fun _ => rfl, fun _ => rfl, rfl, rfl⟩

theorem calls_bounded_fifth :
    ∃ state, (deliveryMachine ℕ).run (createdDelivery ℕ) fifthCallRun =
        some state ∧
      state.posts = maxAttempts ∧ state.row.status = .sending ∧
      ∃ actions final,
        (deliveryMachine ℕ).run state actions = some final ∧
        final.row.status.isTerminal = true ∧ final.posts = maxAttempts := by
  have hmoves : ∀ action ∈ fifthCallRun, action.move ≠ .abort ∧
      action.move ≠ .reclaim ∧ StorableError action.move := by
    decide +kernel
  have hallowed : (deliveryMachine ℕ).AllowedAlong CallsRecorded
      (createdDelivery ℕ) fifthCallRun := by
    refine (deliveryMachine ℕ).allowedAlong_of_forall ?_ _
    intro action hmem state
    obtain ⟨habort, hreclaim, hstorable⟩ := hmoves action hmem
    exact DeliveryState.callsRecorded_of_move habort hreclaim hstorable
  obtain ⟨state, hrun, hposts, hsending⟩ : ∃ state,
      (deliveryMachine ℕ).run (createdDelivery ℕ) fifthCallRun =
          some state ∧
        state.posts = maxAttempts ∧ state.row.status = .sending :=
    ⟨_, rfl, by decide +kernel, by decide +kernel⟩
  have hbounded := calls_bounded (createdDelivery_reachable.run hallowed hrun)
  obtain ⟨-, actions, final, hfinal, -, hterminal, hsame⟩ :=
    hbounded.2 hposts (by rw [hsending]; rfl)
  exact ⟨state, hrun, hposts, hsending, actions, final, hfinal, hterminal,
    hsame.trans hposts⟩

/-! ## Calls which are not counted -/

/-- One call: claim and POST by one worker, then `after`, and a reconcile pass
eleven minutes later. -/
def callAndReclaim (after : List DeliveryMove) (round : ℕ) :
    List (DeliveryAction ℕ) :=
  let call : List DeliveryMove :=
    [.lock, .decide enabledChannel, .commit, .post] ++ after
  let pass : List DeliveryMove :=
    [.startPass, .selectDue, .selectStuck, .reclaim, .commit]
  call.map (⟨2 * round, timedeltaMinutes (11 * round), ·⟩) ++
    pass.map (⟨2 * round + 1, timedeltaMinutes (11 * round + 11), ·⟩)

/-- A server error whose text contains NUL. -/
def nulReply : HttpReply := .response 500 .absent [.char nul]

/-- The outcome of every call is refused by the database. -/
def refusedRun : List (DeliveryAction ℕ) :=
  (List.range 6).flatMap
    (callAndReclaim [.answer nulReply, .lockOutcome, .record 0, .commit])

/-- Every call lasts longer than ten minutes. -/
def slowRun : List (DeliveryAction ℕ) :=
  (List.range 6).flatMap (callAndReclaim [])

theorem slow_calls_exceed_limit :
    ∃ state, (deliveryMachine ℕ).ReachableWhere WorkersSurvive state ∧
      state.posts = maxAttempts + 1 := by
  have hallowed : (deliveryMachine ℕ).AllowedAlong WorkersSurvive
      (createdDelivery ℕ) slowRun := by
    decide +kernel
  obtain ⟨state, hrun, hposts⟩ : ∃ state,
      (deliveryMachine ℕ).run (createdDelivery ℕ) slowRun = some state ∧
        state.posts = maxAttempts + 1 :=
    ⟨_, rfl, by decide +kernel⟩
  exact ⟨state, createdDelivery_reachable.run hallowed hrun, hposts⟩

theorem calls_exceed_limit :
    ¬ ∀ state, (deliveryMachine ℕ).ReachableWhere WorkersSurvive state →
      state.posts ≤ maxAttempts := by
  intro hall
  have hallowed : (deliveryMachine ℕ).AllowedAlong WorkersSurvive
      (createdDelivery ℕ) refusedRun := by
    decide +kernel
  obtain ⟨state, hrun, hposts⟩ : ∃ state,
      (deliveryMachine ℕ).run (createdDelivery ℕ) refusedRun = some state ∧
        state.posts = maxAttempts + 1 :=
    ⟨_, rfl, by decide +kernel⟩
  have hbound := hall state (createdDelivery_reachable.run hallowed hrun)
  omega

end NotifyHub
