import NotifyHub.DeliveryFencing
import Mathlib.Tactic

/-!
# Recovery of deliveries

All processes read one clock which does not go back.  Every row that is not
final is then selected by `reconcile_deliveries` once the clock has passed an
instant that the row itself gives, and whatever a pass enqueues passes the
guard of `dispatch_delivery`.  Messages do not appear in the state: they may be
lost, and a run of `dispatch_delivery` may start at any time.
-/

namespace NotifyHub

/-- The instant after which a row is due or stuck. -/
def DeliveryRow.selectedAfter (row : DeliveryRow) : Option Instant :=
  match row.status with
  | .pending | .failed => some row.nextAttemptAt
  | .sending => row.lockedAt.map (· + stuckAfter)
  | .sent | .dead => none

/-- What the writers of a row owe to the two selections. -/
structure DeliveryRow.Recoverable (row : DeliveryRow) (clock : Instant) :
    Prop where
  locked : row.status = .sending → row.lockedAt ≠ none
  due : row.status = .pending ∨ row.status = .sending →
    row.nextAttemptAt ≤ clock

namespace DeliveryRow

variable {row : DeliveryRow} {clock later : Instant}

theorem Recoverable.mono
    (hrow : row.Recoverable clock) (hle : clock ≤ later) :
    row.Recoverable later :=
  ⟨hrow.locked, fun hstatus => le_trans (hrow.due hstatus) hle⟩

theorem recoverable_of_status
    (hpending : row.status ≠ .pending) (hsending : row.status ≠ .sending) :
    row.Recoverable clock :=
  ⟨fun hstatus => absurd hstatus hsending,
    fun hstatus => (hstatus.elim hpending hsending).elim⟩

/-- A row which is not final is selected after its instant. -/
theorem Recoverable.selected
    (hrow : row.Recoverable clock)
    (hopen : row.status.isTerminal = false) :
    ∃ instant, row.selectedAfter = some instant ∧
      ∀ now, instant < now →
        row.due now = true ∨ row.stuck (now - stuckAfter) = true := by
  unfold selectedAfter
  cases hstatus : row.status with
  | pending =>
      exact ⟨row.nextAttemptAt, rfl, fun now hnow =>
        Or.inl (due_iff.mpr ⟨Or.inl hstatus, hnow.le⟩)⟩
  | failed =>
      exact ⟨row.nextAttemptAt, rfl, fun now hnow =>
        Or.inl (due_iff.mpr ⟨Or.inr hstatus, hnow.le⟩)⟩
  | sending =>
      obtain ⟨lockedAt, hlockedAt⟩ :=
        Option.ne_none_iff_exists'.mp (hrow.locked hstatus)
      refine ⟨lockedAt + stuckAfter, by simp [hlockedAt], fun now hnow => ?_⟩
      exact Or.inr (stuck_iff.mpr
        ⟨hstatus, lockedAt, hlockedAt, lt_sub_iff_add_lt.mpr hnow⟩)
  | sent =>
      rw [hstatus] at hopen
      contradiction
  | dead =>
      rw [hstatus] at hopen
      contradiction

end DeliveryRow

variable {Process : Type*}

/-- The clock does not go back. -/
def OnTime
    (state : DeliveryState Process) (action : DeliveryAction Process) : Prop :=
  state.clock ≤ action.now

/-- The step by which a reconcile pass decides to enqueue the row: its `due`
selection, or the commit of its reclaim. -/
def Enqueues
    (state : DeliveryState Process) (action : DeliveryAction Process) : Prop :=
  (action.move = .selectDue ∧ ∃ started,
      state.phase action.process = .passing started ∧
        state.row.due started = true) ∨
    (action.move = .commit ∧ ∃ row,
      state.phase action.process = .writing row .reclaim)

/-- The times in the hands of a process are not ahead of the clock. -/
def DeliveryPhase.Timely (clock : Instant) : DeliveryPhase → Prop
  | .claiming dueAt => dueAt ≤ clock
  | .passing started => started ≤ clock
  | .writing row _ => row.Recoverable clock
  | _ => True

theorem DeliveryPhase.Timely.mono
    {phase : DeliveryPhase} {clock later : Instant}
    (hphase : phase.Timely clock) (hle : clock ≤ later) :
    phase.Timely later := by
  cases phase with
  | claiming dueAt => exact le_trans hphase hle
  | passing started => exact le_trans hphase hle
  | writing row kind => exact DeliveryRow.Recoverable.mono hphase hle
  | _ => trivial

theorem DeliveryPhase.timely_of_not_holdsLock
    {phase : DeliveryPhase} {clock : Instant}
    (hphase : phase.holdsLock = false)
    (hpassing : ∀ started, phase = .passing started → started = clock) :
    phase.Timely clock := by
  cases phase with
  | passing started => exact (hpassing started rfl).le
  | claiming dueAt => contradiction
  | writing row kind => contradiction
  | _ => trivial

structure DeliveryState.Recoverable (state : DeliveryState Process) :
    Prop where
  locked : state.Locked
  row : state.row.Recoverable state.clock
  timely : ∀ process, (state.phase process).Timely state.clock

namespace DeliveryState

variable {state next : DeliveryState Process}

/-- The row which phase 1 writes keeps the due time of the row it claims. -/
theorem Recoverable.claim
    (hrecoverable : state.Recoverable) {process : Process}
    {dueAt now : Instant} (hphase : state.phase process = .claiming dueAt)
    (hclock : state.clock ≤ now) :
    (state.row.claim now).Recoverable now := by
  have hknows := hrecoverable.locked.prepared process
  have hdueAt := hrecoverable.timely process
  rw [hphase] at hknows hdueAt
  refine ⟨fun _ => Option.some_ne_none now, fun _ => ?_⟩
  rcases DeliveryRow.claimable_iff.mp hknows with hpending | ⟨-, hdue⟩
  · exact le_trans (hrecoverable.row.due (Or.inl hpending)) hclock
  · exact le_trans hdue (le_trans hdueAt hclock)

variable [DecidableEq Process]

/-- A step which moves its process and leaves the row. -/
theorem Recoverable.phase_step
    (hrecoverable : state.Recoverable) (hlocked : next.Locked)
    {process : Process} {phase : DeliveryPhase}
    (hclock : state.clock ≤ next.clock) (hrow : next.row = state.row)
    (hphase : next.phase = Function.update state.phase process phase)
    (htimely : phase.Timely next.clock) : next.Recoverable := by
  constructor
  · exact hlocked
  · rw [hrow]
    exact hrecoverable.row.mono hclock
  · intro other
    rw [hphase]
    by_cases heq : other = process
    · subst other
      rw [Function.update_self]
      exact htimely
    · rw [Function.update_of_ne heq]
      exact (hrecoverable.timely other).mono hclock

theorem Recoverable.commit_step
    (hrecoverable : state.Recoverable) {process : Process} {now : Instant}
    {row : DeliveryRow} {kind : WriteKind}
    (hphase : state.phase process = .writing row kind)
    (hclock : state.clock ≤ now) :
    (state.commit process now row kind).Recoverable := by
  have hwritten := hrecoverable.timely process
  rw [hphase] at hwritten
  constructor
  · exact hrecoverable.locked.commit_step hphase
  · exact DeliveryRow.Recoverable.mono hwritten hclock
  · intro other
    by_cases heq : other = process
    · subst other
      rw [commit_phase_self]
      cases kind <;> trivial
    · rw [commit_phase_of_ne heq]
      exact (hrecoverable.timely other).mono hclock

theorem Recoverable.step
    (hrecoverable : state.Recoverable) {action : DeliveryAction Process}
    (hontime : OnTime state action)
    (hstep : deliveryStep state action = some next) : next.Recoverable := by
  have hlocked := hrecoverable.locked.step hstep
  obtain ⟨process, now, move⟩ := action
  have hclock : state.clock ≤ now := hontime
  have hchange : DeliveryChange state process now move next :=
    deliveryStep_change hstep
  cases hchange with
  | quiet hlock hclaim hlock' hclaim' hpassing =>
      exact hrecoverable.phase_step hlocked hclock rfl rfl
        (DeliveryPhase.timely_of_not_holdsLock hlock' hpassing)
  | claiming hphase hfree hclaimable =>
      exact hrecoverable.phase_step hlocked hclock rfl rfl (le_refl now)
  | burying error hphase =>
      exact hrecoverable.phase_step hlocked hclock rfl rfl
        (DeliveryRow.recoverable_of_status (by simp [DeliveryRow.bury])
          (by simp [DeliveryRow.bury]))
  | claimed hphase =>
      exact hrecoverable.phase_step hlocked hclock rfl rfl
        (hrecoverable.claim hphase hclock)
  | posted hphase =>
      exact hrecoverable.phase_step hlocked hclock rfl rfl trivial
  | unformatted safeError hphase =>
      exact hrecoverable.phase_step hlocked hclock rfl rfl trivial
  | answered reply hphase =>
      exact hrecoverable.phase_step hlocked hclock rfl rfl trivial
  | discarded hphase hother =>
      exact hrecoverable.phase_step hlocked hclock rfl rfl trivial
  | recording hphase hfree hclaim =>
      exact hrecoverable.phase_step hlocked hclock rfl rfl trivial
  | @recorded lockedAt attemptsSoFar result jitter hphase =>
      have hstatus :=
        state.row.outcome_status attemptsSoFar result now jitter
      refine hrecoverable.phase_step hlocked hclock rfl rfl
        (DeliveryRow.recoverable_of_status ?_ ?_)
      · rcases hstatus with hsent | hfailed | hdead <;> simp [*]
      · rcases hstatus with hsent | hfailed | hdead <;> simp [*]
  | reclaiming hphase hfree hstuck =>
      exact hrecoverable.phase_step hlocked hclock rfl rfl
        (DeliveryRow.recoverable_of_status (by simp [DeliveryRow.reclaim])
          (by simp [DeliveryRow.reclaim]))
  | retrying hphase hfree hdead =>
      exact hrecoverable.phase_step hlocked hclock rfl rfl trivial
  | retried hphase =>
      exact hrecoverable.phase_step hlocked hclock rfl rfl
        ⟨by simp [DeliveryRow.retry], fun _ => le_refl now⟩
  | committed hphase haccepted =>
      exact hrecoverable.commit_step hphase hclock
  | refused hphase hrefused =>
      exact hrecoverable.phase_step hlocked hclock rfl rfl trivial
  | aborted hphase =>
      exact hrecoverable.phase_step hlocked hclock rfl rfl trivial

theorem Recoverable.of_initial
    (hinitial : (deliveryMachine Process).Initial state) :
    state.Recoverable := by
  have hlocked := Locked.of_initial hinitial
  obtain ⟨⟨created, hcreated, hrow⟩, -, hidle, -⟩ := hinitial
  refine ⟨hlocked, ?_, fun process => ?_⟩
  · rw [hrow]
    exact ⟨by simp [newDelivery], fun _ => hcreated⟩
  · rw [hidle process]
    trivial

theorem Recoverable.of_reachable
    (hreach : (deliveryMachine Process).ReachableWhere OnTime state) :
    state.Recoverable :=
  Machine.ReachableWhere.invariant (fun _ => Recoverable.of_initial)
    (fun _ _ _ hcurrent hontime hstep => hcurrent.step hontime hstep) hreach

/-- What a pass enqueues is claimable from then on. -/
theorem Recoverable.enqueued
    (hrecoverable : state.Recoverable) {action : DeliveryAction Process}
    (hontime : OnTime state action) (henqueues : Enqueues state action)
    (hstep : deliveryStep state action = some next)
    {dueAt : Instant} (hlater : next.clock ≤ dueAt) :
    next.row.claimable dueAt = true := by
  obtain ⟨process, now, move⟩ := action
  have hclock : state.clock ≤ now := hontime
  rcases henqueues with ⟨rfl, started, hphase, hdue⟩ | ⟨rfl, row, hphase⟩
  · have hstarted := hrecoverable.timely process
    simp only at hphase
    rw [hphase] at hstarted
    simp only [deliveryStep, hphase, Option.some.injEq] at hstep
    subst hstep
    obtain ⟨hpending | hfailed, hdueAt⟩ := DeliveryRow.due_iff.mp hdue
    · exact DeliveryRow.claimable_iff.mpr (Or.inl hpending)
    · exact DeliveryRow.claimable_iff.mpr (Or.inr ⟨hfailed,
        le_trans hdueAt (le_trans hstarted (le_trans hclock hlater))⟩)
  · have hknows := hrecoverable.locked.prepared process
    simp only at hphase
    rw [hphase] at hknows
    obtain ⟨hsending, rfl⟩ := hknows
    have hdue := hrecoverable.row.due (Or.inr hsending)
    simp only [deliveryStep, hphase, WriteKind.refused, Bool.false_eq_true,
      if_false, Option.some.injEq] at hstep
    subst hstep
    exact DeliveryRow.claimable_iff.mpr (Or.inr ⟨rfl,
      le_trans hdue (le_trans hclock hlater)⟩)

end DeliveryState

/-- No stranded delivery, for every entry of a table of deliveries. -/
theorem no_stranded_delivery
    {Id : Type*} [DecidableEq Id] [DecidableEq Process]
    {entries : Id → Option (DeliveryState Process)}
    (hreach : ((deliveryMachine Process).table Id).ReachableWhere
      ((deliveryMachine Process).TableAllowed OnTime) entries)
    {id : Id} {state : DeliveryState Process}
    (hentry : entries id = some state) :
    (state.row.status.isTerminal = false →
      ∃ instant, state.row.selectedAfter = some instant ∧
        ∀ now, instant < now →
          state.row.due now = true ∨
            state.row.stuck (now - stuckAfter) = true) ∧
    ∀ (action : DeliveryAction Process) (next : DeliveryState Process),
      OnTime state action → Enqueues state action →
      deliveryStep state action = some next →
        ∀ (later : DeliveryState Process) (worker : Process) (now : Instant),
          later.row = next.row → next.clock ≤ now →
          later.row.claimable now = true ∧
            (later.holder = none → later.phase worker = .idle →
              deliveryStep later ⟨worker, now, .lock⟩ =
                some (later.take worker now (.claiming now))) := by
  have hrecoverable := DeliveryState.Recoverable.of_reachable
    (Machine.table_entry_reachable hreach hentry)
  refine ⟨hrecoverable.row.selected, ?_⟩
  intro action next hontime henqueues hstep later worker now hrow hlater
  have hclaimable : later.row.claimable now = true := by
    rw [hrow]
    exact hrecoverable.enqueued hontime henqueues hstep hlater
  refine ⟨hclaimable, fun hfree hidle => ?_⟩
  simp only [deliveryStep, hidle, hfree, hclaimable, and_self, if_true]

instance (state : DeliveryState Process) (action : DeliveryAction Process) :
    Decidable (OnTime state action) :=
  inferInstanceAs (Decidable (_ ≤ _))

/-- The worker of `orphanRun` is dead as far as the pass can see; the pass is
about to commit its reclaim. -/
theorem no_stranded_delivery_orphan :
    ∃ state next : DeliveryState (Fin 3),
      (deliveryMachine (Fin 3)).run (createdDelivery (Fin 3))
          (orphanRun.take 8) = some state ∧
      state.row.status = .sending ∧
      state.row.selectedAfter = some (2 + timedeltaMinutes 10) ∧
      deliveryStep state ⟨1, timedeltaMinutes 11, .commit⟩ = some next ∧
      next.row.claimable (timedeltaMinutes 12) = true := by
  have hstart : (deliveryMachine (Fin 3)).ReachableWhere OnTime
      (createdDelivery (Fin 3)) :=
    .initial ⟨⟨0, le_refl _, rfl⟩, rfl, fun _ => rfl, fun _ => rfl, rfl, rfl⟩
  have hallowed : (deliveryMachine (Fin 3)).AllowedAlong OnTime
      (createdDelivery (Fin 3)) (orphanRun.take 8) := by
    decide +kernel
  obtain ⟨state, next, hrun, hstep, hsending, hafter, hwriting, hclock⟩ :
      ∃ state next : DeliveryState (Fin 3),
        (deliveryMachine (Fin 3)).run (createdDelivery (Fin 3))
            (orphanRun.take 8) = some state ∧
          deliveryStep state ⟨1, timedeltaMinutes 11, .commit⟩ = some next ∧
          state.row.status = .sending ∧
          state.row.selectedAfter = some (2 + timedeltaMinutes 10) ∧
          state.phase 1 = .writing state.row.reclaim .reclaim ∧
          state.clock ≤ timedeltaMinutes 11 ∧ next.clock ≤ timedeltaMinutes 12 :=
    ⟨_, _, rfl, rfl, by decide +kernel, by decide +kernel, by decide +kernel,
      by decide +kernel⟩
  obtain ⟨entries, hentries, hentry⟩ :=
    Machine.exists_table_entry (hstart.run hallowed hrun) ()
  have hlater := (no_stranded_delivery hentries hentry).2
    ⟨1, timedeltaMinutes 11, .commit⟩ next hclock.1
    (Or.inr ⟨rfl, _, hwriting⟩) hstep next 2 _ rfl hclock.2
  exact ⟨state, next, hrun, hsending, hafter, hstep, hlater.1⟩

end NotifyHub
