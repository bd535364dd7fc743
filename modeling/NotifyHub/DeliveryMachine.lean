import NotifyHub.TransitionMachine
import NotifyHub.DeliveryRow
import Mathlib.Tactic

/-!
# The processes on one delivery

Runs of `dispatch_delivery`, passes of `reconcile_deliveries` and calls of
`retry_delivery` on one row.  A process takes the row lock, computes the new
version of the row and commits it; between the claim of a worker and its
outcome there is the call, without any lock.  A duplicate message is one more
process, and any process may die or be rolled back between two of its steps.

The last four fields of the state record what the row itself does not: the
`locked_at` each process has claimed with, the process whose claim is the
current one, the calls since the delivery was created or retried, and the time
of the last step.
-/

namespace NotifyHub

/-- What a transaction which has written the row, but not yet committed, is
about to make visible. -/
inductive WriteKind
  | bury
  | claim (lockedAt : Instant) (attemptsSoFar : ℕ)
  | outcome (lockedAt : Instant)
  | reclaim
  | retry
  deriving DecidableEq, Repr

inductive DeliveryPhase
  | idle
  | claiming (dueAt : Instant)
  | writing (row : DeliveryRow) (kind : WriteKind)
  | calling (lockedAt : Instant) (attemptsSoFar : ℕ)
  | waiting (lockedAt : Instant) (attemptsSoFar : ℕ)
  | answered (lockedAt : Instant) (attemptsSoFar : ℕ)
      (result : WebhookResult)
  | recording (lockedAt : Instant) (attemptsSoFar : ℕ)
      (result : WebhookResult)
  | passing (now : Instant)
  | readDue (stuckCutoff : Instant)
  | readStuck (stuckCutoff : Instant)
  | retrying
  | finished
  deriving DecidableEq, Repr

/-- The phases in which a transaction holds the lock of the row. -/
def DeliveryPhase.holdsLock : DeliveryPhase → Bool
  | .claiming _ | .writing _ _ | .recording _ _ _ | .retrying => true
  | _ => false

/-- The `locked_at` with which a worker recognises its row. -/
def DeliveryPhase.claim? : DeliveryPhase → Option Instant
  | .calling lockedAt _ | .waiting lockedAt _ | .answered lockedAt _ _
  | .recording lockedAt _ _ | .writing _ (.outcome lockedAt) => some lockedAt
  | _ => none

/-- The phase after the commit. -/
def WriteKind.after : WriteKind → DeliveryPhase
  | .claim lockedAt attemptsSoFar => .calling lockedAt attemptsSoFar
  | _ => .finished

/-- The database refuses the UPDATE; only the death and the outcome of a
delivery write an error text. -/
def WriteKind.refused (kind : WriteKind) (row : DeliveryRow) : Bool :=
  match kind with
  | .bury | .outcome _ => !row.storable
  | .claim _ _ | .reclaim | .retry => false

structure DeliveryState (Process : Type*) where
  row : DeliveryRow
  holder : Option Process
  phase : Process → DeliveryPhase
  claimOf : Process → Option Instant
  claimant : Option Process
  posts : ℕ
  clock : Instant

/-- One step of a process; `lockOutcome`, `reclaim` and `lockRetry` wait for
the row lock, `lock` skips a locked row. -/
inductive DeliveryMove
  | lock
  | decide (reads : DispatchReads)
  | post
  | formatFails (safeError : PyText)
  | answer (reply : HttpReply)
  | lockOutcome
  | record (jitter : ℕ)
  | startPass
  | selectDue
  | selectStuck
  | reclaim
  | lockRetry
  | retry
  | commit
  | abort
  deriving DecidableEq, Repr

/-- A step and the clock reading it takes place at. -/
structure DeliveryAction (Process : Type*) where
  process : Process
  now : Instant
  move : DeliveryMove

variable {Process : Type*}

/-! ## The row lock -/

/-- What a transaction knows about the row while it holds the lock. -/
def DeliveryState.Prepared (state : DeliveryState Process) :
    DeliveryPhase → Prop
  | .claiming dueAt => state.row.claimable dueAt = true
  | .recording lockedAt _ _ => state.row.isClaim lockedAt = true
  | .retrying => state.row.status = .dead
  | .writing row .bury =>
      (∃ dueAt, state.row.claimable dueAt = true) ∧
        ∃ error, row = state.row.bury error
  | .writing row (.claim lockedAt attemptsSoFar) =>
      (∃ dueAt, state.row.claimable dueAt = true) ∧
        row = state.row.claim lockedAt ∧ attemptsSoFar = state.row.attempts
  | .writing row (.outcome lockedAt) =>
      state.row.isClaim lockedAt = true ∧
        ∃ attemptsSoFar result now jitter,
          row = state.row.outcome attemptsSoFar result now jitter
  | .writing row .reclaim =>
      state.row.status = .sending ∧ row = state.row.reclaim
  | .writing row .retry =>
      state.row.status = .dead ∧ ∃ now, row = state.row.retry now
  | _ => True

/-- The lock is exclusive, and what its holder has read still stands. -/
structure DeliveryState.Locked (state : DeliveryState Process) : Prop where
  holds : ∀ process, (state.phase process).holdsLock = true ↔
    state.holder = some process
  prepared : ∀ process, state.Prepared (state.phase process)

namespace DeliveryState

theorem prepared_of_not_holdsLock
    {state : DeliveryState Process} {phase : DeliveryPhase}
    (hphase : phase.holdsLock = false) :
    state.Prepared phase := by
  cases phase <;> simp_all [DeliveryPhase.holdsLock, Prepared]

theorem Locked.other_free
    {state : DeliveryState Process} {process other : Process}
    (hlocked : state.Locked) (hheld : (state.phase process).holdsLock = true)
    (hne : other ≠ process) : (state.phase other).holdsLock = false := by
  by_contra hother
  have hholder := (hlocked.holds other).mp (by simpa using hother)
  rw [(hlocked.holds process).mp hheld] at hholder
  exact hne (Option.some.inj hholder).symm

theorem Locked.all_free
    {state : DeliveryState Process}
    (hlocked : state.Locked) (hfree : state.holder = none)
    (other : Process) : (state.phase other).holdsLock = false := by
  by_contra hother
  have hholder := (hlocked.holds other).mp (by simpa using hother)
  rw [hfree] at hholder
  contradiction

end DeliveryState

/-! ## The steps -/

variable [DecidableEq Process]

namespace DeliveryState

/-- The process goes on, with the lock left as it is. -/
def goto
    (state : DeliveryState Process) (process : Process) (now : Instant)
    (phase : DeliveryPhase) : DeliveryState Process :=
  { state with
    phase := Function.update state.phase process phase
    clock := now }

def take
    (state : DeliveryState Process) (process : Process) (now : Instant)
    (phase : DeliveryPhase) : DeliveryState Process :=
  { state.goto process now phase with holder := some process }

/-- The end of a transaction without a commit, or the death of a process. -/
def abort
    (state : DeliveryState Process) (process : Process) (now : Instant) :
    DeliveryState Process :=
  { state.goto process now .finished with
    holder := if (state.phase process).holdsLock then none else state.holder }

/-- The commit of a new version of the row. -/
def commit
    (state : DeliveryState Process) (process : Process) (now : Instant)
    (row : DeliveryRow) (kind : WriteKind) : DeliveryState Process :=
  { state with
    row := row
    holder := none
    claimOf := match kind with
      | .claim lockedAt _ =>
          Function.update state.claimOf process (some lockedAt)
      | _ => state.claimOf
    claimant := match kind with
      | .claim _ _ => some process
      | _ => none
    posts := match kind with
      | .retry => 0
      | _ => state.posts
  }.goto process now kind.after

end DeliveryState

def deliveryStep
    (state : DeliveryState Process) (action : DeliveryAction Process) :
    Option (DeliveryState Process) :=
  let process := action.process
  let now := action.now
  match action.move, state.phase process with
  | .lock, .idle =>
      -- SKIP LOCKED: a locked row is as absent as one in the wrong state
      if state.holder = none ∧ state.row.claimable now = true then
        some (state.take process now (.claiming now))
      else some (state.goto process now .finished)
  | .decide reads, .claiming _ =>
      match deathCause reads with
      | some error =>
          some (state.goto process now (.writing (state.row.bury error) .bury))
      | none =>
          some (state.goto process now (.writing (state.row.claim now)
            (.claim now state.row.attempts)))
  | .post, .calling lockedAt attemptsSoFar =>
      some ({ state with posts := state.posts + 1 }.goto process now
        (.waiting lockedAt attemptsSoFar))
  | .formatFails safeError, .calling lockedAt attemptsSoFar =>
      some (state.goto process now
        (.answered lockedAt attemptsSoFar (webhookFailure safeError)))
  | .answer reply, .waiting lockedAt attemptsSoFar =>
      some (state.goto process now
        (.answered lockedAt attemptsSoFar (sendWebhookSync now reply)))
  | .lockOutcome, .answered lockedAt attemptsSoFar result =>
      if state.holder ≠ none then none
      else if state.row.isClaim lockedAt then
        some (state.take process now
          (.recording lockedAt attemptsSoFar result))
      else some (state.goto process now .finished)
  | .record jitter, .recording lockedAt attemptsSoFar result =>
      some (state.goto process now (.writing
        (state.row.outcome attemptsSoFar result now jitter)
        (.outcome lockedAt)))
  | .startPass, .idle => some (state.goto process now (.passing now))
  | .selectDue, .passing started =>
      some (state.goto process now (.readDue (started - stuckAfter)))
  | .selectStuck, .readDue stuckCutoff =>
      if state.row.stuck stuckCutoff then
        some (state.goto process now (.readStuck stuckCutoff))
      else some (state.goto process now .finished)
  | .reclaim, .readStuck stuckCutoff =>
      if state.holder ≠ none then none
      else if state.row.stuck stuckCutoff then
        some (state.take process now (.writing state.row.reclaim .reclaim))
      else some (state.goto process now .finished)
  | .lockRetry, .idle =>
      if state.holder ≠ none then none
      else if state.row.status = .dead then
        some (state.take process now .retrying)
      else some (state.goto process now .finished)
  | .retry, .retrying =>
      some (state.goto process now (.writing (state.row.retry now) .retry))
  | .commit, .writing row kind =>
      if kind.refused row then some (state.abort process now)
      else some (state.commit process now row kind)
  | .abort, .idle => none
  | .abort, _ => some (state.abort process now)
  | _, _ => none

/-- A delivery which has just been created, and no process on it yet. -/
def deliveryMachine (Process : Type*) [DecidableEq Process] :
    Machine (DeliveryState Process) (DeliveryAction Process) where
  Initial state :=
    (∃ created, created ≤ state.clock ∧ state.row = newDelivery created) ∧
      state.holder = none ∧ (∀ process, state.phase process = .idle) ∧
      (∀ process, state.claimOf process = none) ∧ state.claimant = none ∧
      state.posts = 0
  step := deliveryStep

/-! ## What a step can do -/

inductive DeliveryChange
    (state : DeliveryState Process) (process : Process) (now : Instant) :
    DeliveryMove → DeliveryState Process → Prop
  | quiet {move : DeliveryMove} {phase : DeliveryPhase}
      (hlock : (state.phase process).holdsLock = false)
      (hclaim : (state.phase process).claim? = none)
      (hlock' : phase.holdsLock = false) (hclaim' : phase.claim? = none)
      (hpassing : ∀ started, phase = .passing started → started = now) :
      DeliveryChange state process now move (state.goto process now phase)
  | claiming (hphase : state.phase process = .idle)
      (hfree : state.holder = none)
      (hclaimable : state.row.claimable now = true) :
      DeliveryChange state process now .lock
        (state.take process now (.claiming now))
  | burying {reads : DispatchReads} (error : PyText) {dueAt : Instant}
      (hphase : state.phase process = .claiming dueAt) :
      DeliveryChange state process now (.decide reads)
        (state.goto process now (.writing (state.row.bury error) .bury))
  | claimed {reads : DispatchReads} {dueAt : Instant}
      (hphase : state.phase process = .claiming dueAt) :
      DeliveryChange state process now (.decide reads)
        (state.goto process now (.writing (state.row.claim now)
          (.claim now state.row.attempts)))
  | posted {lockedAt : Instant} {attemptsSoFar : ℕ}
      (hphase : state.phase process = .calling lockedAt attemptsSoFar) :
      DeliveryChange state process now .post
        ({ state with posts := state.posts + 1 }.goto process now
          (.waiting lockedAt attemptsSoFar))
  | unformatted {lockedAt : Instant} {attemptsSoFar : ℕ} (safeError : PyText)
      (hphase : state.phase process = .calling lockedAt attemptsSoFar) :
      DeliveryChange state process now (.formatFails safeError)
        (state.goto process now
          (.answered lockedAt attemptsSoFar (webhookFailure safeError)))
  | answered {lockedAt : Instant} {attemptsSoFar : ℕ} (reply : HttpReply)
      (hphase : state.phase process = .waiting lockedAt attemptsSoFar) :
      DeliveryChange state process now (.answer reply)
        (state.goto process now
          (.answered lockedAt attemptsSoFar (sendWebhookSync now reply)))
  | discarded {lockedAt : Instant} {attemptsSoFar : ℕ}
      {result : WebhookResult}
      (hphase : state.phase process =
        .answered lockedAt attemptsSoFar result)
      (hother : state.row.isClaim lockedAt = false) :
      DeliveryChange state process now .lockOutcome
        (state.goto process now .finished)
  | recording {lockedAt : Instant} {attemptsSoFar : ℕ}
      {result : WebhookResult}
      (hphase : state.phase process =
        .answered lockedAt attemptsSoFar result)
      (hfree : state.holder = none)
      (hclaim : state.row.isClaim lockedAt = true) :
      DeliveryChange state process now .lockOutcome
        (state.take process now (.recording lockedAt attemptsSoFar result))
  | recorded {lockedAt : Instant} {attemptsSoFar : ℕ}
      {result : WebhookResult} (jitter : ℕ)
      (hphase : state.phase process =
        .recording lockedAt attemptsSoFar result) :
      DeliveryChange state process now (.record jitter)
        (state.goto process now (.writing
          (state.row.outcome attemptsSoFar result now jitter)
          (.outcome lockedAt)))
  | reclaiming {stuckCutoff : Instant}
      (hphase : state.phase process = .readStuck stuckCutoff)
      (hfree : state.holder = none)
      (hstuck : state.row.stuck stuckCutoff = true) :
      DeliveryChange state process now .reclaim
        (state.take process now (.writing state.row.reclaim .reclaim))
  | retrying (hphase : state.phase process = .idle)
      (hfree : state.holder = none) (hdead : state.row.status = .dead) :
      DeliveryChange state process now .lockRetry
        (state.take process now .retrying)
  | retried (hphase : state.phase process = .retrying) :
      DeliveryChange state process now .retry
        (state.goto process now (.writing (state.row.retry now) .retry))
  | committed {row : DeliveryRow} {kind : WriteKind}
      (hphase : state.phase process = .writing row kind)
      (haccepted : kind.refused row = false) :
      DeliveryChange state process now .commit
        (state.commit process now row kind)
  | refused {row : DeliveryRow} {kind : WriteKind}
      (hphase : state.phase process = .writing row kind)
      (hrefused : kind.refused row = true) :
      DeliveryChange state process now .commit (state.abort process now)
  | aborted (hphase : state.phase process ≠ .idle) :
      DeliveryChange state process now .abort (state.abort process now)

theorem deliveryStep_change
    {state next : DeliveryState Process} {action : DeliveryAction Process}
    (hstep : deliveryStep state action = some next) :
    DeliveryChange state action.process action.now action.move next := by
  obtain ⟨process, now, move⟩ := action
  simp only [deliveryStep] at hstep
  split at hstep
  case h_1 hphase =>
    split at hstep <;> obtain rfl := Option.some.inj hstep
    · next hlock => exact .claiming hphase hlock.1 hlock.2
    · exact .quiet (by rw [hphase]; rfl) (by rw [hphase]; rfl) rfl rfl (by simp)
  case h_2 hphase =>
    split at hstep <;> obtain rfl := Option.some.inj hstep
    · exact .burying _ hphase
    · exact .claimed hphase
  case h_3 hphase =>
    obtain rfl := Option.some.inj hstep
    exact .posted hphase
  case h_4 hphase =>
    obtain rfl := Option.some.inj hstep
    exact .unformatted _ hphase
  case h_5 hphase =>
    obtain rfl := Option.some.inj hstep
    exact .answered _ hphase
  case h_6 hphase =>
    split at hstep
    · contradiction
    · next hfree =>
      split at hstep <;> obtain rfl := Option.some.inj hstep
      · next hclaim => exact .recording hphase (not_not.mp hfree) hclaim
      · next hother => exact .discarded hphase (by simpa using hother)
  case h_7 hphase =>
    obtain rfl := Option.some.inj hstep
    exact .recorded _ hphase
  case h_8 hphase =>
    obtain rfl := Option.some.inj hstep
    exact .quiet (by rw [hphase]; rfl) (by rw [hphase]; rfl) rfl rfl
      fun _ hstarted => (DeliveryPhase.passing.inj hstarted).symm
  case h_9 hphase =>
    obtain rfl := Option.some.inj hstep
    exact .quiet (by rw [hphase]; rfl) (by rw [hphase]; rfl) rfl rfl (by simp)
  case h_10 hphase =>
    split at hstep <;> obtain rfl := Option.some.inj hstep
    · exact .quiet (by rw [hphase]; rfl) (by rw [hphase]; rfl) rfl rfl (by simp)
    · exact .quiet (by rw [hphase]; rfl) (by rw [hphase]; rfl) rfl rfl (by simp)
  case h_11 hphase =>
    split at hstep
    · contradiction
    · next hfree =>
      split at hstep <;> obtain rfl := Option.some.inj hstep
      · next hstuck => exact .reclaiming hphase (not_not.mp hfree) hstuck
      · exact .quiet (by rw [hphase]; rfl) (by rw [hphase]; rfl) rfl rfl (by simp)
  case h_12 hphase =>
    split at hstep
    · contradiction
    · next hfree =>
      split at hstep <;> obtain rfl := Option.some.inj hstep
      · next hdead => exact .retrying hphase (not_not.mp hfree) hdead
      · exact .quiet (by rw [hphase]; rfl) (by rw [hphase]; rfl) rfl rfl (by simp)
  case h_13 hphase =>
    obtain rfl := Option.some.inj hstep
    exact .retried hphase
  case h_14 hphase =>
    split at hstep <;> obtain rfl := Option.some.inj hstep
    · next hrefused => exact .refused hphase hrefused
    · next haccepted => exact .committed hphase (by simpa using haccepted)
  case h_15 => contradiction
  case h_16 hphase =>
    obtain rfl := Option.some.inj hstep
    exact .aborted hphase
  case h_17 => contradiction

/-! ## The row lock along a run -/

namespace DeliveryState

variable {state : DeliveryState Process} {process other : Process}
variable {now : Instant}

@[simp] theorem goto_row (phase : DeliveryPhase) :
    (state.goto process now phase).row = state.row := rfl

@[simp] theorem goto_holder (phase : DeliveryPhase) :
    (state.goto process now phase).holder = state.holder := rfl

@[simp] theorem goto_claimOf (phase : DeliveryPhase) :
    (state.goto process now phase).claimOf = state.claimOf := rfl

@[simp] theorem goto_claimant (phase : DeliveryPhase) :
    (state.goto process now phase).claimant = state.claimant := rfl

@[simp] theorem goto_posts (phase : DeliveryPhase) :
    (state.goto process now phase).posts = state.posts := rfl

@[simp] theorem goto_clock (phase : DeliveryPhase) :
    (state.goto process now phase).clock = now := rfl

@[simp] theorem goto_phase_self (phase : DeliveryPhase) :
    (state.goto process now phase).phase process = phase := by
  simp [goto]

theorem goto_phase_of_ne (hne : other ≠ process) (phase : DeliveryPhase) :
    (state.goto process now phase).phase other = state.phase other := by
  simp [goto, hne]

/-- A step which leaves the lock alone. -/
theorem Locked.goto_step
    (hlocked : state.Locked) {phase : DeliveryPhase}
    (hholds : phase.holdsLock = (state.phase process).holdsLock)
    (hprepared : state.Prepared phase) :
    (state.goto process now phase).Locked := by
  constructor
  · intro other
    by_cases heq : other = process
    · subst other
      rw [goto_phase_self, hholds]
      exact hlocked.holds process
    · rw [goto_phase_of_ne heq]
      exact hlocked.holds other
  · intro other
    by_cases heq : other = process
    · subst other
      rw [goto_phase_self]
      exact hprepared
    · rw [goto_phase_of_ne heq]
      exact hlocked.prepared other

theorem Locked.take_step
    (hlocked : state.Locked) (hfree : state.holder = none)
    {phase : DeliveryPhase} (hholds : phase.holdsLock = true)
    (hprepared : state.Prepared phase) :
    (state.take process now phase).Locked := by
  constructor
  · intro other
    by_cases heq : other = process
    · subst other
      rw [take, goto_phase_self]
      exact iff_of_true hholds rfl
    · rw [take, goto_phase_of_ne heq, hlocked.all_free hfree other]
      exact iff_of_false (by simp) fun hholder =>
        heq (Option.some.inj hholder).symm
  · intro other
    by_cases heq : other = process
    · subst other
      rw [take, goto_phase_self]
      exact hprepared
    · rw [take, goto_phase_of_ne heq]
      exact hlocked.prepared other

/-- Whoever gives the lock back leaves nobody with stale knowledge. -/
theorem Locked.release
    (hlocked : state.Locked)
    (hheld : (state.phase process).holdsLock = true)
    {next : DeliveryState Process} (hholder : next.holder = none)
    (hself : (next.phase process).holdsLock = false)
    (hother : ∀ other, other ≠ process →
      next.phase other = state.phase other) :
    next.Locked := by
  have hfree : ∀ other, (next.phase other).holdsLock = false := by
    intro other
    by_cases heq : other = process
    · rw [heq]
      exact hself
    · rw [hother other heq]
      exact hlocked.other_free hheld heq
  constructor
  · intro other
    rw [hfree other, hholder]
    exact iff_of_false (by simp) (by simp)
  · exact fun other => prepared_of_not_holdsLock (hfree other)

@[simp] theorem take_phase_self (phase : DeliveryPhase) :
    (state.take process now phase).phase process = phase := by
  simp [take]

@[simp] theorem abort_phase_self :
    (state.abort process now).phase process = .finished := by
  simp [DeliveryState.abort]

theorem abort_phase_of_ne (hne : other ≠ process) :
    (state.abort process now).phase other = state.phase other := by
  simp [DeliveryState.abort, goto_phase_of_ne hne]

@[simp] theorem commit_phase_self (row : DeliveryRow) (kind : WriteKind) :
    (state.commit process now row kind).phase process = kind.after :=
  goto_phase_self _

theorem commit_phase_of_ne
    (hne : other ≠ process) (row : DeliveryRow) (kind : WriteKind) :
    (state.commit process now row kind).phase other = state.phase other :=
  goto_phase_of_ne hne _

@[simp] theorem commit_row (row : DeliveryRow) (kind : WriteKind) :
    (state.commit process now row kind).row = row := rfl

@[simp] theorem commit_clock (row : DeliveryRow) (kind : WriteKind) :
    (state.commit process now row kind).clock = now := rfl

theorem Locked.abort_step (hlocked : state.Locked) :
    (state.abort process now).Locked := by
  by_cases hheld : (state.phase process).holdsLock = true
  · exact hlocked.release hheld (by simp [DeliveryState.abort, hheld])
      (by rw [abort_phase_self]; rfl) fun other hne => abort_phase_of_ne hne
  · have hsame : state.abort process now =
        state.goto process now .finished := by
      simp [DeliveryState.abort, hheld, DeliveryState.goto]
    rw [hsame]
    refine hlocked.goto_step ?_ trivial
    simpa [DeliveryPhase.holdsLock] using (Bool.eq_false_iff.mpr hheld).symm

theorem Locked.commit_step
    (hlocked : state.Locked) {row : DeliveryRow} {kind : WriteKind}
    (hphase : state.phase process = .writing row kind) :
    (state.commit process now row kind).Locked := by
  refine hlocked.release (by rw [hphase]; rfl) rfl ?_
    fun other hne => commit_phase_of_ne hne row kind
  rw [commit_phase_self]
  cases kind <;> rfl

theorem Locked.step
    (hlocked : state.Locked) {action : DeliveryAction Process}
    {next : DeliveryState Process}
    (hstep : deliveryStep state action = some next) : next.Locked := by
  obtain ⟨process, now, move⟩ := action
  have hknows := hlocked.prepared process
  have hchange : DeliveryChange state process now move next :=
    deliveryStep_change hstep
  cases hchange with
  | quiet hlock hclaim hlock' hclaim' =>
      exact hlocked.goto_step (by rw [hlock, hlock'])
        (prepared_of_not_holdsLock hlock')
  | claiming hphase hfree hclaimable =>
      exact hlocked.take_step hfree rfl hclaimable
  | burying error hphase =>
      rw [hphase] at hknows
      exact hlocked.goto_step (by rw [hphase]; rfl) ⟨⟨_, hknows⟩, error, rfl⟩
  | claimed hphase =>
      rw [hphase] at hknows
      exact hlocked.goto_step (by rw [hphase]; rfl) ⟨⟨_, hknows⟩, rfl, rfl⟩
  | posted hphase =>
      have hposted : ({ state with posts := state.posts + 1 } :
          DeliveryState Process).Locked :=
        ⟨hlocked.holds, hlocked.prepared⟩
      exact hposted.goto_step (by rw [hphase]; rfl) trivial
  | unformatted safeError hphase =>
      exact hlocked.goto_step (by rw [hphase]; rfl) trivial
  | answered reply hphase =>
      exact hlocked.goto_step (by rw [hphase]; rfl) trivial
  | discarded hphase hother =>
      exact hlocked.goto_step (by rw [hphase]; rfl) trivial
  | recording hphase hfree hclaim =>
      exact hlocked.take_step hfree rfl hclaim
  | recorded jitter hphase =>
      rw [hphase] at hknows
      exact hlocked.goto_step (by rw [hphase]; rfl) ⟨hknows, _, _, _, _, rfl⟩
  | reclaiming hphase hfree hstuck =>
      exact hlocked.take_step hfree rfl
        ⟨(DeliveryRow.stuck_iff.mp hstuck).1, rfl⟩
  | retrying hphase hfree hdead =>
      exact hlocked.take_step hfree rfl hdead
  | retried hphase =>
      rw [hphase] at hknows
      exact hlocked.goto_step (by rw [hphase]; rfl) ⟨hknows, _, rfl⟩
  | committed hphase haccepted => exact hlocked.commit_step hphase
  | refused hphase hrefused => exact hlocked.abort_step
  | aborted hphase => exact hlocked.abort_step

theorem Locked.of_initial
    (hinitial : (deliveryMachine Process).Initial state) : state.Locked := by
  obtain ⟨-, hfree, hidle, -⟩ := hinitial
  constructor
  · intro process
    rw [hidle process, hfree]
    exact iff_of_false (by simp [DeliveryPhase.holdsLock]) (by simp)
  · intro process
    rw [hidle process]
    trivial

end DeliveryState

end NotifyHub
