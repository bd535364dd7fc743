import NotifyHub.TransitionMachine
import NotifyHub.ReceiverPolicy
import Mathlib.Tactic

/-!
# The processes on one watched receiver

Passes of `check_expected_schedules`, ingestions and PATCH requests, on one
receiver.  A pass reads the clock before it locks the tenant and the
receiver; an ingestion reads `received_at` before it waits for the receiver;
a PATCH computes its changes from a row which it has read without a lock.
Any transaction may be rolled back.
-/

namespace NotifyHub

/-! ## The body of the job's loop -/

inductive Verdict
  | nothing
  | raises
  | recovered
  | missing (severity : Severity)
  deriving DecidableEq, Repr

/-- A real notification came after the alert. -/
def Receiver.hasRecovered (receiver : Receiver) : Bool :=
  match receiver.missingAlertedAt, receiver.lastNotificationAt with
  | some missingAlertedAt, some lastNotificationAt =>
      decide (missingAlertedAt < lastNotificationAt)
  | _, _ => false

/-- What a pass decides about a receiver which it has locked. -/
def Receiver.verdict
    (library : ScheduleLibrary) (receiver : Receiver) (now : Instant) :
    Verdict :=
  match scheduleFromReceiver receiver with
  | none => .nothing
  | some schedule =>
      if receiver.hasRecovered then .recovered
      else if receiver.missingAlertedAt.isSome then .nothing
      else
        match referenceInstant receiver with
        | none => .nothing
        | some reference =>
            match alertDeadline library schedule reference with
            | .error (.invalidSchedule _) => .nothing
            | .error _ => .raises
            | .ok deadline =>
                if now ≤ deadline then .nothing
                else .missing schedule.severity

/-- The heartbeat of `persist_notification`; GREATEST ignores NULL. -/
def greatest (saved : Option Instant) (receivedAt : Instant) : Instant :=
  match saved with
  | some moment => max moment receivedAt
  | none => receivedAt

def Receiver.beat
    (receiver : Receiver) (phase : Option NotificationPhase)
    (receivedAt : Instant) : Receiver :=
  match phase with
  | some .start =>
      { receiver with
        lastStartAt := some (greatest receiver.lastStartAt receivedAt) }
  | some .finish | none =>
      { receiver with
        lastNotificationAt :=
          some (greatest receiver.lastNotificationAt receivedAt) }

/-! ## Committed events -/

/-- The row which a PATCH has loaded, its body, and the clock reading with
which it computes its changes. -/
structure ReceiverPatch where
  loaded : Receiver
  body : ReceiverUpdate
  now : Instant
  deriving DecidableEq

def ReceiverPatch.final
    (library : ScheduleLibrary) (patch : ReceiverPatch) :
    Except Problem Receiver :=
  updateReceiver library patch.loaded patch.body patch.now

/-- The commits which change the receiver: the two synthetic notifications,
the ingested ones, and a PATCH with the row before and after it. -/
inductive ReceiverEvent
  | missing (severity : Severity) (now : Instant)
  | recovered (now : Instant)
  | ingested (phase : Option NotificationPhase) (receivedAt : Instant)
  | patched (patch : ReceiverPatch) (before after : Receiver)
  deriving DecidableEq

def receiverEffect
    (library : ScheduleLibrary) (receiver : Receiver) :
    ReceiverEvent → Option Receiver
  | .missing severity now =>
      if receiver.verdict library now = .missing severity then
        some { receiver with missingAlertedAt := some now }
      else none
  | .recovered now =>
      if receiver.verdict library now = .recovered then
        some { receiver with missingAlertedAt := none }
      else none
  | .ingested phase receivedAt => some (receiver.beat phase receivedAt)
  | .patched patch before after =>
      match patch.final library with
      | .error _ => none
      | .ok final =>
          if before = receiver ∧
              after = patch.loaded.writeBack final receiver ∧
              after.check = true then
            some after
          else none

/-! ## The machine -/

/-- In `writing` the transaction has made its writes, if any, and holds the
locks it has taken. -/
inductive SurveillancePhase
  | idle
  | passing (now : Instant)
  | tenantLocked (now : Instant)
  | awaitingQuota (phase : Option NotificationPhase)
  | ingesting (phase : Option NotificationPhase)
  | stamped (phase : Option NotificationPhase) (receivedAt : Instant)
  | loaded (receiver : Receiver) (body : ReceiverUpdate)
  | updated (patch : ReceiverPatch)
  | writing (write : Option (Receiver × ReceiverEvent))
  | finished
  deriving DecidableEq

def receiverProtocol (library : ScheduleLibrary) :
    RowProtocol Receiver ReceiverEvent SurveillancePhase where
  prepared
    | .writing write => write
    | _ => none
  effect := receiverEffect library

structure SurveillanceState (Process : Type*) where
  receiver : RowState Process Receiver ReceiverEvent SurveillancePhase
  tenantHolder : Option Process
  clock : Instant

inductive SurveillanceMove
  | startPass
  | lockTenant
  | watch
  | startIngest (phase : Option NotificationPhase) (quota : Bool)
  | stamp
  | beat
  | load (body : ReceiverUpdate)
  | update
  | flush
  | commit
  | abort
  deriving DecidableEq

structure SurveillanceAction (Process : Type*) where
  process : Process
  now : Instant
  move : SurveillanceMove

variable {Process : Type*} [DecidableEq Process]

namespace SurveillanceState

def goto
    (state : SurveillanceState Process) (process : Process) (now : Instant)
    (phase : SurveillancePhase) : SurveillanceState Process :=
  { state with receiver := state.receiver.goto process phase, clock := now }

def lockTenant
    (state : SurveillanceState Process) (process : Process) (now : Instant)
    (phase : SurveillancePhase) : SurveillanceState Process :=
  { state.goto process now phase with tenantHolder := some process }

def takeReceiver
    (state : SurveillanceState Process) (process : Process) (now : Instant)
    (write : Option (Receiver × ReceiverEvent)) : SurveillanceState Process :=
  { state with
    receiver := state.receiver.take process (.writing write)
    clock := now }

/-- The end of a transaction without a write, or its rollback. -/
def finish
    (state : SurveillanceState Process) (process : Process) (now : Instant) :
    SurveillanceState Process where
  receiver := state.receiver.release process .finished
  tenantHolder :=
    if state.tenantHolder = some process then none else state.tenantHolder
  clock := now

def commit
    (state : SurveillanceState Process) (process : Process) (now : Instant)
    (receiver : Receiver) (event : ReceiverEvent) :
    SurveillanceState Process where
  receiver := state.receiver.commit process .finished receiver event
  tenantHolder :=
    if state.tenantHolder = some process then none else state.tenantHolder
  clock := now

end SurveillanceState

def surveillanceStep
    (library : ScheduleLibrary) (state : SurveillanceState Process)
    (action : SurveillanceAction Process) :
    Option (SurveillanceState Process) :=
  let process := action.process
  let now := action.now
  let receiver := state.receiver.row
  match action.move, state.receiver.phase process with
  | .startPass, .idle => some (state.goto process now (.passing now))
  | .lockTenant, .passing started =>
      if state.tenantHolder = none then
        some (state.lockTenant process now (.tenantLocked started))
      else none
  | .watch, .tenantLocked started =>
      -- SKIP LOCKED: a locked receiver is not selected
      if state.receiver.holder = none ∧ receiver.isWatched = true ∧
          receiver.status = .active then
        match receiver.verdict library started with
        | .nothing => some (state.takeReceiver process now none)
        | .raises => some (state.finish process now)
        | .recovered =>
            some (state.takeReceiver process now (some
              ({ receiver with missingAlertedAt := none },
                .recovered started)))
        | .missing severity =>
            some (state.takeReceiver process now (some
              ({ receiver with missingAlertedAt := some started },
                .missing severity started)))
      else some (state.goto process now (.writing none))
  | .startIngest phase quota, .idle =>
      if receiver.status = .active then
        some (state.goto process now
          (if quota then .awaitingQuota phase else .ingesting phase))
      else some (state.goto process now .finished)
  | .lockTenant, .awaitingQuota phase =>
      if state.tenantHolder = none then
        some (state.lockTenant process now (.ingesting phase))
      else none
  | .stamp, .ingesting phase =>
      some (state.goto process now (.stamped phase now))
  | .beat, .stamped phase receivedAt =>
      if state.receiver.holder = none then
        some (state.takeReceiver process now
          (some (receiver.beat phase receivedAt, .ingested phase receivedAt)))
      else none
  | .load body, .idle => some (state.goto process now (.loaded receiver body))
  | .update, .loaded loaded body =>
      match updateReceiver library loaded body now with
      | .error _ => some (state.goto process now .finished)
      | .ok _ => some (state.goto process now (.updated ⟨loaded, body, now⟩))
  | .flush, .updated patch =>
      match patch.final library with
      | .error _ => none
      | .ok final =>
          if final = patch.loaded then
            some (state.goto process now (.writing none))
          else if state.receiver.holder ≠ none then none
          else
            let written := patch.loaded.writeBack final receiver
            if written.check then
              some (state.takeReceiver process now
                (some (written, .patched patch receiver written)))
            else some (state.finish process now)
  | .commit, .writing none => some (state.finish process now)
  | .commit, .writing (some (written, event)) =>
      some (state.commit process now written event)
  | .abort, .idle => none
  | .abort, _ => some (state.finish process now)
  | _, _ => none

/-- The receiver has just been created. -/
def surveillanceMachine
    (library : ScheduleLibrary) (Process : Type*) [DecidableEq Process] :
    Machine (SurveillanceState Process) (SurveillanceAction Process) where
  Initial state :=
    (∃ body created, createReceiver library body created =
        .ok state.receiver.row) ∧
      state.receiver.holder = none ∧ state.receiver.log = [] ∧
      (∀ process, state.receiver.phase process = .idle) ∧
      state.tenantHolder = none
  step := surveillanceStep library

/-- Every step touches the row in one of the four ways. -/
theorem surveillanceStep_moves
    {library : ScheduleLibrary} {state next : SurveillanceState Process}
    {action : SurveillanceAction Process}
    (hstep : surveillanceStep library state action = some next) :
    RowState.Moves (receiverProtocol library) state.receiver action.process
      next.receiver := by
  obtain ⟨process, now, move⟩ := action
  simp only [surveillanceStep] at hstep
  split at hstep
  case h_1 =>
    obtain rfl := Option.some.inj hstep
    exact .goto _ rfl
  case h_2 =>
    split at hstep
    · obtain rfl := Option.some.inj hstep
      exact .goto _ rfl
    · contradiction
  case h_3 =>
    split at hstep
    · next hselected =>
      split at hstep <;> obtain rfl := Option.some.inj hstep
      · exact .take _ hselected.1 (by simp [receiverProtocol])
      · exact .release _ rfl
      · next hverdict =>
        refine .take _ hselected.1 fun row event hwrite => ?_
        obtain ⟨rfl, rfl⟩ := Prod.mk.inj (Option.some.inj hwrite)
        exact if_pos hverdict
      · next severity hverdict =>
        refine .take _ hselected.1 fun row event hwrite => ?_
        obtain ⟨rfl, rfl⟩ := Prod.mk.inj (Option.some.inj hwrite)
        exact if_pos hverdict
    · obtain rfl := Option.some.inj hstep
      exact .goto _ rfl
  case h_4 quota _ =>
    split at hstep <;> obtain rfl := Option.some.inj hstep
    · refine .goto _ ?_
      cases quota <;> rfl
    · exact .goto _ rfl
  case h_5 =>
    split at hstep
    · obtain rfl := Option.some.inj hstep
      exact .goto _ rfl
    · contradiction
  case h_6 =>
    obtain rfl := Option.some.inj hstep
    exact .goto _ rfl
  case h_7 =>
    split at hstep
    · next hfree =>
      obtain rfl := Option.some.inj hstep
      refine .take _ hfree fun row event hwrite => ?_
      obtain ⟨rfl, rfl⟩ := Prod.mk.inj (Option.some.inj hwrite)
      rfl
    · contradiction
  case h_8 =>
    obtain rfl := Option.some.inj hstep
    exact .goto _ rfl
  case h_9 =>
    split at hstep <;> obtain rfl := Option.some.inj hstep
    · exact .goto _ rfl
    · exact .goto _ rfl
  case h_10 patch _ =>
    split at hstep
    · contradiction
    · next final hfinal =>
      split at hstep
      · obtain rfl := Option.some.inj hstep
        exact .goto _ rfl
      · split at hstep
        · contradiction
        · next hfree =>
          split at hstep <;> obtain rfl := Option.some.inj hstep
          · next hcheck =>
            refine .take _ (not_not.mp hfree) fun row event hwrite => ?_
            obtain ⟨rfl, rfl⟩ := Prod.mk.inj (Option.some.inj hwrite)
            simp only [receiverProtocol, receiverEffect, hfinal, hcheck,
              and_self, if_true]
          · exact .release _ rfl
  case h_11 =>
    obtain rfl := Option.some.inj hstep
    exact .release _ rfl
  case h_12 hphase =>
    obtain rfl := Option.some.inj hstep
    exact .commit _ _ _ (by rw [hphase]; rfl) rfl
  case h_13 => contradiction
  case h_14 =>
    obtain rfl := Option.some.inj hstep
    exact .release _ rfl
  case h_15 => contradiction

/-- In every reachable state the log explains the row. -/
theorem surveillance_recorded
    {library : ScheduleLibrary} {state : SurveillanceState Process}
    {Allowed : SurveillanceState Process → SurveillanceAction Process → Prop}
    (hreach : (surveillanceMachine library Process).ReachableWhere Allowed
      state) :
    ∃ first body created, createReceiver library body created = .ok first ∧
      state.receiver.Recorded (receiverProtocol library) first := by
  refine @Machine.ReachableWhere.invariant _ _ _ _
    (fun current : SurveillanceState Process =>
      ∃ first body created, createReceiver library body created = .ok first ∧
        current.receiver.Recorded (receiverProtocol library) first)
    ?_ ?_ _ hreach
  · intro start hinitial
    obtain ⟨⟨body, created, hcreate⟩, -, hlog, hidle, -⟩ := hinitial
    refine ⟨start.receiver.row, body, created, hcreate,
      .of_initial rfl hlog fun process => ?_⟩
    rw [hidle process]
    rfl
  · intro current action next hcurrent _ hstep
    obtain ⟨first, body, created, hcreate, hrecorded⟩ := hcurrent
    exact ⟨first, body, created, hcreate,
      (surveillanceStep_moves hstep).recorded hrecorded⟩

end NotifyHub
