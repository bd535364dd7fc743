import NotifyHub.SurveillanceHistory
import Mathlib.Tactic

/-!
# Recovery after an alert

The job recognises a recovery by its time: a real notification must carry a
`received_at` later than the clock reading of the pass which raised the
alert.  An ingestion which has read its `received_at` before that pass has
read the clock, and commits after the alert, does not.
-/

namespace NotifyHub

/-- Whatever was received before a MISSING notification is not later than
it. -/
def AlertsFollow (log : List ReceiverEvent) : Prop :=
  ∀ since severity now before,
    log = since ++ .missing severity now :: before →
      ∀ event ∈ before, ∀ receivedAt, event.realAt = some receivedAt →
        receivedAt ≤ now

structure Receiver.History
    (receiver : Receiver) (log : List ReceiverEvent) : Prop where
  checked : receiver.expected.check = true
  heard : receiver.Heard log
  alerted : receiver.Alerted log
  follow : AlertsFollow log

namespace Receiver

variable {library : ScheduleLibrary} {receiver next : Receiver}

/-- The wait of a missing receiver has ended after all it has received. -/
theorem Heard.lt_of_missing
    (hlibrary : library.Advances) {log : List ReceiverEvent}
    (hheard : receiver.Heard log)
    (hcheck : receiver.expected.check = true)
    {severity : Severity} {now : Instant}
    (hverdict : receiver.verdict library now = .missing severity)
    {event : ReceiverEvent} (hmem : event ∈ log)
    {receivedAt : Instant} (hreal : event.realAt = some receivedAt) :
    receivedAt < now := by
  obtain ⟨-, schedule, reference, deadline, hschedule, hreference, hdeadline,
    hlate⟩ := verdict_eq_missing hverdict
  obtain ⟨lastAt, hlast, hle⟩ := hheard.latest event hmem receivedAt hreal
  obtain ⟨hgrace, hevery⟩ := check_nonneg hcheck hschedule
  calc
    receivedAt ≤ lastAt := hle
    _ ≤ reference := lastNotificationAt_le_reference hreference hlast
    _ ≤ deadline := alertDeadline_le hlibrary hgrace hevery hdeadline
    _ < now := hlate

theorem History.effect
    (hlibrary : library.Advances) {log : List ReceiverEvent}
    {event : ReceiverEvent} (hhistory : receiver.History log)
    (heffect : receiverEffect library receiver event = some next) :
    next.History (event :: log) := by
  refine ⟨expected_check_effect hhistory.checked heffect,
    hhistory.heard.effect heffect, hhistory.alerted.effect heffect, ?_⟩
  intro since severity now before hlog old hmem receivedAt hreal
  cases since with
  | nil =>
      obtain ⟨rfl, rfl⟩ := List.cons.inj hlog
      exact (hhistory.heard.lt_of_missing hlibrary hhistory.checked
        (missing_effect.mp heffect).1 hmem hreal).le
  | cons first rest =>
      obtain ⟨-, hrest⟩ := List.cons.inj hlog
      exact hhistory.follow rest severity now before hrest old hmem
        receivedAt hreal

theorem History.of_created
    {body : ReceiverCreate} {created : Instant}
    (hcreate : createReceiver library body created = .ok receiver) :
    receiver.History [] := by
  refine ⟨(createReceiver_eq_ok hcreate).1, .of_created hcreate,
    .of_created hcreate, fun since severity now before hlog => ?_⟩
  simp at hlog

end Receiver

variable {Process : Type*} [DecidableEq Process]

theorem SurveillanceState.history
    {library : ScheduleLibrary} (hlibrary : library.Advances)
    {state : SurveillanceState Process}
    (hreach : (surveillanceMachine library Process).Reachable state) :
    state.receiver.row.History state.receiver.log := by
  obtain ⟨first, body, created, hcreate, hrecorded⟩ :=
    surveillance_recorded hreach
  exact RowProtocol.replay_invariant (Receiver.History.of_created hcreate)
    (fun _ _ _ _ hhistory heffect => hhistory.effect hlibrary heffect)
    hrecorded.replayed

/-- The pass locks the receiver, emits RECOVERED and re-arms it: from then
on a wait which ends is reported. -/
def SurveillanceState.RecoveredBy
    (library : ScheduleLibrary) (state : SurveillanceState Process)
    (process : Process) (now : Instant) : Prop :=
  ∃ locked committed started,
    surveillanceStep library state ⟨process, now, .watch⟩ = some locked ∧
    surveillanceStep library locked ⟨process, now, .commit⟩ =
      some committed ∧
    committed.receiver.log = .recovered started :: state.receiver.log ∧
    ∀ schedule reference deadline later,
      scheduleFromReceiver committed.receiver.row = some schedule →
      referenceInstant committed.receiver.row = some reference →
      alertDeadline library schedule reference = .ok deadline →
      deadline < later →
        committed.receiver.row.verdict library later =
          .missing schedule.severity

theorem SurveillanceState.hasRecovered_of_recoveredBy
    {library : ScheduleLibrary} {state : SurveillanceState Process}
    {first : Receiver}
    (hrecorded : state.receiver.Recorded (receiverProtocol library) first)
    {process : Process} {started : Instant}
    (hpass : state.receiver.phase process = .tenantLocked started)
    {now : Instant} (hrecovered : state.RecoveredBy library process now) :
    state.receiver.row.hasRecovered = true := by
  obtain ⟨locked, committed, stamp, hwatch, hcommit, hlog, -⟩ := hrecovered
  have hlocked : locked.receiver.row = state.receiver.row ∧
      locked.receiver.log = state.receiver.log := by
    rcases (surveillanceStep_moves hwatch).row_log hrecorded with
      hkept | ⟨event, hwrites, -⟩
    · exact hkept
    · rw [hpass] at hwrites
      contradiction
  have hlockedRecorded := (surveillanceStep_moves hwatch).recorded hrecorded
  rcases (surveillanceStep_moves hcommit).row_log hlockedRecorded with
    ⟨-, hkept⟩ | ⟨event, -, heffect, hadded⟩
  · rw [hlog, hlocked.2] at hkept
    exact absurd hkept (List.cons_ne_self _ _)
  · rw [hlog, hlocked.2] at hadded
    obtain ⟨rfl, -⟩ := List.cons.inj hadded
    rw [hlocked.1] at heffect
    exact Receiver.hasRecovered_of_verdict
      (Receiver.recovered_effect.mp heffect).1

theorem SurveillanceState.recoveredBy_of_hasRecovered
    {library : ScheduleLibrary} {state : SurveillanceState Process}
    {process : Process} {started : Instant}
    (hpass : state.receiver.phase process = .tenantLocked started)
    (hfree : state.receiver.holder = none)
    (hwatched : state.receiver.row.isWatched = true)
    (hactive : state.receiver.row.status = .active)
    (hrecovered : state.receiver.row.hasRecovered = true) (now : Instant) :
    state.RecoveredBy library process now := by
  have hverdict : state.receiver.row.verdict library started = .recovered :=
    Receiver.verdict_of_hasRecovered hwatched hrecovered started
  let armed := { state.receiver.row with missingAlertedAt := none }
  let locked := state.takeReceiver process now
    (some (armed, .recovered started))
  have hwatch : surveillanceStep library state ⟨process, now, .watch⟩ =
      some locked := by
    simp only [surveillanceStep, hpass]
    rw [if_pos ⟨hfree, hwatched, hactive⟩, hverdict]
  have hwriting : locked.receiver.phase process =
      .writing (some (armed, .recovered started)) :=
    RowState.goto_phase_self _
  refine ⟨locked, locked.commit process now armed (.recovered started),
    started, hwatch, ?_, rfl, ?_⟩
  · simp only [surveillanceStep, hwriting]
  · intro schedule reference deadline later hschedule hreference hdeadline
      hlate
    exact Receiver.verdict_of_late rfl hschedule hreference hdeadline hlate

/-- The next pass which locks the receiver reports a recovery if and only if
one of the real notifications committed since the alert carries a
`received_at` later than the clock reading of the pass which raised it. -/
theorem recovery_reported_iff
    {library : ScheduleLibrary} (hlibrary : library.Advances)
    {state : SurveillanceState Process}
    (hreach : (surveillanceMachine library Process).Reachable state)
    {since before : List ReceiverEvent} {severity : Severity}
    {alertedAt : Instant}
    (hlog : state.receiver.log =
      since ++ .missing severity alertedAt :: before)
    (halerted : state.receiver.row.missingAlertedAt = some alertedAt)
    {process : Process} {started : Instant}
    (hpass : state.receiver.phase process = .tenantLocked started)
    (hfree : state.receiver.holder = none)
    (hwatched : state.receiver.row.isWatched = true)
    (hactive : state.receiver.row.status = .active) (now : Instant) :
    state.RecoveredBy library process now ↔
      ∃ event ∈ since, ∃ receivedAt, event.realAt = some receivedAt ∧
        alertedAt < receivedAt := by
  have hhistory := SurveillanceState.history hlibrary hreach
  constructor
  · intro hrecovered
    obtain ⟨first, -, -, -, hrecorded⟩ := surveillance_recorded hreach
    obtain ⟨alert, lastAt, halert, hlast, hlater⟩ :=
      Receiver.hasRecovered_iff.mp
        (SurveillanceState.hasRecovered_of_recoveredBy hrecorded hpass
          hrecovered)
    rw [halerted] at halert
    obtain rfl := Option.some.inj halert
    obtain ⟨event, hmem, hevent⟩ := hhistory.heard.real lastAt hlast
    rw [hlog, List.mem_append, List.mem_cons] at hmem
    rcases hmem with hmem | rfl | hmem
    · exact ⟨event, hmem, lastAt, hevent, hlater⟩
    · contradiction
    · have hle := hhistory.follow since severity alertedAt before hlog event
        hmem lastAt hevent
      exact absurd hlater (not_lt.mpr hle)
  · rintro ⟨event, hmem, receivedAt, hevent, hlater⟩
    obtain ⟨lastAt, hlast, hle⟩ := hhistory.heard.latest event
      (by rw [hlog]; exact List.mem_append_left _ hmem) receivedAt hevent
    exact SurveillanceState.recoveredBy_of_hasRecovered hpass hfree hwatched
      hactive (Receiver.hasRecovered_iff.mpr
        ⟨alertedAt, lastAt, halerted, hlast, lt_of_lt_of_le hlater hle⟩) now

/-! ## A recovery which is not reported -/

/-- The clock does not go back. -/
def SurveillanceOnTime
    (state : SurveillanceState Process) (action : SurveillanceAction Process) :
    Prop :=
  state.clock ≤ action.now

instance
    (state : SurveillanceState Process) (action : SurveillanceAction Process) :
    Decidable (SurveillanceOnTime state action) :=
  inferInstanceAs (Decidable (_ ≤ _))

/-- No cron expressions are used below. -/
def noCron : ScheduleLibrary where
  cronIsValid := fun _ => false
  getNext := fun _ _ _ => .error []
  zoneExists := fun _ => false
  reprText := id

theorem noCron_advances : noCron.Advances := by
  intro cron zone moment following hget
  contradiction

/-- A receiver which is expected every minute. -/
def everyMinute : ReceiverCreate where
  durationThresholdSeconds := none
  durationSeverity := none
  expectedEverySeconds := some ⟨60, int4_minute_inRange⟩
  expectedCron := none
  expectedTimezone := none
  expectedGraceSeconds := some ⟨0, int4_zero_inRange⟩
  missingSeverity := some .error

def minuteReceiver : Receiver where
  status := .active
  durationThresholdSeconds := none
  durationSeverity := none
  expected :=
    { everySeconds := some 60
      cron := none
      timezone := none
      graceSeconds := some 0
      missingSeverity := some .error }
  expectedSince := some 0
  lastNotificationAt := none
  lastStartAt := none
  missingAlertedAt := none

def createdReceiver (Process : Type*) : SurveillanceState Process where
  receiver := ⟨minuteReceiver, none, fun _ => .idle, []⟩
  tenantHolder := none
  clock := 0

theorem createdReceiver_initial (Process : Type*) [DecidableEq Process] :
    (surveillanceMachine noCron Process).Initial (createdReceiver Process) :=
  ⟨⟨everyMinute, 0, rfl⟩, rfl, rfl, fun _ => rfl, rfl⟩

/-- Pass 0 raises an alert, with steps of ingestion 1 before and after it,
and pass 2 is about to lock the receiver. -/
def alertRun (early late : List (SurveillanceAction (ℕ))) :
    List (SurveillanceAction (ℕ)) :=
  early ++
    [⟨0, timedeltaSeconds 61, .startPass⟩,
      ⟨0, timedeltaSeconds 61, .lockTenant⟩,
      ⟨0, timedeltaSeconds 61, .watch⟩,
      ⟨0, timedeltaSeconds 62, .commit⟩] ++
    late ++
    [⟨2, timedeltaSeconds 121, .startPass⟩,
      ⟨2, timedeltaSeconds 121, .lockTenant⟩]

theorem recovery_reported_afterwards :
    ∃ state, (surveillanceMachine noCron (ℕ)).run
        (createdReceiver (ℕ))
        (alertRun []
          [⟨1, timedeltaSeconds 62, .startIngest none false⟩,
            ⟨1, timedeltaSeconds 63, .stamp⟩,
            ⟨1, timedeltaSeconds 63, .beat⟩,
            ⟨1, timedeltaSeconds 63, .commit⟩]) = some state ∧
      state.RecoveredBy noCron 2 (timedeltaSeconds 121) := by
  obtain ⟨state, hrun, hlog, halerted, hpass, hfree, hwatched, hactive⟩ :
      ∃ state, (surveillanceMachine noCron (ℕ)).run
          (createdReceiver (ℕ))
          (alertRun []
            [⟨1, timedeltaSeconds 62, .startIngest none false⟩,
              ⟨1, timedeltaSeconds 63, .stamp⟩,
              ⟨1, timedeltaSeconds 63, .beat⟩,
              ⟨1, timedeltaSeconds 63, .commit⟩]) = some state ∧
        state.receiver.log = [.ingested none (timedeltaSeconds 63)] ++
          .missing .error (timedeltaSeconds 61) :: [] ∧
        state.receiver.row.missingAlertedAt = some (timedeltaSeconds 61) ∧
        state.receiver.phase 2 = .tenantLocked (timedeltaSeconds 121) ∧
        state.receiver.holder = none ∧
        state.receiver.row.isWatched = true ∧
        state.receiver.row.status = .active :=
    ⟨_, rfl, by decide +kernel, by decide +kernel, by decide +kernel,
      by decide +kernel, by decide +kernel, by decide +kernel⟩
  have hreach : (surveillanceMachine noCron (ℕ)).Reachable state :=
    .run (.initial (createdReceiver_initial (ℕ))) hrun
  refine ⟨state, hrun, (recovery_reported_iff noCron_advances hreach hlog
    halerted hpass hfree hwatched hactive _).mpr ?_⟩
  exact ⟨_, List.mem_singleton_self _, timedeltaSeconds 63, rfl,
    by decide +kernel⟩

/-- Ingestion 1 reads its `received_at` before pass 0 reads the clock, and
commits after the alert. -/
def overtakenRun : List (SurveillanceAction (ℕ)) :=
  alertRun
    [⟨1, timedeltaSeconds 60, .startIngest none false⟩,
      ⟨1, timedeltaSeconds 60, .stamp⟩]
    [⟨1, timedeltaSeconds 62, .beat⟩, ⟨1, timedeltaSeconds 62, .commit⟩]

theorem recovery_not_reported :
    ∃ state, (surveillanceMachine noCron (ℕ)).run
        (createdReceiver (ℕ)) overtakenRun = some state ∧
      (surveillanceMachine noCron (ℕ)).AllowedAlong SurveillanceOnTime
        (createdReceiver (ℕ)) overtakenRun ∧
      state.receiver.log = [.ingested none (timedeltaSeconds 60),
        .missing .error (timedeltaSeconds 61)] ∧
      state.receiver.row.isWatched = true ∧
      state.receiver.row.status = .active ∧
      state.receiver.holder = none ∧
      state.receiver.phase 2 = .tenantLocked (timedeltaSeconds 121) ∧
      ¬state.RecoveredBy noCron 2 (timedeltaSeconds 121) := by
  obtain ⟨state, hrun, hlog, hwatched, hactive, hfree, hpass, hsilent⟩ :
      ∃ state, (surveillanceMachine noCron (ℕ)).run
          (createdReceiver (ℕ)) overtakenRun = some state ∧
        state.receiver.log = [.ingested none (timedeltaSeconds 60),
          .missing .error (timedeltaSeconds 61)] ∧
        state.receiver.row.isWatched = true ∧
        state.receiver.row.status = .active ∧
        state.receiver.holder = none ∧
        state.receiver.phase 2 = .tenantLocked (timedeltaSeconds 121) ∧
        state.receiver.row.hasRecovered = false :=
    ⟨_, rfl, by decide +kernel, by decide +kernel, by decide +kernel,
      by decide +kernel, by decide +kernel, by decide +kernel⟩
  have hreach : (surveillanceMachine noCron (ℕ)).Reachable state :=
    .run (.initial (createdReceiver_initial (ℕ))) hrun
  obtain ⟨first, -, -, -, hrecorded⟩ := surveillance_recorded hreach
  refine ⟨state, hrun, by decide +kernel, hlog, hwatched, hactive, hfree,
    hpass, fun hrecovered => ?_⟩
  have hnever := SurveillanceState.hasRecovered_of_recoveredBy hrecorded
    hpass hrecovered
  rw [hsilent] at hnever
  contradiction

end NotifyHub
