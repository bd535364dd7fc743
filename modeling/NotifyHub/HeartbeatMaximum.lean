import NotifyHub.SurveillanceRecovery
import Mathlib.Tactic

/-!
# The heartbeat as a maximum

Ingestions commit in another order than they have read `received_at`, and
PATCHes and passes write the same row in between.  GREATEST makes each of the
two heartbeats the maximum over the notifications committed so far, so neither
goes back, and the end of the wait goes back only with the policy.
-/

namespace NotifyHub

/-- A column which is still set later, to the same moment or a later one. -/
def NotBefore (earlier later : Option Instant) : Prop :=
  ∀ moment, earlier = some moment →
    ∃ following, later = some following ∧ moment ≤ following

theorem NotBefore.refl (column : Option Instant) : NotBefore column column :=
  fun moment hmoment => ⟨moment, hmoment, le_refl moment⟩

theorem NotBefore.trans
    {first second third : Option Instant}
    (hfirst : NotBefore first second) (hsecond : NotBefore second third) :
    NotBefore first third := by
  intro moment hmoment
  obtain ⟨middle, hmiddle, hle⟩ := hfirst moment hmoment
  obtain ⟨last, hlast, hle'⟩ := hsecond middle hmiddle
  exact ⟨last, hlast, hle.trans hle'⟩

theorem notBefore_greatest (saved : Option Instant) (receivedAt : Instant) :
    NotBefore saved (some (greatest saved receivedAt)) := by
  rintro moment rfl
  exact ⟨_, rfl, Receiver.saved_le_greatest moment receivedAt⟩

theorem max?_cons_eq_greatest (receivedAt : Instant) (moments : List Instant) :
    (receivedAt :: moments).max? = some (greatest moments.max? receivedAt) := by
  rw [List.max?_cons]
  cases moments.max? with
  | none => rfl
  | some moment => exact congrArg some (max_comm receivedAt moment)

/-- The `received_at` of a start ping. -/
def ReceiverEvent.startAt : ReceiverEvent → Option Instant
  | .ingested (some .start) receivedAt => some receivedAt
  | .ingested _ _ | .missing _ _ | .recovered _ | .patched _ _ _ => none

/-! ## The end of the wait -/

/-- `get_next` is monotone in its start. -/
def ScheduleLibrary.Monotone (library : ScheduleLibrary) : Prop :=
  ∀ cron zone moment later following laterFollowing, moment ≤ later →
    library.getNext cron zone moment = .ok following →
    library.getNext cron zone later = .ok laterFollowing →
      following ≤ laterFollowing

theorem nextFireAfter_eq_ok
    {library : ScheduleLibrary} {cron : Text} {timezone : Option Text}
    {moment following : Instant}
    (hnext : nextFireAfter library cron timezone moment = .ok following) :
    library.getNext cron (timezone.getD defaultTimezone) moment =
      .ok following := by
  unfold nextFireAfter at hnext
  simp only at hnext
  split at hnext
  next hget => rw [hget, Except.ok.inj hnext]
  · contradiction

/-- The wait ends at a time which depends on the reference only: a fixed time
after it, or after its next occurrence. -/
theorem alertDeadline_eq_ok
    {library : ScheduleLibrary} {schedule : ExpectedSchedule}
    {reference deadline : Instant}
    (hdeadline : alertDeadline library schedule reference = .ok deadline) :
    (∃ everySeconds, schedule.cron = none ∧
      schedule.everySeconds = some everySeconds ∧
      deadline = reference + timedeltaSeconds everySeconds +
        timedeltaSeconds schedule.graceSeconds) ∨
    ∃ cron following, schedule.cron = some cron ∧
      library.getNext cron (schedule.timezone.getD defaultTimezone) reference =
        .ok following ∧
      deadline = following + timedeltaSeconds schedule.graceSeconds := by
  unfold alertDeadline at hdeadline
  simp only at hdeadline
  split at hdeadline
  next hcron =>
    split at hdeadline
    · contradiction
    next everySeconds hevery =>
      cases hsum : addOrOverflow reference (timedeltaSeconds everySeconds) with
      | error error =>
          rw [hsum] at hdeadline
          contradiction
      | ok following =>
          rw [hsum] at hdeadline
          left
          refine ⟨everySeconds, hcron, hevery, ?_⟩
          rw [addOrOverflow_eq_ok hdeadline, addOrOverflow_eq_ok hsum]
  next cron hcron =>
    cases hnext : nextFireAfter library cron schedule.timezone reference with
    | error error =>
        rw [hnext] at hdeadline
        contradiction
    | ok following =>
        rw [hnext] at hdeadline
        right
        exact ⟨cron, following, hcron, nextFireAfter_eq_ok hnext,
          addOrOverflow_eq_ok hdeadline⟩

/-- A later reference does not end the wait earlier. -/
theorem alertDeadline_mono
    {library : ScheduleLibrary} (hlibrary : library.Monotone)
    {schedule : ExpectedSchedule}
    {reference later deadline laterDeadline : Instant}
    (hreference : reference ≤ later)
    (hdeadline : alertDeadline library schedule reference = .ok deadline)
    (hlater : alertDeadline library schedule later = .ok laterDeadline) :
    deadline ≤ laterDeadline := by
  rcases alertDeadline_eq_ok hdeadline with
    ⟨everySeconds, hcron, hevery, rfl⟩ | ⟨cron, following, hcron, hnext, rfl⟩
  · rcases alertDeadline_eq_ok hlater with
      ⟨everySeconds', -, hevery', rfl⟩ | ⟨cron, _, hcron', -⟩
    · rw [hevery, Option.some.injEq] at hevery'
      subst hevery'
      gcongr
    · rw [hcron] at hcron'
      contradiction
  · rcases alertDeadline_eq_ok hlater with
      ⟨_, hcron', -⟩ | ⟨cron', following', hcron', hnext', rfl⟩
    · rw [hcron] at hcron'
      contradiction
    · rw [hcron, Option.some.injEq] at hcron'
      subst hcron'
      have hfollowing := hlibrary cron _ reference later following following'
        hreference hnext hnext'
      gcongr

namespace Receiver

variable {library : ScheduleLibrary} {receiver next : Receiver}

theorem referenceInstant_mono
    (hlast : NotBefore receiver.lastNotificationAt next.lastNotificationAt)
    (hsince : NotBefore receiver.expectedSince next.expectedSince) :
    NotBefore (referenceInstant receiver) (referenceInstant next) := by
  have hreach : ∀ moment following, next.lastNotificationAt = some following ∨
      next.expectedSince = some following → moment ≤ following →
        ∃ reference, referenceInstant next = some reference ∧
          moment ≤ reference := by
    intro moment following hcolumn hle
    unfold referenceInstant
    cases hnextLast : next.lastNotificationAt with
    | none =>
        rcases hcolumn with hcolumn | hcolumn
        · rw [hnextLast] at hcolumn
          contradiction
        · exact ⟨following, hcolumn, hle⟩
    | some lastAt =>
        cases hnextSince : next.expectedSince with
        | none =>
            rw [hnextLast, hnextSince] at hcolumn
            rcases hcolumn with hcolumn | hcolumn
            · exact ⟨lastAt, rfl, hle.trans (Option.some.inj hcolumn).ge⟩
            · contradiction
        | some since =>
            rw [hnextLast, hnextSince] at hcolumn
            refine ⟨max lastAt since, rfl, hle.trans ?_⟩
            rcases hcolumn with hcolumn | hcolumn
            · exact (Option.some.inj hcolumn).ge.trans (le_max_left _ _)
            · exact (Option.some.inj hcolumn).ge.trans (le_max_right _ _)
  intro reference hreference
  unfold referenceInstant at hreference
  split at hreference
  next lastAt since hlastAt hsinceAt =>
    rw [Option.some.injEq] at hreference
    subst hreference
    rcases max_choice lastAt since with hmax | hmax
    · rw [hmax]
      obtain ⟨following, hfollowing, hle⟩ := hlast lastAt hlastAt
      exact hreach lastAt following (.inl hfollowing) hle
    · rw [hmax]
      obtain ⟨following, hfollowing, hle⟩ := hsince since hsinceAt
      exact hreach since following (.inr hfollowing) hle
  next lastAt hlastAt hsinceAt =>
    rw [Option.some.injEq] at hreference
    subst hreference
    obtain ⟨following, hfollowing, hle⟩ := hlast lastAt hlastAt
    exact hreach lastAt following (.inl hfollowing) hle
  next hlastAt =>
    obtain ⟨following, hfollowing, hle⟩ := hsince reference hreference
    exact hreach reference following (.inr hfollowing) hle

/-! ## Maxima over the log -/

/-- The two heartbeats are the maxima over the committed notifications, each
kind on its own. -/
structure Beats (receiver : Receiver) (log : List ReceiverEvent) : Prop where
  last : receiver.lastNotificationAt = (log.filterMap ReceiverEvent.realAt).max?
  start : receiver.lastStartAt = (log.filterMap ReceiverEvent.startAt).max?

theorem Beats.of_created
    {body : ReceiverCreate} {created : Instant}
    (hcreate : createReceiver library body created = .ok receiver) :
    receiver.Beats [] := by
  unfold createReceiver at hcreate
  simp only at hcreate
  split at hcreate
  · contradiction
  · obtain ⟨⟨⟩, -, hreceiver⟩ := Except.bind_eq_ok.mp hcreate
    rw [← Except.ok.inj hreceiver]
    exact ⟨rfl, rfl⟩

/-- An event which is no notification leaves the heartbeats. -/
theorem Beats.silent
    {log : List ReceiverEvent} {event : ReceiverEvent}
    (hbeats : receiver.Beats log)
    (hlast : next.lastNotificationAt = receiver.lastNotificationAt)
    (hstart : next.lastStartAt = receiver.lastStartAt)
    (hreal : event.realAt = none) (hping : event.startAt = none) :
    next.Beats (event :: log) := by
  constructor
  · rw [hlast, List.filterMap_cons_none hreal, hbeats.last]
  · rw [hstart, List.filterMap_cons_none hping, hbeats.start]

theorem Beats.ingested
    {log : List ReceiverEvent} (hbeats : receiver.Beats log)
    (phase : Option NotificationPhase) (receivedAt : Instant) :
    (receiver.beat phase receivedAt).Beats
      (.ingested phase receivedAt :: log) := by
  have hmax : some (greatest receiver.lastNotificationAt receivedAt) =
      (receivedAt :: log.filterMap ReceiverEvent.realAt).max? := by
    rw [max?_cons_eq_greatest, hbeats.last]
  have hmaxStart : some (greatest receiver.lastStartAt receivedAt) =
      (receivedAt :: log.filterMap ReceiverEvent.startAt).max? := by
    rw [max?_cons_eq_greatest, hbeats.start]
  cases phase with
  | none => exact ⟨hmax, hbeats.start⟩
  | some phase =>
      cases phase with
      | start => exact ⟨hbeats.last, hmaxStart⟩
      | finish => exact ⟨hmax, hbeats.start⟩

theorem Beats.effect
    {log : List ReceiverEvent} {event : ReceiverEvent}
    (hbeats : receiver.Beats log)
    (heffect : receiverEffect library receiver event = some next) :
    next.Beats (event :: log) := by
  cases event with
  | missing severity now =>
      obtain ⟨-, rfl⟩ := missing_effect.mp heffect
      exact hbeats.silent rfl rfl rfl rfl
  | recovered now =>
      obtain ⟨-, rfl⟩ := recovered_effect.mp heffect
      exact hbeats.silent rfl rfl rfl rfl
  | ingested phase receivedAt =>
      obtain rfl := Option.some.inj heffect
      exact hbeats.ingested phase receivedAt
  | patched patch before after =>
      obtain ⟨final, -, -, rfl, -, rfl⟩ := patched_effect heffect
      exact hbeats.silent rfl rfl rfl rfl

theorem effect_notBefore
    {event : ReceiverEvent}
    (heffect : receiverEffect library receiver event = some next) :
    NotBefore receiver.lastNotificationAt next.lastNotificationAt := by
  rcases effect_lastNotificationAt heffect with
    ⟨hsame, -⟩ | ⟨receivedAt, -, hnext⟩
  · rw [hsame]
    exact .refl _
  · rw [hnext]
    exact notBefore_greatest _ receivedAt

/-- With the policy as it is, a later reference does not end the wait
earlier. -/
theorem deadline_mono
    (hlibrary : library.Monotone) (hexpected : next.expected = receiver.expected)
    (hlast : NotBefore receiver.lastNotificationAt next.lastNotificationAt)
    (hsince : NotBefore receiver.expectedSince next.expectedSince)
    {schedule : ExpectedSchedule} {reference later deadline following : Instant}
    (hschedule : scheduleFromReceiver receiver = some schedule)
    (hreference : referenceInstant receiver = some reference)
    (hdeadline : alertDeadline library schedule reference = .ok deadline)
    (hlater : referenceInstant next = some later)
    (hfollowing : alertDeadline library schedule later = .ok following) :
    scheduleFromReceiver next = some schedule ∧ deadline ≤ following := by
  constructor
  · rw [← hschedule, scheduleFromReceiver, scheduleFromReceiver, hexpected]
  · obtain ⟨found, hfound, hle⟩ :=
      referenceInstant_mono hlast hsince reference hreference
    rw [hlater, Option.some.injEq] at hfound
    subst hfound
    exact alertDeadline_mono hlibrary hle hdeadline hfollowing

end Receiver

/-! ## Runs -/

variable {Process : Type*} [DecidableEq Process]

theorem SurveillanceState.beats
    {library : ScheduleLibrary} {state : SurveillanceState Process}
    (hreach : (surveillanceMachine library Process).Reachable state) :
    state.receiver.row.Beats state.receiver.log := by
  obtain ⟨first, body, created, hcreate, hrecorded⟩ :=
    surveillance_recorded hreach
  exact RowProtocol.replay_invariant (Receiver.Beats.of_created hcreate)
    (fun _ _ _ _ hbeats heffect => hbeats.effect heffect) hrecorded.replayed

/-- Along a run the heartbeat does not go back. -/
theorem SurveillanceState.run_notBefore
    {library : ScheduleLibrary} {state later : SurveillanceState Process}
    {actions : List (SurveillanceAction Process)}
    (hreach : (surveillanceMachine library Process).Reachable state)
    (hrun : (surveillanceMachine library Process).run state actions =
      some later) :
    NotBefore state.receiver.row.lastNotificationAt
      later.receiver.row.lastNotificationAt := by
  obtain ⟨first, -, -, -, hrecorded⟩ := surveillance_recorded hreach
  have hpreserved : ∀ (current : SurveillanceState Process) action next,
      (current.receiver.Recorded (receiverProtocol library) first ∧
        NotBefore state.receiver.row.lastNotificationAt
          current.receiver.row.lastNotificationAt) →
      surveillanceStep library current action = some next →
        next.receiver.Recorded (receiverProtocol library) first ∧
          NotBefore state.receiver.row.lastNotificationAt
            next.receiver.row.lastNotificationAt := by
    intro current action next ⟨hcurrent, hlast⟩ hstep
    have hmoves := surveillanceStep_moves hstep
    refine ⟨hmoves.recorded hcurrent, ?_⟩
    rcases hmoves.row_log hcurrent with ⟨hrow, -⟩ | ⟨event, -, heffect, -⟩
    · rw [hrow]
      exact hlast
    · exact hlast.trans (Receiver.effect_notBefore heffect)
  have hfinal := Machine.run_preserves hpreserved ⟨hrecorded, .refl _⟩ hrun
  exact hfinal.2

/-- In every reachable state the heartbeats are the maxima over the committed
notifications.  Along every run which leaves the policy, and does not put
`expected_since` back, neither the reference nor the end of the wait goes
back. -/
theorem heartbeat_maximum
    (library : ScheduleLibrary) (state : SurveillanceState Process)
    (hreach : (surveillanceMachine library Process).Reachable state) :
    state.receiver.row.lastNotificationAt =
        (state.receiver.log.filterMap ReceiverEvent.realAt).max? ∧
      state.receiver.row.lastStartAt =
        (state.receiver.log.filterMap ReceiverEvent.startAt).max? ∧
      ∀ actions later,
        (surveillanceMachine library Process).run state actions = some later →
        later.receiver.row.expected = state.receiver.row.expected →
        NotBefore state.receiver.row.expectedSince
          later.receiver.row.expectedSince →
        NotBefore (referenceInstant state.receiver.row)
            (referenceInstant later.receiver.row) ∧
          (library.Monotone →
            ∀ schedule reference deadline following laterDeadline,
              scheduleFromReceiver state.receiver.row = some schedule →
              referenceInstant state.receiver.row = some reference →
              alertDeadline library schedule reference = .ok deadline →
              referenceInstant later.receiver.row = some following →
              alertDeadline library schedule following = .ok laterDeadline →
                scheduleFromReceiver later.receiver.row = some schedule ∧
                  deadline ≤ laterDeadline) := by
  have hbeats := SurveillanceState.beats hreach
  refine ⟨hbeats.last, hbeats.start, ?_⟩
  intro actions later hrun hexpected hsince
  have hlast := SurveillanceState.run_notBefore hreach hrun
  refine ⟨Receiver.referenceInstant_mono hlast hsince, ?_⟩
  intro hlibrary schedule reference deadline following laterDeadline hschedule
    hreference hdeadline hfollowing hlater
  exact Receiver.deadline_mono hlibrary hexpected hlast hsince hschedule
    hreference hdeadline hfollowing hlater

/-- `0 * * * *` in UTC. -/
def hourly : ScheduleLibrary where
  cronIsValid expression := expression = "0 * * * *".toList
  getNext expression zone moment :=
    if expression = "0 * * * *".toList ∧ zone = defaultTimezone then
      .ok ((moment / timedeltaMinutes 60 + 1) * timedeltaMinutes 60)
    else .error []
  zoneExists zone := zone = defaultTimezone
  reprText text := text

theorem hourly_monotone : hourly.Monotone := by
  intro cron zone moment later following laterFollowing hle hnext hlater
  simp only [hourly] at hnext hlater
  split at hnext
  next hcron =>
    rw [if_pos hcron, Except.ok.injEq] at hlater
    rw [Except.ok.injEq] at hnext
    subst hnext hlater
    have hpositive : (0 : ℤ) < timedeltaMinutes 60 := by decide
    have hdiv : moment / timedeltaMinutes 60 ≤ later / timedeltaMinutes 60 :=
      Int.ediv_le_ediv hpositive hle
    gcongr
  · contradiction

def everyHour : ReceiverCreate where
  durationThresholdSeconds := none
  durationSeverity := none
  expectedEverySeconds := none
  expectedCron := some ⟨"0 * * * *".toList, by decide⟩
  expectedTimezone := none
  expectedGraceSeconds := some ⟨0, int4_zero_inRange⟩
  missingSeverity := some .error

def hourReceiver : Receiver where
  status := .active
  durationThresholdSeconds := none
  durationSeverity := none
  expected :=
    { everySeconds := none
      cron := some "0 * * * *".toList
      timezone := none
      graceSeconds := some 0
      missingSeverity := some .error }
  expectedSince := some 0
  lastNotificationAt := none
  lastStartAt := none
  missingAlertedAt := none

def createdHourly : SurveillanceState ℕ where
  receiver := ⟨hourReceiver, none, fun _ => .idle, []⟩
  tenantHolder := none
  clock := 0

theorem createdHourly_initial :
    (surveillanceMachine hourly ℕ).Initial createdHourly :=
  ⟨⟨everyHour, 0, by decide +kernel⟩, rfl, rfl, fun _ => rfl, rfl⟩

/-- An ingestion which reads `received_at` at one minute and commits at
another. -/
def ingestion (process : ℕ) (received committed : ℤ) :
    List (SurveillanceAction ℕ) × List (SurveillanceAction ℕ) :=
  ([⟨process, timedeltaMinutes received, .startIngest none false⟩,
      ⟨process, timedeltaMinutes received, .stamp⟩],
    [⟨process, timedeltaMinutes committed, .beat⟩,
      ⟨process, timedeltaMinutes committed, .commit⟩])

/-- Ingestion 1 is received first and commits last. -/
def crossedIngestions : List (SurveillanceAction ℕ) :=
  (ingestion 1 40 52).1 ++ (ingestion 2 50 51).1 ++ (ingestion 2 50 51).2 ++
    (ingestion 1 40 52).2

theorem heartbeat_maximum_crossedIngestions :
    ∃ state later : SurveillanceState ℕ,
      (surveillanceMachine hourly ℕ).run createdHourly crossedIngestions =
        some state ∧
      (surveillanceMachine hourly ℕ).run state
        ((ingestion 3 130 131).1 ++ (ingestion 3 130 131).2) = some later ∧
      some (timedeltaMinutes 50) =
        (state.receiver.log.filterMap ReceiverEvent.realAt).max? ∧
      none = (state.receiver.log.filterMap ReceiverEvent.startAt).max? ∧
      NotBefore (some (timedeltaMinutes 50))
        (referenceInstant later.receiver.row) ∧
      timedeltaMinutes 60 ≤ timedeltaMinutes 180 := by
  obtain ⟨state, hrun, hrow, later, hlater, hlaterRow⟩ :
      ∃ state : SurveillanceState ℕ,
        (surveillanceMachine hourly ℕ).run createdHourly crossedIngestions =
          some state ∧
        state.receiver.row = hourReceiver.beat none (timedeltaMinutes 50) ∧
        ∃ later : SurveillanceState ℕ,
          (surveillanceMachine hourly ℕ).run state
            ((ingestion 3 130 131).1 ++ (ingestion 3 130 131).2) =
              some later ∧
          later.receiver.row =
            hourReceiver.beat none (timedeltaMinutes 130) :=
    ⟨_, rfl, by decide +kernel, _, rfl, by decide +kernel⟩
  have hreach : (surveillanceMachine hourly ℕ).Reachable state :=
    .run (.initial createdHourly_initial) hrun
  obtain ⟨hmax, hmaxStart, hmono⟩ := heartbeat_maximum hourly state hreach
  obtain ⟨hnotBefore, hdeadline⟩ := hmono _ later hlater
    (by rw [hrow, hlaterRow]; rfl) (by rw [hrow, hlaterRow]; exact .refl _)
  rw [hrow] at hmax hmaxStart hnotBefore hdeadline
  rw [hlaterRow] at hnotBefore hdeadline
  have hbound := hdeadline hourly_monotone
    ⟨0, .error, none, some "0 * * * *".toList, none⟩ (timedeltaMinutes 50)
    (timedeltaMinutes 60) (timedeltaMinutes 130) (timedeltaMinutes 180)
    (by decide +kernel) (by decide +kernel) (by decide +kernel)
    (by decide +kernel) (by decide +kernel)
  rw [← hlaterRow] at hnotBefore
  exact ⟨state, later, hrun, hlater, hmax, hmaxStart, hnotBefore, hbound.2⟩

end NotifyHub
