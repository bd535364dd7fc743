import NotifyHub.SurveillanceMachine
import Mathlib.Tactic

/-!
# The history of a watched receiver

What the log says about the heartbeat and about the alert of the row: the
heartbeat is the latest `received_at` of a real notification, and an alert
comes from the last MISSING notification.
-/

namespace NotifyHub

/-- The `received_at` of a real notification which is not a start ping. -/
def ReceiverEvent.realAt : ReceiverEvent → Option Instant
  | .ingested (some .start) _ => none
  | .ingested _ receivedAt => some receivedAt
  | .missing _ _ | .recovered _ | .patched _ _ _ => none

/-- The event is one of the two synthetic notifications. -/
def ReceiverEvent.isSynthetic : ReceiverEvent → Bool
  | .missing _ _ | .recovered _ => true
  | .ingested _ _ | .patched _ _ _ => false

namespace Receiver

variable {library : ScheduleLibrary} {receiver next : Receiver}

/-! ## Verdicts -/

theorem hasRecovered_iff :
    receiver.hasRecovered = true ↔
      ∃ alertedAt lastAt, receiver.missingAlertedAt = some alertedAt ∧
        receiver.lastNotificationAt = some lastAt ∧ alertedAt < lastAt := by
  unfold hasRecovered
  cases receiver.missingAlertedAt <;> cases receiver.lastNotificationAt <;>
    simp

theorem scheduleFromReceiver_isSome :
    (scheduleFromReceiver receiver).isSome = receiver.isWatched := by
  simp [scheduleFromReceiver, isWatched]

theorem verdict_of_hasRecovered
    (hwatched : receiver.isWatched = true)
    (hrecovered : receiver.hasRecovered = true) (now : Instant) :
    receiver.verdict library now = .recovered := by
  unfold verdict
  rw [← scheduleFromReceiver_isSome] at hwatched
  obtain ⟨schedule, hschedule⟩ := Option.isSome_iff_exists.mp hwatched
  simp [hschedule, hrecovered]

theorem hasRecovered_of_verdict
    {now : Instant} (hverdict : receiver.verdict library now = .recovered) :
    receiver.hasRecovered = true := by
  unfold verdict at hverdict
  split at hverdict
  · contradiction
  · split at hverdict
    · next hrecovered => exact hrecovered
    · split at hverdict
      · contradiction
      · split at hverdict
        · contradiction
        · split at hverdict
          · contradiction
          · contradiction
          · split at hverdict <;> contradiction

/-- A MISSING notification finds the receiver armed and its wait over. -/
theorem verdict_eq_missing
    {now : Instant} {severity : Severity}
    (hverdict : receiver.verdict library now = .missing severity) :
    receiver.missingAlertedAt = none ∧
      ∃ schedule reference deadline,
        scheduleFromReceiver receiver = some schedule ∧
        referenceInstant receiver = some reference ∧
        alertDeadline library schedule reference = .ok deadline ∧
        deadline < now := by
  unfold verdict at hverdict
  split at hverdict
  · contradiction
  · next schedule hschedule =>
    split at hverdict
    · contradiction
    · split at hverdict
      · contradiction
      · next harmed =>
        split at hverdict
        · contradiction
        · next reference hreference =>
          split at hverdict
          · contradiction
          · contradiction
          · next deadline hdeadline =>
            split at hverdict
            · contradiction
            · next hlate =>
              exact ⟨by simpa using harmed, schedule, reference, deadline,
                hschedule, hreference, hdeadline, not_le.mp hlate⟩

/-- An armed receiver is reported once its wait is over. -/
theorem verdict_of_late
    {schedule : ExpectedSchedule} {reference deadline now : Instant}
    (harmed : receiver.missingAlertedAt = none)
    (hschedule : scheduleFromReceiver receiver = some schedule)
    (hreference : referenceInstant receiver = some reference)
    (hdeadline : alertDeadline library schedule reference = .ok deadline)
    (hlate : deadline < now) :
    receiver.verdict library now = .missing schedule.severity := by
  have hunrecovered : receiver.hasRecovered = false := by
    simp [hasRecovered, harmed]
  simp [verdict, hschedule, hunrecovered, harmed, hreference, hdeadline,
    not_le.mpr hlate]

/-- The policy of a stored row has no negative time in it. -/
theorem check_nonneg
    (hcheck : receiver.expected.check = true) {schedule : ExpectedSchedule}
    (hschedule : scheduleFromReceiver receiver = some schedule) :
    0 ≤ schedule.graceSeconds ∧
      ∀ everySeconds, schedule.everySeconds = some everySeconds →
        0 ≤ everySeconds := by
  unfold scheduleFromReceiver at hschedule
  obtain ⟨severity, hseverity, rfl⟩ := Option.map_eq_some_iff.mp hschedule
  have hon : receiver.expected.isOff = false := by
    simp [ExpectedFields.isOff, hseverity]
  simp only [ExpectedFields.check, hon, Bool.false_or, Bool.and_eq_true,
    Bool.or_eq_true] at hcheck
  obtain ⟨⟨⟨hmode, hgrace⟩, -⟩, -⟩ := hcheck
  constructor
  · cases hseconds : receiver.expected.graceSeconds with
    | none => simp
    | some graceSeconds => simpa [hseconds] using hgrace
  · intro everySeconds hevery
    have hevery : receiver.expected.everySeconds = some everySeconds := hevery
    simp only [hevery, Option.any_some, decide_eq_true_eq,
      Option.isNone_some, Bool.false_eq_true, false_and, or_false] at hmode
    exact hmode.1.le

theorem lastNotificationAt_le_reference
    {reference lastAt : Instant}
    (hreference : referenceInstant receiver = some reference)
    (hlast : receiver.lastNotificationAt = some lastAt) :
    lastAt ≤ reference := by
  unfold referenceInstant at hreference
  rw [hlast] at hreference
  cases hsince : receiver.expectedSince with
  | none =>
      rw [hsince] at hreference
      exact (Option.some.inj hreference).le
  | some expectedSince =>
      rw [hsince] at hreference
      exact (le_max_left _ _).trans (Option.some.inj hreference).le

/-! ## Effects -/

theorem missing_effect {severity : Severity} {now : Instant} :
    receiverEffect library receiver (.missing severity now) = some next ↔
      receiver.verdict library now = .missing severity ∧
        next = { receiver with missingAlertedAt := some now } := by
  simp [receiverEffect, eq_comm]

theorem recovered_effect {now : Instant} :
    receiverEffect library receiver (.recovered now) = some next ↔
      receiver.verdict library now = .recovered ∧
        next = { receiver with missingAlertedAt := none } := by
  simp [receiverEffect, eq_comm]

/-- An ingestion leaves the policy and the alert. -/
theorem beat_frame (phase : Option NotificationPhase) (receivedAt : Instant) :
    (receiver.beat phase receivedAt).missingAlertedAt =
        receiver.missingAlertedAt ∧
      (receiver.beat phase receivedAt).expected = receiver.expected := by
  cases phase with
  | none => exact ⟨rfl, rfl⟩
  | some phase => cases phase <;> exact ⟨rfl, rfl⟩

theorem patched_effect
    {patch : ReceiverPatch} {before after : Receiver}
    (heffect : receiverEffect library receiver (.patched patch before after) =
      some next) :
    ∃ final, patch.final library = .ok final ∧ before = receiver ∧
      after = patch.loaded.writeBack final receiver ∧
      after.check = true ∧ next = after := by
  simp only [receiverEffect] at heffect
  split at heffect
  · contradiction
  · next final hfinal =>
    split at heffect
    · next hguard =>
      exact ⟨final, hfinal, hguard.1, hguard.2.1, hguard.2.2,
        (Option.some.inj heffect).symm⟩
    · contradiction

/-- A PATCH leaves the stored alert or clears it. -/
theorem patched_missingAlertedAt
    {patch : ReceiverPatch} {before after : Receiver}
    (heffect : receiverEffect library receiver (.patched patch before after) =
      some next) :
    next.missingAlertedAt = receiver.missingAlertedAt ∨
      next.missingAlertedAt = none := by
  obtain ⟨final, hfinal, -, rfl, -, rfl⟩ := patched_effect heffect
  by_cases hsame : final.missingAlertedAt = patch.loaded.missingAlertedAt
  · exact Or.inl (writeBack_of_eq hsame _)
  · right
    refine (writeBack_of_ne hsame _).trans ?_
    rcases updateReceiver_missingAlertedAt hfinal with hkept | ⟨hnone, -⟩
    · exact absurd hkept hsame
    · exact hnone

/-! ## The heartbeat -/

/-- The heartbeat is the latest `received_at` of a real notification. -/
structure Heard (receiver : Receiver) (log : List ReceiverEvent) : Prop where
  real : ∀ lastAt, receiver.lastNotificationAt = some lastAt →
    ∃ event ∈ log, event.realAt = some lastAt
  latest : ∀ event ∈ log, ∀ receivedAt, event.realAt = some receivedAt →
    ∃ lastAt, receiver.lastNotificationAt = some lastAt ∧
      receivedAt ≤ lastAt

/-- Only a real notification moves the heartbeat. -/
theorem effect_lastNotificationAt
    {event : ReceiverEvent}
    (heffect : receiverEffect library receiver event = some next) :
    next.lastNotificationAt = receiver.lastNotificationAt ∧
        event.realAt = none ∨
      ∃ receivedAt, event.realAt = some receivedAt ∧
        next.lastNotificationAt =
          some (greatest receiver.lastNotificationAt receivedAt) := by
  cases event with
  | missing severity now =>
      obtain ⟨-, rfl⟩ := missing_effect.mp heffect
      exact Or.inl ⟨rfl, rfl⟩
  | recovered now =>
      obtain ⟨-, rfl⟩ := recovered_effect.mp heffect
      exact Or.inl ⟨rfl, rfl⟩
  | ingested phase receivedAt =>
      obtain rfl := Option.some.inj heffect
      cases phase with
      | none => exact Or.inr ⟨receivedAt, rfl, rfl⟩
      | some phase =>
          cases phase with
          | start => exact Or.inl ⟨rfl, rfl⟩
          | finish => exact Or.inr ⟨receivedAt, rfl, rfl⟩
  | patched patch before after =>
      obtain ⟨final, -, -, rfl, -, rfl⟩ := patched_effect heffect
      exact Or.inl ⟨rfl, rfl⟩

theorem greatest_eq (saved : Option Instant) (receivedAt : Instant) :
    greatest saved receivedAt = receivedAt ∨
      saved = some (greatest saved receivedAt) := by
  cases saved with
  | none => exact Or.inl rfl
  | some moment =>
      rcases max_choice moment receivedAt with hmoment | hreceived
      · exact Or.inr (congrArg some hmoment.symm)
      · exact Or.inl hreceived

theorem le_greatest (saved : Option Instant) (receivedAt : Instant) :
    receivedAt ≤ greatest saved receivedAt := by
  cases saved with
  | none => exact le_refl _
  | some moment => exact le_max_right _ _

theorem saved_le_greatest (moment receivedAt : Instant) :
    moment ≤ greatest (some moment) receivedAt :=
  le_max_left _ _

theorem Heard.of_created
    {body : ReceiverCreate} {created : Instant}
    (hcreate : createReceiver library body created = .ok receiver) :
    receiver.Heard [] := by
  refine ⟨fun lastAt hsome => ?_, by simp⟩
  rw [(createReceiver_eq_ok hcreate).2.2] at hsome
  contradiction

theorem Heard.effect
    {log : List ReceiverEvent} {event : ReceiverEvent}
    (hheard : receiver.Heard log)
    (heffect : receiverEffect library receiver event = some next) :
    next.Heard (event :: log) := by
  rcases effect_lastNotificationAt heffect with
    ⟨hsame, hunreal⟩ | ⟨receivedAt, hreal, hnext⟩
  · constructor
    · intro lastAt hlast
      rw [hsame] at hlast
      obtain ⟨old, hmem, hold⟩ := hheard.real lastAt hlast
      exact ⟨old, List.mem_cons_of_mem _ hmem, hold⟩
    · intro old hmem receivedAt hold
      rw [hsame]
      rcases List.mem_cons.mp hmem with rfl | hmem
      · rw [hunreal] at hold
        contradiction
      · exact hheard.latest old hmem receivedAt hold
  · constructor
    · intro lastAt hlast
      rw [hnext] at hlast
      obtain rfl := Option.some.inj hlast
      rcases greatest_eq receiver.lastNotificationAt receivedAt with
        hnew | hold
      · exact ⟨event, List.mem_cons_self, by rw [hnew]; exact hreal⟩
      · obtain ⟨old, hmem, holdAt⟩ := hheard.real _ hold
        exact ⟨old, List.mem_cons_of_mem _ hmem, holdAt⟩
    · intro old hmem oldAt hold
      refine ⟨_, hnext, ?_⟩
      rcases List.mem_cons.mp hmem with rfl | hmem
      · rw [hreal] at hold
        exact (Option.some.inj hold) ▸ le_greatest _ _
      · obtain ⟨lastAt, hlast, hle⟩ := hheard.latest old hmem oldAt hold
        rw [hlast]
        exact hle.trans (saved_le_greatest lastAt receivedAt)

/-! ## The alert -/

/-- The alert in the row is the one of the last synthetic notification, a
MISSING one. -/
def Alerted (receiver : Receiver) (log : List ReceiverEvent) : Prop :=
  ∀ alertedAt, receiver.missingAlertedAt = some alertedAt →
    ∃ since severity before,
      log = since ++ .missing severity alertedAt :: before ∧
        ∀ event ∈ since, event.isSynthetic = false

theorem Alerted.of_created
    {body : ReceiverCreate} {created : Instant}
    (hcreate : createReceiver library body created = .ok receiver) :
    receiver.Alerted [] := by
  intro alertedAt hsome
  rw [(createReceiver_eq_ok hcreate).2.1] at hsome
  contradiction

theorem Alerted.effect
    {log : List ReceiverEvent} {event : ReceiverEvent}
    (halerted : receiver.Alerted log)
    (heffect : receiverEffect library receiver event = some next) :
    next.Alerted (event :: log) := by
  have hkept : event.isSynthetic = false →
      (next.missingAlertedAt = receiver.missingAlertedAt ∨
        next.missingAlertedAt = none) → next.Alerted (event :: log) := by
    intro hreal hsame alertedAt hnext
    rcases hsame with hsame | hnone
    · rw [hsame] at hnext
      obtain ⟨since, severity, before, rfl, hsince⟩ :=
        halerted alertedAt hnext
      refine ⟨event :: since, severity, before, rfl, fun old hmem => ?_⟩
      rcases List.mem_cons.mp hmem with rfl | hmem
      · exact hreal
      · exact hsince old hmem
    · rw [hnone] at hnext
      contradiction
  cases event with
  | missing severity now =>
      obtain ⟨-, rfl⟩ := missing_effect.mp heffect
      intro alertedAt hnext
      obtain rfl := Option.some.inj hnext
      exact ⟨[], severity, log, rfl, by simp⟩
  | recovered now =>
      obtain ⟨-, rfl⟩ := recovered_effect.mp heffect
      intro alertedAt hnext
      contradiction
  | ingested phase receivedAt =>
      obtain rfl := Option.some.inj heffect
      exact hkept rfl (Or.inl (beat_frame phase receivedAt).1)
  | patched patch before after =>
      exact hkept rfl (patched_missingAlertedAt heffect)

/-! ## The policy -/

theorem expected_check_effect
    {event : ReceiverEvent} (hcheck : receiver.expected.check = true)
    (heffect : receiverEffect library receiver event = some next) :
    next.expected.check = true := by
  cases event with
  | missing severity now =>
      obtain ⟨-, rfl⟩ := missing_effect.mp heffect
      exact hcheck
  | recovered now =>
      obtain ⟨-, rfl⟩ := recovered_effect.mp heffect
      exact hcheck
  | ingested phase receivedAt =>
      obtain rfl := Option.some.inj heffect
      rw [(beat_frame phase receivedAt).2]
      exact hcheck
  | patched patch before after =>
      obtain ⟨final, -, -, -, hafter, rfl⟩ := patched_effect heffect
      exact (Bool.and_eq_true_iff.mp hafter).2

end Receiver

end NotifyHub
