import NotifyHub.ExpectedSchedule
import NotifyHub.RowTransactions
import Mathlib.Tactic

/-!
# The policy columns of a receiver

The columns of `receivers` which the surveillance reads and writes, their
CHECK constraints, and how POST and PATCH of a receiver compute them.
-/

namespace NotifyHub

/-- The five fields of `_apply_expected_policy`. -/
structure ExpectedFields where
  everySeconds : Option ℤ
  cron : Option Text
  timezone : Option Text
  graceSeconds : Option ℤ
  missingSeverity : Option Severity
  deriving DecidableEq, Repr

structure Receiver where
  status : ReceiverStatus
  durationThresholdSeconds : Option ℤ
  durationSeverity : Option Severity
  expected : ExpectedFields
  expectedSince : Option Instant
  lastNotificationAt : Option Instant
  lastStartAt : Option Instant
  missingAlertedAt : Option Instant
  deriving DecidableEq, Repr

/-- The surveillance of the receiver is on. -/
def Receiver.isWatched (receiver : Receiver) : Bool :=
  receiver.expected.missingSeverity.isSome

def scheduleFromReceiver (receiver : Receiver) : Option ExpectedSchedule :=
  receiver.expected.missingSeverity.map fun severity =>
    { graceSeconds := receiver.expected.graceSeconds.getD 0
      severity := severity
      everySeconds := receiver.expected.everySeconds
      cron := receiver.expected.cron
      timezone := receiver.expected.timezone }

def referenceInstant (receiver : Receiver) : Option Instant :=
  match receiver.lastNotificationAt, receiver.expectedSince with
  | some lastNotificationAt, some expectedSince =>
      some (max lastNotificationAt expectedSince)
  | some lastNotificationAt, none => some lastNotificationAt
  | none, expectedSince => expectedSince

/-! ## CHECK constraints -/

def ExpectedFields.isOff (fields : ExpectedFields) : Bool :=
  fields.everySeconds.isNone && fields.cron.isNone &&
    fields.graceSeconds.isNone && fields.missingSeverity.isNone &&
    fields.timezone.isNone

/-- `ck_receivers_expected_policy`. -/
def ExpectedFields.check (fields : ExpectedFields) : Bool :=
  fields.isOff ||
    (((fields.everySeconds.any (0 < ·) && fields.cron.isNone) ||
        (fields.everySeconds.isNone && fields.cron.isSome)) &&
      fields.graceSeconds.any (0 ≤ ·) && fields.missingSeverity.isSome &&
      (fields.timezone.isNone || fields.cron.isSome))

/-- `ck_receivers_duration_policy`. -/
def Receiver.durationCheck (receiver : Receiver) : Bool :=
  (receiver.durationThresholdSeconds.isNone &&
      receiver.durationSeverity.isNone) ||
    (receiver.durationThresholdSeconds.any (0 < ·) &&
      receiver.durationSeverity.isSome)

def Receiver.check (receiver : Receiver) : Bool :=
  receiver.durationCheck && receiver.expected.check

/-! ## Requests -/

/-- The fields of POST which reach the columns above, each `null` if not
sent. -/
structure ReceiverCreate where
  durationThresholdSeconds : Option (IntField 1)
  durationSeverity : Option Severity
  expectedEverySeconds : Option (IntField 1)
  expectedCron : Option (TextField 100)
  expectedTimezone : Option (TextField 64)
  expectedGraceSeconds : Option (IntField 0)
  missingSeverity : Option Severity

/-- The fields of PATCH which reach the columns above.  Outside `status`, a
field is absent or it is sent, `null` included. -/
structure ReceiverUpdate where
  status : Option ReceiverStatus
  durationThresholdSeconds : Option (Option (IntField 1))
  durationSeverity : Option (Option Severity)
  expectedEverySeconds : Option (Option (IntField 1))
  expectedCron : Option (Option (TextField 100))
  expectedTimezone : Option (Option (TextField 64))
  expectedGraceSeconds : Option (Option (IntField 0))
  missingSeverity : Option (Option Severity)
  deriving DecidableEq

/-- The value in the body, or the saved one if the field is absent. -/
def fieldOr {α : Type*} {p : α → Prop}
    (sent : Option (Option { value : α // p value })) (saved : Option α) :
    Option α :=
  match sent with
  | some value => value.map Subtype.val
  | none => saved

def durationPolicyHalfConfigured : Text :=
  "duration_threshold_seconds and duration_severity must be set together: ".toList
    ++ "a threshold without a severity has nothing to assign, a ".toList
    ++ "severity without a threshold never fires. Send both as null to ".toList
    ++ "disable the duration policy.".toList

def expectedPolicyHalfConfigured : Text :=
  "The expected-schedule policy needs exactly one of ".toList
    ++ "expected_every_seconds or expected_cron, plus ".toList
    ++ "expected_grace_seconds and missing_severity. Send all of ".toList
    ++ "them as null to disable the surveillance.".toList

def expectedPolicyBothModes : Text :=
  "expected_every_seconds and expected_cron are two ways to say the ".toList
    ++ "same thing: set one or the other, not both.".toList

def expectedTimezoneWithoutCron : Text :=
  "expected_timezone only means something together with ".toList
    ++ "expected_cron: an interval has no wall-clock time to place in a ".toList
    ++ "zone.".toList

/-- `_validate_expected_fields`; the error is the text of the `ValueError`. -/
def validateExpectedFields
    (library : ScheduleLibrary) (fields : ExpectedFields) (now : Instant) :
    Except Text Unit :=
  if fields.isOff then .ok ()
  else if fields.everySeconds.isSome && fields.cron.isSome then
    .error expectedPolicyBothModes
  else if (fields.everySeconds.isNone && fields.cron.isNone) ||
      fields.graceSeconds.isNone || fields.missingSeverity.isNone then
    .error expectedPolicyHalfConfigured
  else if fields.timezone.isSome && fields.cron.isNone then
    .error expectedTimezoneWithoutCron
  else do
    if let some cron := fields.cron then
      discard (validateCron library cron now)
    if let some timezone := fields.timezone then
      discard (validateTimezone library timezone)

/-- The validators of the schema and the row of `create_receiver`. -/
def createReceiver
    (library : ScheduleLibrary) (body : ReceiverCreate) (now : Instant) :
    Except Text Receiver :=
  let expected : ExpectedFields :=
    { everySeconds := body.expectedEverySeconds.map Subtype.val
      cron := body.expectedCron.map Subtype.val
      timezone := body.expectedTimezone.map Subtype.val
      graceSeconds := body.expectedGraceSeconds.map Subtype.val
      missingSeverity := body.missingSeverity }
  if body.durationThresholdSeconds.isNone ≠ body.durationSeverity.isNone then
    .error durationPolicyHalfConfigured
  else do
    validateExpectedFields library expected now
    .ok
      { status := .active
        durationThresholdSeconds :=
          body.durationThresholdSeconds.map Subtype.val
        durationSeverity := body.durationSeverity
        expected := expected
        expectedSince := if body.missingSeverity.isSome then some now else none
        lastNotificationAt := none
        lastStartAt := none
        missingAlertedAt := none }

def ReceiverUpdate.touchesExpected (body : ReceiverUpdate) : Bool :=
  body.expectedEverySeconds.isSome || body.expectedCron.isSome ||
    body.expectedTimezone.isSome || body.expectedGraceSeconds.isSome ||
    body.missingSeverity.isSome

/-- The policy which the row would be left with. -/
def ReceiverUpdate.finalExpected
    (body : ReceiverUpdate) (saved : ExpectedFields) : ExpectedFields :=
  { everySeconds := fieldOr body.expectedEverySeconds saved.everySeconds
    cron := fieldOr body.expectedCron saved.cron
    timezone := fieldOr body.expectedTimezone saved.timezone
    graceSeconds := fieldOr body.expectedGraceSeconds saved.graceSeconds
    missingSeverity := body.missingSeverity.getD saved.missingSeverity }

def applyExpectedPolicy
    (library : ScheduleLibrary) (receiver : Receiver)
    (body : ReceiverUpdate) (now : Instant) : Except Problem Receiver :=
  if body.touchesExpected then
    let final := body.finalExpected receiver.expected
    match validateExpectedFields library final now with
    | .error detail => .error (validationError detail)
    | .ok () =>
        if final.missingSeverity.isNone then
          .ok { receiver with
            expected := final
            expectedSince := none
            missingAlertedAt := none }
        else if receiver.isWatched = false then
          .ok { receiver with
            expected := final
            expectedSince := some now
            missingAlertedAt := none }
        else .ok { receiver with expected := final }
  else .ok receiver

/-- What `update_receiver` makes of the row it has loaded. -/
def updateReceiver
    (library : ScheduleLibrary) (receiver : Receiver)
    (body : ReceiverUpdate) (now : Instant) : Except Problem Receiver :=
  let threshold := fieldOr body.durationThresholdSeconds
    receiver.durationThresholdSeconds
  let severity := body.durationSeverity.getD receiver.durationSeverity
  if threshold.isNone ≠ severity.isNone then
    .error (validationError durationPolicyHalfConfigured)
  else do
    let changed ← applyExpectedPolicy library
      { receiver with
        status := body.status.getD receiver.status
        durationThresholdSeconds := threshold
        durationSeverity := severity } body now
    .ok
      (if receiver.status = .disabled ∧ changed.status = .active ∧
          changed.isWatched = true then
        { changed with expectedSince := some now, missingAlertedAt := none }
      else changed)

/-! ## The UPDATE of a PATCH -/

def ExpectedFields.writeBack
    (loaded final stored : ExpectedFields) : ExpectedFields :=
  { everySeconds := NotifyHub.writeBack loaded.everySeconds
      final.everySeconds stored.everySeconds
    cron := NotifyHub.writeBack loaded.cron final.cron stored.cron
    timezone := NotifyHub.writeBack loaded.timezone final.timezone
      stored.timezone
    graceSeconds := NotifyHub.writeBack loaded.graceSeconds
      final.graceSeconds stored.graceSeconds
    missingSeverity := NotifyHub.writeBack loaded.missingSeverity
      final.missingSeverity stored.missingSeverity }

/-- The stored row after the UPDATE; a PATCH assigns neither
`last_notification_at` nor `last_start_at`. -/
def Receiver.writeBack (loaded final stored : Receiver) : Receiver :=
  { stored with
    status := NotifyHub.writeBack loaded.status final.status stored.status
    durationThresholdSeconds := NotifyHub.writeBack
      loaded.durationThresholdSeconds final.durationThresholdSeconds
      stored.durationThresholdSeconds
    durationSeverity := NotifyHub.writeBack loaded.durationSeverity
      final.durationSeverity stored.durationSeverity
    expected := loaded.expected.writeBack final.expected stored.expected
    expectedSince := NotifyHub.writeBack loaded.expectedSince
      final.expectedSince stored.expectedSince
    missingAlertedAt := NotifyHub.writeBack loaded.missingAlertedAt
      final.missingAlertedAt stored.missingAlertedAt }

@[simp] theorem Receiver.writeBack_lastNotificationAt
    (loaded final stored : Receiver) :
    (loaded.writeBack final stored).lastNotificationAt =
      stored.lastNotificationAt := rfl

/-! ## What the requests compute -/

theorem check_of_validateExpectedFields
    {library : ScheduleLibrary} {fields : ExpectedFields} {now : Instant}
    (hvalid : validateExpectedFields library fields now = .ok ())
    (hevery : ∀ everySeconds, fields.everySeconds = some everySeconds →
      0 < everySeconds)
    (hgrace : ∀ graceSeconds, fields.graceSeconds = some graceSeconds →
      0 ≤ graceSeconds) :
    fields.check = true := by
  unfold validateExpectedFields at hvalid
  by_cases hoff : fields.isOff = true
  · simp [ExpectedFields.check, hoff]
  · simp only [hoff, Bool.false_eq_true, if_false] at hvalid
    split at hvalid
    · contradiction
    · next hmodes =>
        split at hvalid
        · contradiction
        · next hcomplete =>
            split at hvalid
            · contradiction
            · next hzone =>
                unfold ExpectedFields.check
                cases hfields : fields.everySeconds <;>
                  cases hcron : fields.cron <;>
                  cases hseconds : fields.graceSeconds <;>
                  cases hseverity : fields.missingSeverity <;>
                  cases htimezone : fields.timezone <;>
                  simp_all

theorem createReceiver_eq_ok
    {library : ScheduleLibrary} {body : ReceiverCreate} {now : Instant}
    {receiver : Receiver}
    (hcreate : createReceiver library body now = .ok receiver) :
    receiver.expected.check = true ∧ receiver.missingAlertedAt = none ∧
      receiver.lastNotificationAt = none := by
  unfold createReceiver at hcreate
  simp only at hcreate
  split at hcreate
  · contradiction
  · obtain ⟨⟨⟩, hvalid, hreceiver⟩ := Except.bind_eq_ok.mp hcreate
    rw [← Except.ok.inj hreceiver]
    refine ⟨check_of_validateExpectedFields hvalid ?_ ?_, rfl, rfl⟩
    · intro everySeconds hevery
      obtain ⟨value, -, rfl⟩ := Option.map_eq_some_iff.mp hevery
      exact value.2.1
    · intro graceSeconds hgrace
      obtain ⟨value, -, rfl⟩ := Option.map_eq_some_iff.mp hgrace
      exact value.2.1

theorem applyExpectedPolicy_eq_ok
    {library : ScheduleLibrary} {receiver final : Receiver}
    {body : ReceiverUpdate} {now : Instant}
    (happly : applyExpectedPolicy library receiver body now = .ok final) :
    final.status = receiver.status ∧
      (final.missingAlertedAt = receiver.missingAlertedAt ∨
        final.missingAlertedAt = none ∧ body.touchesExpected = true ∧
          (final.isWatched = false ∨
            receiver.isWatched = false ∧ final.isWatched = true)) := by
  unfold applyExpectedPolicy at happly
  split at happly
  · rename_i htouches
    simp only at happly
    split at happly
    · contradiction
    · split at happly
      · next hoff =>
          rw [← Except.ok.inj happly]
          exact ⟨rfl, Or.inr ⟨rfl, htouches,
            Or.inl (by simpa [Receiver.isWatched] using hoff)⟩⟩
      · next hon =>
          split at happly
          · next hunwatched =>
              rw [← Except.ok.inj happly]
              refine ⟨rfl, Or.inr ⟨rfl, htouches, Or.inr ⟨hunwatched, ?_⟩⟩⟩
              simpa [Receiver.isWatched, Option.isSome_iff_ne_none] using hon
          · rw [← Except.ok.inj happly]
            exact ⟨rfl, Or.inl rfl⟩
  · rw [← Except.ok.inj happly]
    exact ⟨rfl, Or.inl rfl⟩

/-- What a PATCH does to the alert: it keeps it, or it touches the policy and
leaves the surveillance off or switches it on, or it re-activates the
receiver. -/
theorem updateReceiver_missingAlertedAt
    {library : ScheduleLibrary} {loaded final : Receiver}
    {body : ReceiverUpdate} {now : Instant}
    (hupdate : updateReceiver library loaded body now = .ok final) :
    final.missingAlertedAt = loaded.missingAlertedAt ∨
      final.missingAlertedAt = none ∧
        (body.touchesExpected = true ∧ final.isWatched = false ∨
          loaded.isWatched = false ∧ final.isWatched = true ∨
          loaded.status = .disabled ∧ final.status = .active) := by
  unfold updateReceiver at hupdate
  simp only at hupdate
  split at hupdate
  · contradiction
  · obtain ⟨changed, happly, hfinal⟩ := Except.bind_eq_ok.mp hupdate
    obtain ⟨hstatus, halerted⟩ := applyExpectedPolicy_eq_ok happly
    rw [← Except.ok.inj hfinal]
    by_cases hreactivated : loaded.status = .disabled ∧
        changed.status = .active ∧ changed.isWatched = true
    · rw [if_pos hreactivated]
      exact Or.inr ⟨rfl, Or.inr (Or.inr ⟨hreactivated.1, hreactivated.2.1⟩)⟩
    · rw [if_neg hreactivated]
      rcases halerted with hkept | ⟨hcleared, htouches, hoff | hon⟩
      · exact Or.inl hkept
      · exact Or.inr ⟨hcleared, Or.inl ⟨htouches, hoff⟩⟩
      · exact Or.inr ⟨hcleared, Or.inr (Or.inl hon)⟩

end NotifyHub
