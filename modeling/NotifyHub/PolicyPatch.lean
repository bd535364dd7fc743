import NotifyHub.BodyLimits
import NotifyHub.DashboardTables
import NotifyHub.IngestInputs
import Mathlib.Tactic

/-!
# PATCH of a receiver

`update_receiver` with all its fields, in one transaction which no other one
disturbs.  The check of the API and the constraints of the table are written
separately; no row which the request flushes breaks a constraint.
-/

namespace NotifyHub

/-! ## What the policies of a PATCH compute -/

section Policies

variable {library : ScheduleLibrary} {receiver final : Receiver}
  {body : ReceiverUpdate} {now : Instant} {problem : Problem}

/-- A field is the value of the body or the saved one. -/
theorem fieldOr_cases
    {α : Type} {p : α → Prop} {sent : Option (Option { value : α // p value })}
    {saved : Option α} {value : α} (hfield : fieldOr sent saved = some value) :
    p value ∨ saved = some value := by
  cases sent with
  | none => exact Or.inr hfield
  | some sent =>
      obtain ⟨field, -, rfl⟩ := Option.map_eq_some_iff.mp hfield
      exact Or.inl field.2

theorem ExpectedFields.everySeconds_pos
    {fields : ExpectedFields} (hcheck : fields.check = true) {everySeconds : ℤ}
    (hevery : fields.everySeconds = some everySeconds) : 0 < everySeconds := by
  have hon : fields.everySeconds.isNone = false := by
    rw [hevery]
    rfl
  have hany : fields.everySeconds.any (0 < ·) = true := by
    simp only [check, isOff, hon, Bool.false_and, Bool.false_or, Bool.or_false,
      Bool.and_eq_true] at hcheck
    exact hcheck.1.1.1.1
  rw [hevery] at hany
  simpa using hany

theorem ExpectedFields.graceSeconds_nonneg
    {fields : ExpectedFields} (hcheck : fields.check = true) {graceSeconds : ℤ}
    (hgrace : fields.graceSeconds = some graceSeconds) : 0 ≤ graceSeconds := by
  have hon : fields.graceSeconds.isNone = false := by
    rw [hgrace]
    rfl
  have hany : fields.graceSeconds.any (0 ≤ ·) = true := by
    simp only [check, isOff, hon, Bool.and_false, Bool.false_and,
      Bool.false_or, Bool.and_eq_true] at hcheck
    exact hcheck.1.1.2
  rw [hgrace] at hany
  simpa using hany

theorem applyExpectedPolicy_check
    (hcheck : receiver.expected.check = true)
    (happly : applyExpectedPolicy library receiver body now = .ok final) :
    final.expected.check = true ∧
      final.durationThresholdSeconds = receiver.durationThresholdSeconds ∧
      final.durationSeverity = receiver.durationSeverity := by
  unfold applyExpectedPolicy at happly
  split at happly
  · simp only at happly
    split at happly
    · contradiction
    · next hvalid =>
        have hfinal : (body.finalExpected receiver.expected).check = true := by
          apply check_of_validateExpectedFields hvalid
          · intro everySeconds hevery
            rcases fieldOr_cases hevery with hsent | hsaved
            · exact hsent.1
            · exact ExpectedFields.everySeconds_pos hcheck hsaved
          · intro graceSeconds hgrace
            rcases fieldOr_cases hgrace with hsent | hsaved
            · exact hsent.1
            · exact ExpectedFields.graceSeconds_nonneg hcheck hsaved
        split at happly
        · obtain rfl := Except.ok.inj happly
          exact ⟨hfinal, rfl, rfl⟩
        · split at happly
          · obtain rfl := Except.ok.inj happly
            exact ⟨hfinal, rfl, rfl⟩
          · obtain rfl := Except.ok.inj happly
            exact ⟨hfinal, rfl, rfl⟩
  · obtain rfl := Except.ok.inj happly
    exact ⟨hcheck, rfl, rfl⟩

theorem applyExpectedPolicy_error
    (happly : applyExpectedPolicy library receiver body now = .error problem) :
    problem.status = 422 := by
  unfold applyExpectedPolicy at happly
  split at happly
  · simp only at happly
    split at happly
    · obtain rfl := Except.error.inj happly
      rfl
    · split at happly
      · contradiction
      · split at happly
        · contradiction
        · contradiction
  · contradiction

/-- Both halves of the duration policy of a PATCH. -/
theorem durationCheck_of_fields
    (hcheck : receiver.durationCheck = true)
    (hpair : (fieldOr body.durationThresholdSeconds
        receiver.durationThresholdSeconds).isNone =
      (body.durationSeverity.getD receiver.durationSeverity).isNone)
    (hthreshold : final.durationThresholdSeconds =
      fieldOr body.durationThresholdSeconds receiver.durationThresholdSeconds)
    (hseverity : final.durationSeverity =
      body.durationSeverity.getD receiver.durationSeverity) :
    final.durationCheck = true := by
  rw [← hthreshold, ← hseverity] at hpair
  rw [Receiver.durationCheck]
  cases hfinal : final.durationThresholdSeconds with
  | none =>
      rw [hfinal] at hpair
      simp [← hpair]
  | some threshold =>
      have hpositive : 0 < threshold := by
        rcases fieldOr_cases (hthreshold.symm.trans hfinal) with hsent | hsaved
        · exact hsent.1
        · rw [Receiver.durationCheck, hsaved] at hcheck
          have hboth : 0 < threshold ∧ receiver.durationSeverity.isSome = true := by
            simpa using hcheck
          exact hboth.1
      rw [hfinal] at hpair
      have hsome : final.durationSeverity.isSome = true := by
        rw [← Option.not_isNone, ← hpair]
        rfl
      simp [hpositive, hsome]

theorem updateReceiver_check
    (hcheck : receiver.check = true)
    (hupdate : updateReceiver library receiver body now = .ok final) :
    final.check = true := by
  obtain ⟨hduration, hexpected⟩ := Bool.and_eq_true_iff.mp hcheck
  unfold updateReceiver at hupdate
  simp only at hupdate
  split at hupdate
  · contradiction
  · next hpair =>
      obtain ⟨changed, happly, hfinal⟩ := Except.bind_eq_ok.mp hupdate
      obtain ⟨hchanged, hthreshold, hseverity⟩ :=
        applyExpectedPolicy_check (by exact hexpected) happly
      have hdurationChanged : changed.durationCheck = true :=
        durationCheck_of_fields hduration (not_not.mp hpair) hthreshold
          hseverity
      have hchecked : changed.check = true :=
        Bool.and_eq_true_iff.mpr ⟨hdurationChanged, hchanged⟩
      obtain rfl := Except.ok.inj hfinal
      split
      · exact hchecked
      · exact hchecked

theorem updateReceiver_error
    (hupdate : updateReceiver library receiver body now = .error problem) :
    problem.status = 422 := by
  unfold updateReceiver at hupdate
  simp only at hupdate
  split at hupdate
  · obtain rfl := Except.error.inj hupdate
    rfl
  · cases happly : applyExpectedPolicy library
        { receiver with
          status := body.status.getD receiver.status
          durationThresholdSeconds := fieldOr body.durationThresholdSeconds
            receiver.durationThresholdSeconds
          durationSeverity :=
            body.durationSeverity.getD receiver.durationSeverity } body now with
    | error refused =>
        rw [happly] at hupdate
        obtain rfl : refused = problem := Except.error.inj hupdate
        exact applyExpectedPolicy_error happly
    | ok changed =>
        rw [happly] at hupdate
        cases hupdate

end Policies

/-! ## The request -/

namespace Dashboard

/-- The fields of `ReceiverUpdate`, those of the policies together; `null` says
something of `exit_code_severity` only. -/
structure ReceiverPatch where
  name : Option { name : Text // 1 ≤ name.length ∧ name.length ≤ 255 }
  maxBodyBytes : Option (IntField 1)
  rateLimitPerMin : Option (IntField 0)
  defaultSeverity : Option Severity
  exitCodeSeverity : Option (Option Severity)
  policy : ReceiverUpdate

/-- Why the database refuses an UPDATE. -/
inductive UpdateRefusal
  | checkViolation
  | untranslatableCharacter
  deriving DecidableEq

/-- What a request ends with which does not commit. -/
inductive PatchFailure
  | problem (problem : Problem)
  | database (refusal : UpdateRefusal)
  deriving DecidableEq

variable {Id : Type}

/-- `session.flush`: the changed columns of a row in one UPDATE. -/
def flush (stored row : Receiver Id) : Except PatchFailure Unit :=
  if row.name ≠ stored.name ∧ Ingestion.nul ∈ row.name then
    .error (.database .untranslatableCharacter)
  else if row.policy.check then .ok ()
  else .error (.database .checkViolation)

/-- The name and the state, which are assigned before anything is checked. -/
def ReceiverPatch.rename (body : ReceiverPatch) (row : Receiver Id) :
    Receiver Id :=
  { row with
    name := (body.name.map Subtype.val).getD row.name
    policy :=
      { row.policy with
        status := body.policy.status.getD row.policy.status } }

/-- `max_body_bytes`; the query for the limit of the tenant flushes first. -/
def ReceiverPatch.limit
    (body : ReceiverPatch) (tenantLimit : ℤ) (stored row : Receiver Id) :
    Except PatchFailure (Receiver Id) :=
  match body.maxBodyBytes with
  | none => .ok row
  | some requested => do
      flush stored row
      match validateMaxBodyBytes tenantLimit (some requested.val) with
      | .error problem => .error (.problem problem)
      | .ok maxBodyBytes => .ok { row with maxBodyBytes := maxBodyBytes }

/-- The columns which are assigned after that. -/
def ReceiverPatch.assign (body : ReceiverPatch) (policy : NotifyHub.Receiver)
    (row : Receiver Id) : Receiver Id :=
  { row with
    rateLimitPerMin :=
      (body.rateLimitPerMin.map Subtype.val).getD row.rateLimitPerMin
    defaultSeverity := body.defaultSeverity.getD row.defaultSeverity
    exitCodeSeverity := body.exitCodeSeverity.getD row.exitCodeSeverity
    policy := policy }

/-- `update_receiver` after the checks of access, up to its last flush. -/
def updateReceiver
    (library : ScheduleLibrary) (tenantLimit : ℤ) (stored : Receiver Id)
    (body : ReceiverPatch) (now : Instant) :
    Except PatchFailure (Receiver Id) := do
  let limited ← body.limit tenantLimit stored (body.rename stored)
  match NotifyHub.updateReceiver library stored.policy body.policy now with
  | .error problem => .error (.problem problem)
  | .ok policy => do
      flush stored (body.assign policy limited)
      return body.assign policy limited

/-- The stored row after a request, which is rolled back when it fails. -/
def patchReceiver
    (library : ScheduleLibrary) (tenantLimit : ℤ) (stored : Receiver Id)
    (body : ReceiverPatch) (now : Instant) :
    Receiver Id × Except PatchFailure (Receiver Id) :=
  match updateReceiver library tenantLimit stored body now with
  | .ok row => (row, .ok row)
  | .error failure => (stored, .error failure)

section Requests

variable {library : ScheduleLibrary} {tenantLimit : ℤ}
  {stored row : Receiver Id} {body : ReceiverPatch} {now : Instant}
  {failure : PatchFailure}

/-- How a request may fail. -/
def ReceiverPatch.MayFail (body : ReceiverPatch) (tenantLimit : ℤ) :
    PatchFailure → Prop
  | .problem problem => problem.status = 422 ∨
      problem.status = 409 ∧
        ∃ requested ∈ body.maxBodyBytes, tenantLimit < requested.val
  | .database refusal => refusal = .untranslatableCharacter ∧
      ∃ name ∈ body.name, Ingestion.nul ∈ name.val

/-- A flush of a row whose policies are checked only fails for the name. -/
theorem flush_error
    (hflush : flush stored row = .error failure)
    (hcheck : row.policy.check = true)
    (hname : row.name = (body.name.map Subtype.val).getD stored.name) :
    body.MayFail tenantLimit failure := by
  rw [flush] at hflush
  split at hflush
  · next hnul =>
      obtain rfl := Except.error.inj hflush
      refine ⟨rfl, ?_⟩
      cases hsent : body.name with
      | none =>
          rw [hsent] at hname
          exact absurd hname hnul.1
      | some name =>
          rw [hsent] at hname
          have hvalue : row.name = name.val := hname
          exact ⟨name, rfl, hvalue ▸ hnul.2⟩
  · cases hflush

theorem ReceiverPatch.rename_check (hcheck : stored.policy.check = true) :
    (body.rename stored).policy.check = true :=
  hcheck

theorem ReceiverPatch.limit_name
    (hlimit : body.limit tenantLimit stored (body.rename stored) = .ok row) :
    row.name = (body.name.map Subtype.val).getD stored.name := by
  unfold ReceiverPatch.limit at hlimit
  split at hlimit
  · obtain rfl := Except.ok.inj hlimit
    rfl
  · obtain ⟨_, -, hvalid⟩ := Except.bind_eq_ok.mp hlimit
    split at hvalid
    · contradiction
    · obtain rfl := Except.ok.inj hvalid
      rfl

theorem ReceiverPatch.limit_error
    (hcheck : stored.policy.check = true)
    (hlimit : body.limit tenantLimit stored (body.rename stored) =
      .error failure) :
    body.MayFail tenantLimit failure := by
  unfold ReceiverPatch.limit at hlimit
  split at hlimit
  · contradiction
  · next requested hrequested =>
      cases hflush : flush stored (body.rename stored) with
      | error refused =>
          rw [hflush] at hlimit
          obtain rfl : refused = failure := Except.error.inj hlimit
          exact flush_error hflush (rename_check hcheck) rfl
      | ok _ =>
          rw [hflush] at hlimit
          change (match validateMaxBodyBytes tenantLimit (some requested.val)
            with
            | .error problem => _
            | .ok maxBodyBytes => _) = _ at hlimit
          by_cases hover : tenantLimit < requested.val
          · rw [validateMaxBodyBytes, if_pos hover] at hlimit
            obtain rfl := Except.error.inj hlimit
            exact Or.inr ⟨rfl, requested, hrequested, hover⟩
          · rw [validateMaxBodyBytes, if_neg hover] at hlimit
            cases hlimit

theorem updateReceiver_ok
    (hcheck : stored.policy.check = true)
    (hupdate : updateReceiver library tenantLimit stored body now = .ok row) :
    row.policy.check = true := by
  unfold updateReceiver at hupdate
  obtain ⟨limited, -, hpolicy⟩ := Except.bind_eq_ok.mp hupdate
  split at hpolicy
  · contradiction
  · next policy hpatched =>
      obtain ⟨_, -, hrow⟩ := Except.bind_eq_ok.mp hpolicy
      obtain rfl := Except.ok.inj hrow
      exact updateReceiver_check hcheck hpatched

theorem updateReceiver_failure
    (hcheck : stored.policy.check = true)
    (hupdate : updateReceiver library tenantLimit stored body now =
      .error failure) :
    body.MayFail tenantLimit failure := by
  unfold updateReceiver at hupdate
  cases hlimit : body.limit tenantLimit stored (body.rename stored) with
  | error refused =>
      rw [hlimit] at hupdate
      obtain rfl : refused = failure := Except.error.inj hupdate
      exact ReceiverPatch.limit_error hcheck hlimit
  | ok limited =>
      rw [hlimit] at hupdate
      have hname := ReceiverPatch.limit_name hlimit
      cases hpatched :
          NotifyHub.updateReceiver library stored.policy body.policy now with
      | error problem =>
          simp only [hpatched] at hupdate
          obtain rfl : PatchFailure.problem problem = failure :=
            Except.error.inj hupdate
          exact Or.inl (updateReceiver_error hpatched)
      | ok policy =>
          have hpolicy := updateReceiver_check hcheck hpatched
          simp only [hpatched] at hupdate
          change (flush stored (body.assign policy limited) >>= fun _ =>
            Except.ok (body.assign policy limited)) = .error failure at hupdate
          cases hflush : flush stored (body.assign policy limited) with
          | error refused =>
              rw [hflush] at hupdate
              obtain rfl : refused = failure := Except.error.inj hupdate
              exact flush_error hflush hpolicy hname
          | ok _ =>
              rw [hflush] at hupdate
              cases hupdate

end Requests

/-- A PATCH is refused and leaves the row as it was, or it leaves a row which
satisfies the constraints; only a name can be refused by the database. -/
theorem policy_patched
    (library : ScheduleLibrary) (tenantLimit : ℤ) {stored : Receiver Id}
    (body : ReceiverPatch) (now : Instant)
    (hcheck : stored.policy.check = true) :
    let (row, answer) := patchReceiver library tenantLimit stored body now
    (answer = .ok row ∧ row.policy.expected.check = true ∧
      row.policy.durationCheck = true) ∨
    (∃ problem, answer = .error (.problem problem) ∧ row = stored ∧
      (problem.status = 422 ∨
        problem.status = 409 ∧
          ∃ requested ∈ body.maxBodyBytes, tenantLimit < requested.val)) ∨
    (answer = .error (.database .untranslatableCharacter) ∧ row = stored ∧
      ∃ name ∈ body.name, Ingestion.nul ∈ name.val) := by
  cases hupdate : updateReceiver library tenantLimit stored body now with
  | ok row =>
      have hpatch : patchReceiver library tenantLimit stored body now =
          (row, .ok row) := by
        rw [patchReceiver, hupdate]
      have hrow := Bool.and_eq_true_iff.mp (updateReceiver_ok hcheck hupdate)
      rw [hpatch]
      exact Or.inl ⟨rfl, hrow.2, hrow.1⟩
  | error failure =>
      have hpatch : patchReceiver library tenantLimit stored body now =
          (stored, .error failure) := by
        rw [patchReceiver, hupdate]
      have hfails := updateReceiver_failure hcheck hupdate
      rw [hpatch]
      right
      cases failure with
      | problem problem => exact Or.inl ⟨problem, rfl, rfl, hfails⟩
      | database refusal =>
          obtain ⟨rfl, hname⟩ := hfails
          exact Or.inr ⟨rfl, rfl, hname⟩

/-- A receiver without policies. -/
def unwatchedReceiver : Receiver ℕ where
  tenantId := 1
  groupId := 2
  slug := "jobs-backup".toList
  name := "backup".toList
  ingestionModule := "http_raw".toList
  defaultSeverity := .info
  exitCodeSeverity := none
  maxBodyBytes := 1000
  rateLimitPerMin := 60
  policy :=
    { status := .active
      durationThresholdSeconds := none
      durationSeverity := none
      expected := ⟨none, none, none, none, none⟩
      expectedSince := none
      lastNotificationAt := none
      lastStartAt := none
      missingAlertedAt := none }

/-- A PATCH of an interval and of the limit for bodies. -/
def partialPatch (everySeconds : Option (Option (IntField 1)))
    (maxBodyBytes : Option (IntField 1)) : ReceiverPatch where
  name := none
  maxBodyBytes := maxBodyBytes
  rateLimitPerMin := none
  defaultSeverity := none
  exitCodeSeverity := none
  policy := ⟨none, none, none, everySeconds, none, none, none, none⟩

def laterLibrary : ScheduleLibrary where
  cronIsValid _ := true
  getNext _ _ moment := .ok (moment + timedeltaMinutes 1)
  zoneExists _ := true
  reprText name := name

/-- Half of a policy is refused and does not reach the database. -/
theorem policy_patched_half :
    let patched := patchReceiver laterLibrary 1000 unwatchedReceiver
      (partialPatch (some (some ⟨3600, by decide⟩)) none) 0
    patched.2 = .error (.problem
        (validationError expectedPolicyHalfConfigured)) ∧
      patched.1 = unwatchedReceiver := by
  intro patched
  have hanswer : patched.2 = .error (.problem
      (validationError expectedPolicyHalfConfigured)) := rfl
  refine ⟨hanswer, ?_⟩
  rcases policy_patched laterLibrary 1000
      (partialPatch (some (some ⟨3600, by decide⟩)) none) 0
      (show unwatchedReceiver.policy.check = true by decide) with
    ⟨hok, -⟩ | ⟨_, -, hrow, -⟩ | ⟨hname, -⟩
  · cases hanswer.symm.trans hok
  · exact hrow
  · cases hanswer.symm.trans hname

/-- A limit above that of the tenant is answered with 409. -/
theorem policy_patched_conflict :
    ¬∀ (library : ScheduleLibrary) (tenantLimit : ℤ) (stored : Receiver ℕ)
      (body : ReceiverPatch) (now : Instant), stored.policy.check = true →
      let (row, answer) := patchReceiver library tenantLimit stored body now
      (answer = .ok row ∧ row.policy.expected.check = true ∧
        row.policy.durationCheck = true) ∨
      ∃ problem, answer = .error (.problem problem) ∧ row = stored ∧
        problem.status = 422 := by
  intro hclaim
  have hanswer : (patchReceiver laterLibrary 1000 unwatchedReceiver
      (partialPatch none (some ⟨1001, by decide⟩)) 0).2 =
        .error (.problem (exceedsTenantCap 1000)) := rfl
  rcases hclaim laterLibrary 1000 unwatchedReceiver
      (partialPatch none (some ⟨1001, by decide⟩)) 0 (by decide) with
    ⟨hok, -⟩ | ⟨problem, hproblem, -, hstatus⟩
  · cases hanswer.symm.trans hok
  · have hsame := Except.error.inj (hanswer.symm.trans hproblem)
    rw [← PatchFailure.problem.inj hsame] at hstatus
    cases hstatus

end Dashboard

end NotifyHub
