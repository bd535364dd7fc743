import NotifyHub.DeliveryAttempts
import NotifyHub.ExpectedSchedule
import NotifyHub.IngestInputs
import Mathlib.Tactic

/-!
# The back-off of a delivery

`parse_retry_after` with the exceptions of the two readings of a header, and
what phase 3 writes after a retryable outcome: one attempt more, and a next
attempt between one second and thirty days away.
-/

namespace NotifyHub

/-! ## The header -/

inductive PyError
  | typeError
  | valueError
  | overflowError
  | other
  deriving DecidableEq

/-- A `datetime` without or with an offset from UTC. -/
inductive PyDatetime
  | naive (local_ : Datetime)
  | aware (local_ : Datetime) (offset : Duration)
  deriving DecidableEq

/-- What the parsing of a header takes from the library: `int`, with no value
for a `ValueError`, and `parsedate_to_datetime`. -/
structure HeaderLibrary where
  int : Text → Option ℤ
  parsedate : Text → Except PyError PyDatetime

/-- The documented exceptions of `parsedate_to_datetime`. -/
def HeaderLibrary.Documented (library : HeaderLibrary) : Prop :=
  ∀ text, library.parsedate text ≠ .error .other

/-- A naive date is taken as UTC. -/
def PyDatetime.instant : PyDatetime → Instant
  | .naive moment => moment.val
  | .aware moment offset => moment.val - offset

/-- `int((target - reference).total_seconds())` between the bounds. -/
def secondsUntil (target : PyDatetime) (reference : Instant) : ℤ :=
  clampRetryAfter ((target.instant - reference).tdiv microsecondsPerSecond)

/-- `except (TypeError, ValueError, OverflowError)`. -/
def catchMalformed (seconds : Except PyError ℤ) : Except PyError ℤ :=
  match seconds with
  | .ok seconds => .ok seconds
  | .error .other => .error .other
  | .error _ => .ok 60

/-- `parse_retry_after`. -/
def parseRetryAfterHeader
    (library : HeaderLibrary) (value : Option Text) (now : Instant) :
    Except PyError ℤ :=
  match value with
  | none => .ok 60
  | some text =>
      match library.int text with
      | some seconds => .ok (clampRetryAfter seconds)
      | none =>
          catchMalformed ((library.parsedate text).map fun target =>
            secondsUntil target now)

/-- The reading of a header which a reply carries. -/
def HeaderLibrary.header
    (library : HeaderLibrary) (value : Option Text) : RetryAfterHeader :=
  match value with
  | none => .absent
  | some text =>
      match library.int text with
      | some seconds => .seconds seconds
      | none =>
          match library.parsedate text with
          | .ok target => .date target.instant
          | .error _ => .malformed

theorem parseRetryAfterHeader_eq
    {library : HeaderLibrary} (hdocumented : library.Documented)
    (value : Option Text) (now : Instant) :
    parseRetryAfterHeader library value now =
      .ok (parseRetryAfter (library.header value) now) := by
  cases value with
  | none => rfl
  | some text =>
      cases hint : library.int text with
      | some seconds =>
          simp only [parseRetryAfterHeader, HeaderLibrary.header, hint]
          rfl
      | none =>
          have hraised := hdocumented text
          simp only [parseRetryAfterHeader, HeaderLibrary.header, hint]
          cases hparsed : library.parsedate text with
          | ok target => rfl
          | error error =>
              rw [hparsed] at hraised
              cases error with
              | other => exact absurd rfl hraised
              | typeError | valueError | overflowError => rfl

/-! ## Delays -/

theorem clampRetryAfter_bounds (seconds : ℤ) :
    1 ≤ clampRetryAfter seconds ∧
      clampRetryAfter seconds ≤ maxRetryAfterSeconds := by
  have hmax : (1 : ℤ) ≤ maxRetryAfterSeconds := by decide
  exact ⟨le_min (le_max_left _ _) hmax, min_le_right _ _⟩

theorem parseRetryAfter_bounds (header : RetryAfterHeader) (now : Instant) :
    1 ≤ parseRetryAfter header now ∧
      parseRetryAfter header now ≤ maxRetryAfterSeconds := by
  cases header with
  | absent | malformed =>
      have hdefault : (1 : ℤ) ≤ 60 ∧ 60 ≤ maxRetryAfterSeconds := by decide
      exact hdefault
  | seconds value => exact clampRetryAfter_bounds value
  | date target => exact clampRetryAfter_bounds _

/-- Before the last attempt the schedule has an entry. -/
theorem calculateRetryDelay_bounds
    {attemptNumber : ℕ} (hfirst : 1 ≤ attemptNumber)
    (hlast : attemptNumber < maxAttempts) (jitter : ℕ) :
    attemptNumber - 1 < backoffScheduleSeconds.length ∧
      (1 : ℤ) ≤ calculateRetryDelay attemptNumber jitter ∧
      (calculateRetryDelay attemptNumber jitter : ℤ) ≤
        maxRetryAfterSeconds := by
  have hentry : ∀ number < maxAttempts, 1 ≤ number →
      1 ≤ backoffScheduleSeconds.getD (number - 1) 0 ∧
        backoffScheduleSeconds.getD (number - 1) 0 ≤ 3600 := by
    decide
  obtain ⟨hlow, hhigh⟩ := hentry attemptNumber hlast hfirst
  have hinside : ¬(attemptNumber < 1 ∨ maxAttempts < attemptNumber) := by
    omega
  have hmax : maxRetryAfterSeconds = 2592000 := rfl
  refine ⟨Nat.lt_of_le_of_lt (Nat.sub_le _ _) hlast, ?_, ?_⟩
  · rw [calculateRetryDelay, if_neg hinside]
    push_cast
    omega
  · rw [calculateRetryDelay, if_neg hinside, hmax]
    push_cast
    omega

/-! ## What a worker has read -/

variable {Process : Type*} [DecidableEq Process]

/-- What `send_webhook_sync` can have returned. -/
def WebhookResult.Returned (result : WebhookResult) : Prop :=
  (∃ now reply, result = sendWebhookSync now reply) ∨
    ∃ safeError, result = webhookFailure safeError

/-- The result which phase 3 is going to write. -/
def DeliveryPhase.result? : DeliveryPhase → Option WebhookResult
  | .answered _ _ result | .recording _ _ result => some result
  | _ => none

/-- The claim of a worker with the attempts which it has read. -/
def DeliveryPhase.read? : DeliveryPhase → Option (Instant × ℕ)
  | .calling lockedAt attemptsSoFar | .waiting lockedAt attemptsSoFar
  | .answered lockedAt attemptsSoFar _
  | .recording lockedAt attemptsSoFar _ => some (lockedAt, attemptsSoFar)
  | _ => none

namespace DeliveryState

variable {state next : DeliveryState Process}

def ReturnedResults (state : DeliveryState Process) : Prop :=
  ∀ process result, (state.phase process).result? = some result →
    result.Returned

/-- Whose claim is in the row has read the attempts of the row. -/
def CurrentAttempts (state : DeliveryState Process) : Prop :=
  ∀ process lockedAt attemptsSoFar,
    (state.phase process).read? = some (lockedAt, attemptsSoFar) →
      state.row.isClaim lockedAt = true → attemptsSoFar = state.row.attempts

/-- A step leaves the phases of the other processes alone. -/
theorem phase_of_change
    {process other : Process} {now : Instant} {move : DeliveryMove}
    (hchange : DeliveryChange state process now move next)
    (hne : other ≠ process) : next.phase other = state.phase other := by
  cases hchange with
  | posted hphase => exact goto_phase_of_ne hne _
  | committed hphase haccepted => exact commit_phase_of_ne hne _ _
  | refused hphase hrefused => exact abort_phase_of_ne hne
  | aborted hphase => exact abort_phase_of_ne hne
  | claiming | recording | reclaiming | retrying =>
      show (state.goto process now _).phase other = state.phase other
      exact goto_phase_of_ne hne _
  | _ => exact goto_phase_of_ne hne _

omit [DecidableEq Process] in
theorem read?_of_claim? {phase : DeliveryPhase} (hnone : phase.claim? = none) :
    phase.read? = none ∧ phase.result? = none := by
  cases phase with
  | calling | waiting | answered | recording => cases hnone
  | _ => exact ⟨rfl, rfl⟩

theorem ReturnedResults.step
    (hreturned : state.ReturnedResults) {action : DeliveryAction Process}
    (hstep : deliveryStep state action = some next) :
    next.ReturnedResults := by
  obtain ⟨process, now, move⟩ := action
  have hchange : DeliveryChange state process now move next :=
    deliveryStep_change hstep
  intro other result hresult
  by_cases hne : other = process
  · subst hne
    cases hchange with
    | quiet hlock hclaim hlock' hclaim' =>
        rw [goto_phase_self, (read?_of_claim? hclaim').2] at hresult
        cases hresult
    | unformatted safeError hphase =>
        rw [goto_phase_self] at hresult
        cases hresult
        exact .inr ⟨safeError, rfl⟩
    | answered reply hphase =>
        rw [goto_phase_self] at hresult
        cases hresult
        exact .inl ⟨now, reply, rfl⟩
    | recording hphase hfree hclaim =>
        rw [take_phase_self] at hresult
        cases hresult
        exact hreturned other result (by rw [hphase]; rfl)
    | committed hphase haccepted =>
        rename_i row kind
        rw [commit_phase_self] at hresult
        cases kind <;> cases hresult
    | refused hphase hrefused =>
        rw [abort_phase_self] at hresult
        cases hresult
    | aborted hphase =>
        rw [abort_phase_self] at hresult
        cases hresult
    | claiming | reclaiming | retrying =>
        rw [take_phase_self] at hresult
        cases hresult
    | _ =>
        rw [goto_phase_self] at hresult
        cases hresult
  · rw [phase_of_change hchange hne] at hresult
    exact hreturned other result hresult

theorem ReturnedResults.of_reachable
    (hreach : (deliveryMachine Process).Reachable state) :
    state.ReturnedResults := by
  refine Machine.ReachableWhere.invariant ?_ ?_ hreach
  · rintro start ⟨-, -, hidle, -⟩ process result hresult
    rw [hidle process] at hresult
    cases hresult
  · intro current action next hreturned _ hstep
    exact hreturned.step hstep

/-- A step which does not write the row. -/
theorem CurrentAttempts.frame
    (hcurrent : state.CurrentAttempts) {process : Process} {now : Instant}
    {move : DeliveryMove}
    (hchange : DeliveryChange state process now move next)
    (hrow : next.row = state.row)
    (hself : ∀ read, (next.phase process).read? = some read →
      (state.phase process).read? = some read ∨ read.2 = state.row.attempts) :
    next.CurrentAttempts := by
  intro other lockedAt attemptsSoFar hread hclaim
  rw [hrow] at hclaim ⊢
  by_cases hne : other = process
  · subst hne
    rcases hself _ hread with hbefore | hsame
    · exact hcurrent other lockedAt attemptsSoFar hbefore hclaim
    · exact hsame
  · rw [phase_of_change hchange hne] at hread
    exact hcurrent other lockedAt attemptsSoFar hread hclaim

omit [DecidableEq Process] in
theorem claim?_of_read?
    {phase : DeliveryPhase} {lockedAt : Instant} {attemptsSoFar : ℕ}
    (hread : phase.read? = some (lockedAt, attemptsSoFar)) :
    phase.claim? = some lockedAt := by
  cases phase with
  | calling | waiting | answered | recording =>
      cases hread
      rfl
  | _ => cases hread

/-- After the commit of a claim no other worker has the claim of the row. -/
theorem CurrentAttempts.commit_claim
    (hfenced : state.Fenced) {process : Process} {now lockedAt : Instant}
    {row : DeliveryRow} {attemptsSoFar : ℕ}
    (hphase : state.phase process =
      .writing row (.claim lockedAt attemptsSoFar))
    (hfresh : ∀ other, state.claimOf other ≠ some lockedAt) :
    (state.commit process now row
      (.claim lockedAt attemptsSoFar)).CurrentAttempts := by
  have hprepared := hfenced.locked.prepared process
  rw [hphase] at hprepared
  obtain ⟨-, rfl, rfl⟩ := hprepared
  intro other stamp read hread hclaim
  by_cases hne : other = process
  · subst hne
    rw [commit_phase_self] at hread
    cases hread
    rfl
  · rw [commit_phase_of_ne hne] at hread
    have hother := hfenced.caller other stamp (claim?_of_read? hread)
    have hstamp : lockedAt = stamp :=
      Option.some.inj (DeliveryRow.isClaim_iff.mp hclaim).2
    rw [← hstamp] at hother
    exact absurd hother (hfresh other)

/-- Every other commit ends the claim of the row. -/
theorem CurrentAttempts.commit_other
    (hfenced : state.Fenced) {process : Process} {now : Instant}
    {row : DeliveryRow} {kind : WriteKind}
    (hphase : state.phase process = .writing row kind)
    (hkind : ∀ lockedAt attemptsSoFar,
      kind ≠ .claim lockedAt attemptsSoFar) :
    (state.commit process now row kind).CurrentAttempts := by
  have hprepared := hfenced.locked.prepared process
  rw [hphase] at hprepared
  have hstatus : row.status ≠ .sending := by
    cases kind with
    | claim lockedAt attemptsSoFar => exact absurd rfl (hkind _ _)
    | bury =>
        obtain ⟨-, error, rfl⟩ := hprepared
        simp [DeliveryRow.bury]
    | outcome lockedAt =>
        obtain ⟨-, attemptsSoFar, result, moment, jitter, rfl⟩ := hprepared
        intro hsending
        rcases DeliveryRow.outcome_cases state.row attemptsSoFar result moment
          jitter with hterminal | ⟨hfailed, -⟩
        · rw [hsending] at hterminal
          cases hterminal
        · rw [hsending] at hfailed
          cases hfailed
    | reclaim =>
        obtain ⟨-, rfl⟩ := hprepared
        simp [DeliveryRow.reclaim]
    | retry =>
        obtain ⟨-, moment, rfl⟩ := hprepared
        simp [DeliveryRow.retry]
  intro other stamp read hread hclaim
  exact absurd (DeliveryRow.isClaim_iff.mp hclaim).1 hstatus

theorem CurrentAttempts.step
    (hcurrent : state.CurrentAttempts) (hfenced : state.Fenced)
    {action : DeliveryAction Process} (hfresh : FreshClaims state action)
    (hstep : deliveryStep state action = some next) :
    next.CurrentAttempts := by
  obtain ⟨process, now, move⟩ := action
  have hchange : DeliveryChange state process now move next :=
    deliveryStep_change hstep
  have hframe : next.row = state.row →
      (∀ read, (next.phase process).read? = some read →
        (state.phase process).read? = some read ∨
          read.2 = state.row.attempts) → next.CurrentAttempts :=
    fun hrow hself => hcurrent.frame hchange hrow hself
  cases hchange with
  | quiet hlock hclaim hlock' hclaim' =>
      refine hframe rfl fun read hread => ?_
      rw [goto_phase_self, (read?_of_claim? hclaim').1] at hread
      cases hread
  | posted hphase | unformatted safeError hphase | answered reply hphase =>
      refine hframe rfl fun read hread => .inl ?_
      rw [goto_phase_self] at hread
      rw [hphase]
      exact hread
  | recording hphase hfree hclaim =>
      refine hframe rfl fun read hread => .inl ?_
      rw [take_phase_self] at hread
      rw [hphase]
      exact hread
  | committed hphase haccepted =>
      rename_i row kind
      cases kind with
      | claim lockedAt attemptsSoFar =>
          refine CurrentAttempts.commit_claim hfenced hphase ?_
          simpa [FreshClaims, hphase] using hfresh
      | _ => exact CurrentAttempts.commit_other hfenced hphase (by simp)
  | refused hphase hrefused =>
      refine hframe rfl fun read hread => ?_
      rw [abort_phase_self] at hread
      cases hread
  | aborted hphase =>
      refine hframe rfl fun read hread => ?_
      rw [abort_phase_self] at hread
      cases hread
  | claiming | reclaiming | retrying =>
      refine hframe rfl fun read hread => ?_
      rw [take_phase_self] at hread
      cases hread
  | _ =>
      refine hframe rfl fun read hread => ?_
      rw [goto_phase_self] at hread
      cases hread

theorem CurrentAttempts.of_reachable
    (hreach : (deliveryMachine Process).ReachableWhere FreshClaims state) :
    state.CurrentAttempts := by
  induction hreach with
  | initial hinitial =>
      obtain ⟨-, -, hidle, -⟩ := hinitial
      intro process lockedAt attemptsSoFar hread
      rw [hidle process] at hread
      cases hread
  | step hreach hfresh hstep ih =>
      exact ih.step (Fenced.of_reachable hreach) hfresh hstep

end DeliveryState

/-! ## Retryable outcomes -/

/-- Phase 3 counts an attempt: a 429, a status outside 400..499, or no
response. -/
def WebhookResult.isRetryable (result : WebhookResult) : Bool :=
  !result.ok && match result.statusCode with
    | some statusCode =>
        decide (statusCode = 429 ∨ ¬(400 ≤ statusCode ∧ statusCode < 500))
    | none => true

/-- The seconds which phase 3 adds to the moment of writing. -/
def backoffDelay
    (attemptsSoFar : ℕ) (result : WebhookResult) (jitter : ℕ) : ℤ :=
  if result.statusCode = some 429 then
    DeliveryRow.retryAfterOrDefault result.retryAfter
  else calculateRetryDelay (attemptsSoFar + 1) jitter

theorem outcome_of_retryable
    {result : WebhookResult} (hretry : result.isRetryable = true)
    (row : DeliveryRow) (attemptsSoFar : ℕ) (now : Instant) (jitter : ℕ) :
    row.outcome attemptsSoFar result now jitter =
      row.countAttempt attemptsSoFar result
        (now + timedeltaSeconds (backoffDelay attemptsSoFar result jitter)) := by
  rw [WebhookResult.isRetryable, Bool.and_eq_true, Bool.not_eq_true'] at hretry
  obtain ⟨hfailed, hstatus⟩ := hretry
  unfold DeliveryRow.outcome backoffDelay
  rw [hfailed, if_neg Bool.false_ne_true]
  cases hcode : result.statusCode with
  | none => rfl
  | some statusCode =>
      rw [hcode] at hstatus
      have hretried := of_decide_eq_true hstatus
      by_cases hlimited : statusCode = 429
      · simp only [hlimited, if_true]
      · have hother : ¬(400 ≤ statusCode ∧ statusCode < 500) :=
          hretried.resolve_left hlimited
        simp only [Option.some.injEq, hlimited, hother, if_false]

/-- A rate limit carries a number of seconds between the bounds. -/
theorem WebhookResult.Returned.retryAfter
    {result : WebhookResult} (hreturned : result.Returned)
    (hlimited : result.statusCode = some 429) :
    ∃ seconds, result.retryAfter = some seconds ∧ 1 ≤ seconds ∧
      seconds ≤ maxRetryAfterSeconds := by
  rcases hreturned with ⟨now, reply, rfl⟩ | ⟨safeError, rfl⟩
  · cases reply with
    | raised safeError => cases hlimited
    | response statusCode header text =>
        by_cases hcode : statusCode = 429
        · exact ⟨_, by rw [sendWebhookSync, if_pos hcode],
            parseRetryAfter_bounds header now⟩
        · rw [sendWebhookSync, if_neg hcode] at hlimited
          split at hlimited
          · exact absurd (Option.some.inj hlimited) hcode
          · exact absurd (Option.some.inj hlimited) hcode
  · cases hlimited

theorem backoffDelay_bounds
    {result : WebhookResult} (hreturned : result.Returned)
    {attemptsSoFar : ℕ} (hopen : attemptsSoFar + 1 < maxAttempts)
    (jitter : ℕ) :
    1 ≤ backoffDelay attemptsSoFar result jitter ∧
      backoffDelay attemptsSoFar result jitter ≤ maxRetryAfterSeconds := by
  unfold backoffDelay
  by_cases hlimited : result.statusCode = some 429
  · obtain ⟨seconds, hseconds, hlow, hhigh⟩ := hreturned.retryAfter hlimited
    have hdefault : DeliveryRow.retryAfterOrDefault (some seconds) =
        seconds := by
      unfold DeliveryRow.retryAfterOrDefault
      split
      · next hzero =>
          have hnone : seconds = 0 := Option.some.inj hzero
          omega
      · contradiction
      · next h => exact (Option.some.inj h).symm
    rw [if_pos hlimited, hseconds, hdefault]
    exact ⟨hlow, hhigh⟩
  · rw [if_neg hlimited]
    exact (calculateRetryDelay_bounds (Nat.le_add_left 1 _) hopen jitter).2

theorem timedeltaSeconds_le {fewer more : ℤ} (hle : fewer ≤ more) :
    timedeltaSeconds fewer ≤ timedeltaSeconds more :=
  Int.mul_le_mul_of_nonneg_right hle (by decide)

/-- What phase 3 writes after an outcome which does not end the delivery. -/
structure BackedOff
    (attemptsSoFar : ℕ) (result : WebhookResult) (now : Instant) (jitter : ℕ)
    (row : DeliveryRow) : Prop where
  status : row.status = .failed
  attempts : 1 ≤ row.attempts ∧ row.attempts ≤ maxAttempts - 1
  earliest : now + timedeltaSeconds 1 ≤ row.nextAttemptAt
  latest : row.nextAttemptAt ≤ now + timedeltaSeconds maxRetryAfterSeconds
  computed : 0 ≤ now →
    now + timedeltaSeconds maxRetryAfterSeconds ≤ datetimeMax →
      datetimeAdd now
          (timedeltaSeconds (backoffDelay attemptsSoFar result jitter)) =
        some row.nextAttemptAt

theorem backedOff_countAttempt
    {result : WebhookResult} (hreturned : result.Returned)
    (row : DeliveryRow) (attemptsSoFar : ℕ) (now : Instant) (jitter : ℕ) :
    let written := row.countAttempt attemptsSoFar result
      (now + timedeltaSeconds (backoffDelay attemptsSoFar result jitter))
    written.attempts = attemptsSoFar + 1 ∧
      (written.status = .dead ∧ maxAttempts ≤ written.attempts ∨
        BackedOff attemptsSoFar result now jitter written) := by
  intro written
  by_cases hlast : maxAttempts ≤ attemptsSoFar + 1
  · have hwritten : written.status = .dead ∧
        written.attempts = attemptsSoFar + 1 := by
      simp [written, DeliveryRow.countAttempt, hlast]
    exact ⟨hwritten.2, .inl ⟨hwritten.1, hwritten.2 ▸ hlast⟩⟩
  · have hopen : attemptsSoFar + 1 < maxAttempts := Nat.lt_of_not_le hlast
    obtain ⟨hlow, hhigh⟩ := backoffDelay_bounds hreturned hopen jitter
    have hwritten : written.status = .failed ∧
        written.attempts = attemptsSoFar + 1 ∧ written.nextAttemptAt =
          now + timedeltaSeconds
            (backoffDelay attemptsSoFar result jitter) := by
      simp [written, DeliveryRow.countAttempt, hlast]
    obtain ⟨hstatus, hattempts, hnext⟩ := hwritten
    have hleast := timedeltaSeconds_le hlow
    have hmost := timedeltaSeconds_le hhigh
    refine ⟨hattempts, .inr ⟨hstatus, ?_, ?_, ?_, ?_⟩⟩
    · rw [hattempts]
      exact ⟨Nat.le_add_left 1 _, Nat.le_sub_one_of_lt hopen⟩
    · rw [hnext]
      exact Int.add_le_add_left hleast now
    · rw [hnext]
      exact Int.add_le_add_left hmost now
    · intro hstart hend
      rw [hnext, datetimeAdd_eq_some_iff]
      have hpositive : 0 ≤ timedeltaSeconds 1 := by decide
      exact ⟨⟨Int.add_nonneg hstart (hpositive.trans hleast),
        (Int.add_le_add_left hmost now).trans hend⟩, rfl⟩

/-- After every retryable outcome which phase 3 writes, the delivery has ended
or is backed off.  No exception leaves the parsing of a header. -/
theorem backoff_between
    {library : HeaderLibrary} (hdocumented : library.Documented)
    {state next : DeliveryState Process}
    (hreach : (deliveryMachine Process).Reachable state) {process : Process}
    {lockedAt : Instant} {attemptsSoFar : ℕ} {result : WebhookResult}
    (hphase : state.phase process = .recording lockedAt attemptsSoFar result)
    (hretry : result.isRetryable = true) {now : Instant} {jitter : ℕ}
    (hstep : deliveryStep state ⟨process, now, .record jitter⟩ = some next) :
    (∀ value moment, parseRetryAfterHeader library value moment =
      .ok (parseRetryAfter (library.header value) moment)) ∧
    ((deliveryMachine Process).ReachableWhere FreshClaims state →
      attemptsSoFar = state.row.attempts) ∧
    ∃ row, next.phase process = .writing row (.outcome lockedAt) ∧
      row.attempts = attemptsSoFar + 1 ∧
      (row.status = .dead ∧ maxAttempts ≤ row.attempts ∨
        BackedOff attemptsSoFar result now jitter row) := by
  have hreturned : result.Returned :=
    DeliveryState.ReturnedResults.of_reachable hreach process result
      (by rw [hphase]; rfl)
  refine ⟨parseRetryAfterHeader_eq hdocumented, fun hfresh => ?_, ?_⟩
  · have hfenced := DeliveryState.Fenced.of_reachable hfresh
    have hprepared := hfenced.locked.prepared process
    rw [hphase] at hprepared
    exact DeliveryState.CurrentAttempts.of_reachable hfresh process lockedAt
      attemptsSoFar (by rw [hphase]; rfl) hprepared
  · simp only [deliveryStep, hphase, Option.some.injEq] at hstep
    subst hstep
    refine ⟨_, DeliveryState.goto_phase_self _, ?_⟩
    rw [outcome_of_retryable hretry]
    exact backedOff_countAttempt hreturned state.row attemptsSoFar now jitter

/-- A claim, and the answer of its call up to the lock of phase 3. -/
def callUntilOutcome
    (process : Fin 4) (claimed answered : Instant) (reply : HttpReply) :
    List (DeliveryAction (Fin 4)) :=
  [⟨process, claimed, .lock⟩, ⟨process, claimed, .decide enabledChannel⟩,
    ⟨process, claimed, .commit⟩, ⟨process, claimed, .post⟩,
    ⟨process, answered, .answer reply⟩, ⟨process, answered, .lockOutcome⟩]

/-- `int` alone reads a header, and every date is malformed. -/
def integerHeaders : HeaderLibrary :=
  ⟨fun text => Ingestion.pythonInt (strip text), fun _ => .error .valueError⟩

theorem backoff_between_serverError :
    ∃ state next row, (deliveryMachine (Fin 4)).run (createdDelivery (Fin 4))
        (callUntilOutcome 0 0 (timedeltaSeconds 2) serverError) =
          some state ∧
      deliveryStep state ⟨0, timedeltaSeconds 3, .record 6⟩ = some next ∧
      next.phase 0 = .writing row (.outcome 0) ∧ row.attempts = 1 ∧
      timedeltaSeconds 4 ≤ row.nextAttemptAt ∧
      parseRetryAfterHeader integerHeaders (some "-5".toList) 0 = .ok 1 := by
  have hallowed : (deliveryMachine (Fin 4)).AllowedAlong FreshClaims
      (createdDelivery (Fin 4))
      (callUntilOutcome 0 0 (timedeltaSeconds 2) serverError) := by
    decide +kernel
  obtain ⟨state, next, result, hrun, hphase, hretry, hstep⟩ :
      ∃ state next result, (deliveryMachine (Fin 4)).run (createdDelivery (Fin 4))
          (callUntilOutcome 0 0 (timedeltaSeconds 2) serverError) =
            some state ∧
        state.phase 0 = .recording 0 0 result ∧
        result.isRetryable = true ∧
        deliveryStep state ⟨0, timedeltaSeconds 3, .record 6⟩ = some next :=
    ⟨_, _, _, rfl, rfl, by decide +kernel, rfl⟩
  have hreach := createdDelivery_reachable.run hallowed hrun
  have hdocumented : integerHeaders.Documented := by
    rintro text ⟨⟩
  obtain ⟨hparsed, -, row, hwriting, hattempts, hwritten⟩ :=
    backoff_between hdocumented hreach.reachable hphase hretry hstep
  refine ⟨state, next, row, hrun, hstep, hwriting, hattempts, ?_, ?_⟩
  · rcases hwritten with ⟨-, hlast⟩ | hbacked
    · rw [hattempts] at hlast
      exact absurd hlast (by decide)
    · exact hbacked.earliest
  · rw [hparsed]
    decide +kernel

/-- A 429 which asks for the thirty days of the bound. -/
def rateLimited : HttpReply := .response 429 (.seconds 2592000) []

/-- The clock goes back a day after the claim of worker 0 and its reclaim.
Worker 2 counts an attempt, and worker 3 claims in the microsecond of the first
claim. -/
def sameStampRun : List (DeliveryAction (Fin 4)) :=
  let pass : List DeliveryMove :=
    [.startPass, .selectDue, .selectStuck, .reclaim, .commit]
  (callUntilOutcome 0 (2 * microsecondsPerDay) 0 serverError).take 4 ++
    pass.map (⟨1, 3 * microsecondsPerDay, ·⟩) ++
    callUntilOutcome 2 microsecondsPerDay microsecondsPerDay serverError ++
    [⟨2, microsecondsPerDay, .record 0⟩, ⟨2, microsecondsPerDay, .commit⟩] ++
    (callUntilOutcome 3 (2 * microsecondsPerDay) 0 serverError).take 4 ++
    [⟨0, 2 * microsecondsPerDay, .answer serverError⟩,
      ⟨0, 2 * microsecondsPerDay, .lockOutcome⟩]

/-- In the last thirty days of the year 9999 the sum overflows, and after two
claims with one `locked_at` the attempts need not grow. -/
theorem backoff_exceptions :
    (∃ state result, (deliveryMachine (Fin 4)).Reachable state ∧
      state.phase 0 = .recording datetimeMax 0 result ∧
      result.isRetryable = true ∧ 0 + 1 < maxAttempts ∧
      datetimeAdd datetimeMax (timedeltaSeconds (backoffDelay 0 result 0)) =
        none) ∧
    ∃ state next result row, (deliveryMachine (Fin 4)).Reachable state ∧
      state.phase 0 = .recording (2 * microsecondsPerDay) 0 result ∧
      result.isRetryable = true ∧
      deliveryStep state ⟨0, 2 * microsecondsPerDay, .record 0⟩ =
        some next ∧
      next.phase 0 = .writing row (.outcome (2 * microsecondsPerDay)) ∧
      row.status = .failed ∧ row.attempts = state.row.attempts := by
  constructor
  · obtain ⟨state, result, hrun, hphase, hretry, hsum⟩ :
        ∃ state result, (deliveryMachine (Fin 4)).run (createdDelivery (Fin 4))
            (callUntilOutcome 0 datetimeMax datetimeMax rateLimited) =
              some state ∧
          state.phase 0 = .recording datetimeMax 0 result ∧
          result.isRetryable = true ∧
          datetimeAdd datetimeMax
            (timedeltaSeconds (backoffDelay 0 result 0)) = none :=
      ⟨_, _, rfl, rfl, by decide +kernel, by decide +kernel⟩
    exact ⟨state, result, .run createdDelivery_reachable hrun, hphase, hretry,
      by decide, hsum⟩
  · obtain ⟨state, next, result, row, hrun, hphase, hretry, hstep, hwriting,
        hwritten⟩ :
        ∃ state next result row, (deliveryMachine (Fin 4)).run (createdDelivery (Fin 4))
            sameStampRun = some state ∧
          state.phase 0 = .recording (2 * microsecondsPerDay) 0 result ∧
          result.isRetryable = true ∧
          deliveryStep state ⟨0, 2 * microsecondsPerDay, .record 0⟩ =
            some next ∧
          next.phase 0 = .writing row (.outcome (2 * microsecondsPerDay)) ∧
          row.status = .failed ∧ row.attempts = state.row.attempts :=
      ⟨_, _, _, _, rfl, rfl, by decide +kernel, rfl, rfl, by decide +kernel,
        by decide +kernel⟩
    exact ⟨state, next, result, row, .run createdDelivery_reachable hrun,
      hphase, hretry, hstep, hwriting, hwritten⟩

end NotifyHub
