import NotifyHub.WebhookSender
import Mathlib.Tactic

/-!
# A row of the outbox

The columns of `deliveries` which decide the fate of a delivery, the
conditions under which the worker, `reconcile_deliveries` and
`retry_delivery` select a row, and what each of them writes.
-/

namespace NotifyHub

structure DeliveryRow where
  status : DeliveryStatus
  attempts : ℕ
  nextAttemptAt : Instant
  lockedAt : Option Instant
  responseCode : Option ℕ
  lastError : Option PyText
  sentAt : Option Instant
  deriving DecidableEq, Repr

/-- A row of `_add_deliveries`, from ingestion and from the surveillance job
alike. -/
def newDelivery (now : Instant) : DeliveryRow where
  status := .pending
  attempts := 0
  nextAttemptAt := now
  lockedAt := none
  responseCode := none
  lastError := none
  sentAt := none

/-- The ten minutes after which a sending row counts as stuck. -/
def stuckAfter : Duration := timedeltaMinutes 10

/-- What the first transaction of `dispatch_delivery` reads besides the row.
A decryption failure carries the type name of its exception. -/
structure DispatchReads where
  channelEnabled : Option Bool
  notificationExists : Bool
  decryptError : Option Text
  deriving DecidableEq, Repr

/-- The error with which a delivery dies before any call. -/
def deathCause (reads : DispatchReads) : Option PyText :=
  match reads.channelEnabled with
  | none => some (pyText "channel or notification missing".toList)
  | some enabled =>
      if reads.notificationExists = false then
        some (pyText "channel or notification missing".toList)
      else if enabled = false then
        some (pyText "channel disabled before delivery".toList)
      else
        reads.decryptError.map fun typeName =>
          pyText ("webhook decryption failed (".toList ++ typeName ++
            ")".toList)

namespace DeliveryRow

/-! ## Selections -/

/-- The guard at the start of `dispatch_delivery`. -/
def claimable (row : DeliveryRow) (dueAt : Instant) : Bool :=
  decide (row.status = .pending ∨
    row.status = .failed ∧ row.nextAttemptAt ≤ dueAt)

/-- The `due` selection of `reconcile_deliveries`. -/
def due (row : DeliveryRow) (now : Instant) : Bool :=
  decide ((row.status = .pending ∨ row.status = .failed) ∧
    row.nextAttemptAt ≤ now)

/-- The `stuck` selection of `reconcile_deliveries`, repeated by its UPDATE;
a NULL `locked_at` compares as false. -/
def stuck (row : DeliveryRow) (stuckCutoff : Instant) : Bool :=
  match row.status, row.lockedAt with
  | .sending, some lockedAt => decide (lockedAt < stuckCutoff)
  | _, _ => false

/-- The check at the start of phase 3. -/
def isClaim (row : DeliveryRow) (lockedAt : Instant) : Bool :=
  decide (row.status = .sending ∧ row.lockedAt = some lockedAt)

/-! ## Writes -/

/-- Phase 1, when no call can be made. -/
def bury (row : DeliveryRow) (error : PyText) : DeliveryRow :=
  { row with status := .dead, lastError := some error }

/-- Phase 1, before the call. -/
def claim (row : DeliveryRow) (lockedAt : Instant) : DeliveryRow :=
  { row with status := .sending, lockedAt := some lockedAt }

/-- A call which counts as a failed attempt. -/
def countAttempt
    (row : DeliveryRow) (attemptsSoFar : ℕ) (result : WebhookResult)
    (nextAttemptAt : Instant) : DeliveryRow :=
  let counted := { row with
    attempts := attemptsSoFar + 1
    responseCode := result.statusCode
    lastError := result.error }
  if maxAttempts ≤ attemptsSoFar + 1 then { counted with status := .dead }
  else { counted with status := .failed, nextAttemptAt := nextAttemptAt }

/-- `retry_after or 60`. -/
def retryAfterOrDefault (retryAfter : Option ℤ) : ℤ :=
  match retryAfter with
  | some 0 | none => 60
  | some seconds => seconds

/-- Phase 3. -/
def outcome
    (row : DeliveryRow) (attemptsSoFar : ℕ) (result : WebhookResult)
    (now : Instant) (jitter : ℕ) : DeliveryRow :=
  if result.ok then
    { row with
      status := .sent
      sentAt := some now
      responseCode := result.statusCode
      lastError := none }
  else
    match result.statusCode with
    | some statusCode =>
        if statusCode = 429 then
          row.countAttempt attemptsSoFar result
            (now + timedeltaSeconds (retryAfterOrDefault result.retryAfter))
        else if 400 ≤ statusCode ∧ statusCode < 500 then
          { row with
            status := .dead
            responseCode := result.statusCode
            lastError := result.error }
        else
          row.countAttempt attemptsSoFar result
            (now + timedeltaSeconds
              (calculateRetryDelay (attemptsSoFar + 1) jitter))
    | none =>
        row.countAttempt attemptsSoFar result
          (now + timedeltaSeconds
            (calculateRetryDelay (attemptsSoFar + 1) jitter))

/-- The conditional UPDATE of `reconcile_deliveries`. -/
def reclaim (row : DeliveryRow) : DeliveryRow :=
  { row with status := .failed, lockedAt := none }

/-- `retry_delivery`, of a dead row. -/
def retry (row : DeliveryRow) (now : Instant) : DeliveryRow :=
  { row with
    status := .pending
    attempts := 0
    lastError := none
    lockedAt := none
    nextAttemptAt := now }

/-- The database takes the error text. -/
def storable (row : DeliveryRow) : Bool :=
  match row.lastError with
  | some error => !unwritable error
  | none => true

/-! ## Reading the selections -/

theorem claimable_iff {row : DeliveryRow} {dueAt : Instant} :
    row.claimable dueAt = true ↔
      row.status = .pending ∨
        row.status = .failed ∧ row.nextAttemptAt ≤ dueAt := by
  simp [claimable]

theorem due_iff {row : DeliveryRow} {now : Instant} :
    row.due now = true ↔
      (row.status = .pending ∨ row.status = .failed) ∧
        row.nextAttemptAt ≤ now := by
  simp [due]

theorem stuck_iff {row : DeliveryRow} {stuckCutoff : Instant} :
    row.stuck stuckCutoff = true ↔
      row.status = .sending ∧
        ∃ lockedAt, row.lockedAt = some lockedAt ∧
          lockedAt < stuckCutoff := by
  unfold stuck
  cases row.status <;> cases row.lockedAt <;> simp

theorem isClaim_iff {row : DeliveryRow} {lockedAt : Instant} :
    row.isClaim lockedAt = true ↔
      row.status = .sending ∧ row.lockedAt = some lockedAt := by
  simp [isClaim]

/-! ## What phase 3 can write -/

theorem countAttempt_cases
    (row : DeliveryRow) (attemptsSoFar : ℕ) (result : WebhookResult)
    (nextAttemptAt : Instant) :
    (row.countAttempt attemptsSoFar result nextAttemptAt).attempts =
        attemptsSoFar + 1 ∧
      ((row.countAttempt attemptsSoFar result nextAttemptAt).status = .dead ∨
        (row.countAttempt attemptsSoFar result nextAttemptAt).status =
            .failed ∧ attemptsSoFar + 1 < maxAttempts) := by
  unfold countAttempt
  by_cases hlast : maxAttempts ≤ attemptsSoFar + 1
  · simp [hlast]
  · simp only [if_neg hlast, true_and]
    exact Or.inr (by omega)

/-- An outcome is final, or it counts an attempt which was not the last. -/
theorem outcome_cases
    (row : DeliveryRow) (attemptsSoFar : ℕ) (result : WebhookResult)
    (now : Instant) (jitter : ℕ) :
    (row.outcome attemptsSoFar result now jitter).status.isTerminal = true ∨
      (row.outcome attemptsSoFar result now jitter).status = .failed ∧
        (row.outcome attemptsSoFar result now jitter).attempts =
          attemptsSoFar + 1 ∧
        attemptsSoFar + 1 < maxAttempts := by
  have hcounted : ∀ nextAttemptAt,
      (row.countAttempt attemptsSoFar result
          nextAttemptAt).status.isTerminal = true ∨
        (row.countAttempt attemptsSoFar result nextAttemptAt).status =
            .failed ∧
          (row.countAttempt attemptsSoFar result nextAttemptAt).attempts =
            attemptsSoFar + 1 ∧
          attemptsSoFar + 1 < maxAttempts := by
    intro nextAttemptAt
    obtain ⟨hattempts, hdead | ⟨hfailed, hbelow⟩⟩ :=
      row.countAttempt_cases attemptsSoFar result nextAttemptAt
    · exact Or.inl (by rw [hdead]; rfl)
    · exact Or.inr ⟨hfailed, hattempts, hbelow⟩
  unfold outcome
  by_cases hok : result.ok = true
  · simp [hok, DeliveryStatus.isTerminal]
  · simp only [hok, Bool.false_eq_true, if_false]
    cases result.statusCode with
    | none => exact hcounted _
    | some statusCode =>
        by_cases hlimited : statusCode = 429
        · simp only [hlimited, if_true]
          exact hcounted _
        · by_cases hclient : 400 ≤ statusCode ∧ statusCode < 500
          · simp [hlimited, hclient, DeliveryStatus.isTerminal]
          · simp only [hlimited, hclient, if_false]
            exact hcounted _

/-- An outcome is never `pending` or `sending`. -/
theorem outcome_status
    (row : DeliveryRow) (attemptsSoFar : ℕ) (result : WebhookResult)
    (now : Instant) (jitter : ℕ) :
    (row.outcome attemptsSoFar result now jitter).status = .sent ∨
      (row.outcome attemptsSoFar result now jitter).status = .failed ∨
      (row.outcome attemptsSoFar result now jitter).status = .dead := by
  rcases row.outcome_cases attemptsSoFar result now jitter with
    hterminal | ⟨hfailed, -, -⟩
  · cases hstatus : (row.outcome attemptsSoFar result now jitter).status <;>
      simp_all [DeliveryStatus.isTerminal]
  · exact Or.inr (Or.inl hfailed)

/-- The row with an outcome holds no error but the one of the result. -/
theorem outcome_storable
    (row : DeliveryRow) {result : WebhookResult}
    (hstorable : ∀ error, result.error = some error → unwritable error = false)
    (attemptsSoFar : ℕ) (now : Instant) (jitter : ℕ) :
    (row.outcome attemptsSoFar result now jitter).storable = true := by
  have herror : ∀ written : DeliveryRow, written.lastError = result.error →
      written.storable = true := by
    intro written hwritten
    unfold storable
    rw [hwritten]
    cases hresult : result.error with
    | none => rfl
    | some error => simp [hstorable error hresult]
  have hcounted : ∀ nextAttemptAt,
      (row.countAttempt attemptsSoFar result nextAttemptAt).storable =
        true := by
    intro nextAttemptAt
    apply herror
    unfold countAttempt
    by_cases hlast : maxAttempts ≤ attemptsSoFar + 1
    · simp [hlast]
    · simp [hlast]
  unfold outcome
  by_cases hok : result.ok = true
  · simp [hok, storable]
  · simp only [hok, Bool.false_eq_true, if_false]
    split
    · split
      · exact hcounted _
      · split
        · exact herror _ rfl
        · exact hcounted _
    · exact hcounted _

end DeliveryRow

end NotifyHub
