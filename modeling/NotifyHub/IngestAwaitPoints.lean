import NotifyHub.AwaitFaults
import NotifyHub.IdempotencyKey
import Mathlib.Tactic

/-!
# The await points of an ingestion

`_ingest` from its fifth step on, with the two payload paths, the exit of
`tenant_session` and the release of the key, over the Redis value and the
notifications of one request id.  Every await is a named point, and a plan says
what happens there.

The release is reached by any fault of the session block.  A fault which is
raised by the exit of the writing session, when its COMMIT has already taken
effect, is the only way to free the key of a stored notification.
-/

namespace NotifyHub

open AsyncM FlatJson

/-- The awaits inside one `tenant_session` block. -/
inductive SessionPoint
  | setLocal
  | quotaLimits
  | quotaLock
  | quotaCount
  | quotaStorage
  | loadRules
  | resolveSeverity
  | updateReceiver
  | flushNotification
  | selectBindings
  | selectOverrides
  | selectChannels
  | flushDeliveries
  | rollback
  | commit
  | close
  deriving DecidableEq

/-- The awaits of `_ingest`.  The object path opens two sessions, the inline
path only the writing one. -/
inductive AwaitPoint
  | reserveSet
  | reserveGet
  | checking (point : SessionPoint)
  | upload
  | writing (point : SessionPoint)
  | release
  | storeResponse
  deriving DecidableEq

inductive IngestFault
  | problem (problem : Problem)
  | pendingRollback
  | exception
  | cancelled
  deriving DecidableEq

/-- `except Exception`: a `CancelledError` is not one. -/
def IngestFault.isException : IngestFault → Bool
  | .cancelled => false
  | _ => true

abbrev SessionPlan := SessionPoint → Disposition IngestFault

abbrev IngestPlan := AwaitPoint → Disposition IngestFault

def IngestPlan.checking (plan : IngestPlan) : SessionPlan :=
  fun point => plan (.checking point)

def IngestPlan.writing (plan : IngestPlan) : SessionPlan :=
  fun point => plan (.writing point)

/-- The key and the notifications of one request id; `pending` is written by
the open transaction. -/
structure IngestWorld where
  key : RedisValue
  stored : List IngestBody
  pending : List IngestBody
  deriving DecidableEq

abbrev IngestM := AsyncM IngestFault IngestWorld

namespace IngestWorld

def discard (world : IngestWorld) : IngestWorld :=
  { world with pending := [] }

def commit (world : IngestWorld) : IngestWorld :=
  { world with stored := world.stored ++ world.pending, pending := [] }

def insert (body : IngestBody) (world : IngestWorld) : IngestWorld :=
  { world with pending := world.pending ++ [body] }

@[simp] theorem discard_key (world : IngestWorld) :
    world.discard.key = world.key := rfl

@[simp] theorem discard_stored (world : IngestWorld) :
    world.discard.stored = world.stored := rfl

@[simp] theorem discard_pending (world : IngestWorld) :
    world.discard.pending = [] := rfl

@[simp] theorem commit_key (world : IngestWorld) :
    world.commit.key = world.key := rfl

@[simp] theorem commit_stored (world : IngestWorld) :
    world.commit.stored = world.stored ++ world.pending := rfl

@[simp] theorem insert_key (body : IngestBody) (world : IngestWorld) :
    (world.insert body).key = world.key := rfl

@[simp] theorem insert_stored (body : IngestBody) (world : IngestWorld) :
    (world.insert body).stored = world.stored := rfl

@[simp] theorem insert_pending (body : IngestBody) (world : IngestWorld) :
    (world.insert body).pending = world.pending ++ [body] := rfl

end IngestWorld

/-! ## The session -/

/-- The `else` of `tenant_session`: the commit after a body which returned. -/
def commitExit (plan : SessionPlan) : IngestM Unit :=
  tryExcept IngestFault.isException
    (await plan .commit IngestWorld.commit) fun fault => do
      await plan .rollback IngestWorld.discard
      if fault = .pendingRollback then pure () else raise fault

/-- `tenant_session`. -/
def tenantSession {Value : Type}
    (plan : SessionPlan) (body : IngestM Value) : IngestM Value :=
  asyncWith (await plan .close IngestWorld.discard) do
    await plan .setLocal IngestWorld.discard
    let value ← tryExcept IngestFault.isException body fun fault => do
      await plan .rollback IngestWorld.discard
      raise fault
    commitExit plan
    return value

/-! ## The statements of an ingestion -/

structure QuotaLimits where
  maxNotificationsPerDay : Option ℕ
  maxStorageBytes : Option ℕ
  deriving DecidableEq

def QuotaLimits.unlimited : QuotaLimits := ⟨none, none⟩

/-- What the statements of one session return. -/
structure SessionReads where
  limits : QuotaLimits
  tenant : QuotaLimits
  notificationsToday : ℕ
  usedBytes : ℕ
  hasBindings : Bool
  targets : ℕ
  deriving DecidableEq

def dailyQuotaExceeded : Problem where
  status := 429
  type := "/problems/quota-exceeded".toList
  title := "Too Many Requests".toList
  detail := "Daily notification quota exceeded for this tenant.".toList
  retryAfter := none

def storageQuotaExceeded : Problem where
  status := 429
  type := "/problems/quota-exceeded".toList
  title := "Too Many Requests".toList
  detail := "Storage quota exceeded for this tenant.".toList
  retryAfter := none

def storageUnavailable : Problem where
  status := 503
  type := "/problems/storage-unavailable".toList
  title := "Service Unavailable".toList
  detail := "Object storage unreachable.".toList
  retryAfter := none

def stillProcessing : Problem where
  status := 409
  type := "/problems/conflict".toList
  title := "Conflict".toList
  detail :=
    "A request with this X-Request-Id is still being processed.".toList
  retryAfter := some 1

def refuseIf (condition : Prop) [Decidable condition] (problem : Problem) :
    IngestM Unit :=
  if condition then raise (.problem problem) else pure ()

/-- The daily limit of `enforce_tenant_quotas`. -/
def enforceDailyQuota
    (plan : SessionPlan) (reads : SessionReads) : IngestM Unit :=
  match reads.tenant.maxNotificationsPerDay with
  | some maximum => do
      await plan .quotaCount id
      refuseIf (maximum ≤ reads.notificationsToday) dailyQuotaExceeded
  | none => pure ()

/-- The storage limit of `enforce_tenant_quotas`. -/
def enforceStorageQuota
    (plan : SessionPlan) (reads : SessionReads) (incomingBytes : ℕ) :
    IngestM Unit :=
  match reads.tenant.maxStorageBytes with
  | some maximum => do
      await plan .quotaStorage id
      refuseIf (maximum < reads.usedBytes + incomingBytes)
        storageQuotaExceeded
  | none => pure ()

/-- `enforce_tenant_quotas`: the limits are read again under the lock. -/
def enforceTenantQuotas
    (plan : SessionPlan) (reads : SessionReads) (incomingBytes : ℕ) :
    IngestM Unit := do
  await plan .quotaLimits id
  if reads.limits = .unlimited then
    pure ()
  else
    await plan .quotaLock id
    enforceDailyQuota plan reads
    enforceStorageQuota plan reads incomingBytes

/-- What `prepare_notification` decides. -/
structure PreparedNotification where
  id : PlainText
  severity : Severity
  severitySource : SeveritySource
  useObjectStorage : Bool
  deriving DecidableEq

structure IngestRequest where
  requestId : Text
  requestId_nonempty : requestId ≠ []
  ownerToken : Text
  bodyLength : ℕ
  inlineMaxBytes : ℕ
  notificationId : PlainText
  severity : Severity
  severitySource : SeveritySource
  checkingReads : SessionReads
  writingReads : SessionReads

def IngestRequest.shouldUseObjectStorage (request : IngestRequest) : Bool :=
  decide (request.inlineMaxBytes < request.bodyLength)

def IngestRequest.prepared (request : IngestRequest) :
    PreparedNotification where
  id := request.notificationId
  severity := request.severity
  severitySource := request.severitySource
  useObjectStorage := request.shouldUseObjectStorage

/-- `prepare_notification`. -/
def prepareNotification
    (plan : SessionPlan) (request : IngestRequest) :
    IngestM PreparedNotification := do
  await plan .loadRules id
  await plan .resolveSeverity id
  return request.prepared

/-- `create_deliveries_for_notification`: the number of created rows. -/
def createDeliveries
    (plan : SessionPlan) (reads : SessionReads) : IngestM ℕ := do
  await plan .selectBindings id
  if reads.hasBindings = false then
    return 0
  else
    await plan .selectOverrides id
    await plan .selectChannels id
    if reads.targets = 0 then
      return 0
    else
      await plan .flushDeliveries id
      return reads.targets

def PreparedNotification.body
    (prepared : PreparedNotification) (forwardedTo : ℕ) : IngestBody where
  id := prepared.id
  severity := prepared.severity
  severitySource := prepared.severitySource
  forwardedTo := forwardedTo
  storageBackend := if prepared.useObjectStorage then .object else .inline

/-- How many deliveries the reads of a session lead to. -/
def SessionReads.forwardedTo (reads : SessionReads) : ℕ :=
  if reads.hasBindings then reads.targets else 0

/-- `_persisti`: the insert of the notification goes out with the first
statement, by autoflush. -/
def persisti
    (plan : SessionPlan) (reads : SessionReads)
    (prepared : PreparedNotification) : IngestM IngestBody := do
  await plan .updateReceiver
    (IngestWorld.insert (prepared.body reads.forwardedTo))
  await plan .flushNotification id
  let forwardedTo ← createDeliveries plan reads
  return prepared.body forwardedTo

/-! ## The two payload paths -/

/-- The block of the inline path: one transaction for everything. -/
def inlineBlock
    (plan : SessionPlan) (request : IngestRequest) : IngestM IngestBody := do
  let prepared ← prepareNotification plan request
  enforceTenantQuotas plan request.writingReads request.bodyLength
  persisti plan request.writingReads prepared

/-- The first block of the object path. -/
def checkingBlock
    (plan : SessionPlan) (request : IngestRequest) :
    IngestM PreparedNotification := do
  enforceTenantQuotas plan request.checkingReads request.bodyLength
  prepareNotification plan request

/-- The second block of the object path, after the upload. -/
def writingBlock
    (plan : SessionPlan) (request : IngestRequest)
    (prepared : PreparedNotification) : IngestM IngestBody := do
  enforceTenantQuotas plan request.writingReads request.bodyLength
  persisti plan request.writingReads prepared

def uploadObject (plan : IngestPlan) : IngestM Unit :=
  tryExcept IngestFault.isException (await plan .upload id) fun _ =>
    raise (.problem storageUnavailable)

/-- The `try` block of `_ingest`. -/
def storeNotification
    (plan : IngestPlan) (request : IngestRequest) : IngestM IngestBody :=
  if request.shouldUseObjectStorage = false then
    tenantSession plan.writing (inlineBlock plan.writing request)
  else do
    let prepared ←
      tenantSession plan.checking (checkingBlock plan.checking request)
    uploadObject plan
    tenantSession plan.writing (writingBlock plan.writing request prepared)

inductive IngestResponse
  | created (body : Record)
  | replayed (body : Record)
  deriving DecidableEq

def finishReserve (otherwise : IngestM IdempotencyReservation) :
    ReserveOutcome → IngestM IdempotencyReservation
  | .returned reservation => pure reservation
  | .raised => raise .exception
  | .waiting _ => otherwise

/-- `reserve` of a client which is alone on the key: as nobody else writes it,
every poll reads what the first one reads, until the deadline. -/
def reserveAlone
    (plan : IngestPlan) (request : IngestRequest) :
    IngestM IdempotencyReservation := fun world =>
  let reply := reserveFirst world.key request.ownerToken
  (do
    await plan .reserveSet fun current => { current with key := reply.1 }
    finishReserve (do
      await plan .reserveGet id
      finishReserve (pure inProgressReservation) (reserveGet reply.1))
      reply.2 : IngestM IdempotencyReservation) world

def releaseKey
    (request : IngestRequest) (ownerToken : Option Text)
    (world : IngestWorld) : IngestWorld :=
  { world with
    key := release world.key (some request.requestId) ownerToken }

def storeKey
    (request : IngestRequest) (ownerToken : Option Text) (body : Record)
    (world : IngestWorld) : IngestWorld :=
  { world with
    key := storeResponse world.key (some request.requestId) ownerToken body }

/-- `_ingest` after the reservation has been won. -/
def ingestAsOwner
    (plan : IngestPlan) (request : IngestRequest)
    (ownerToken : Option Text) : IngestM IngestResponse := do
  let body ← tryExcept (fun _ => true)
    (storeNotification plan request) fun fault => do
      tryExcept IngestFault.isException
        (await plan .release (releaseKey request ownerToken))
        fun _ => pure ()
      raise fault
  tryExcept IngestFault.isException
    (await plan .storeResponse
      (storeKey request ownerToken body.record))
    fun _ => pure ()
  return .created body.record

/-- `_ingest` from the reservation of the key on. -/
def ingest
    (plan : IngestPlan) (request : IngestRequest) :
    IngestM IngestResponse := do
  let reservation ← reserveAlone plan request
  if reservation.isReplay then
    match reservation.replayBody with
    | some body => return .replayed body
    | none => raise .exception
  else if reservation.inProgress then
    raise (.problem stillProcessing)
  else
    ingestAsOwner plan request reservation.ownerToken

end NotifyHub
