import NotifyHub.RetentionPurge
import NotifyHub.TransitionMachine
import Mathlib.Tactic

/-!
# Payloads in the object store

The database and the bucket have no common transaction.  An ingestion uploads
its object before it commits the notification; the trigger on `notifications`
writes the key of a deleted object into `pending_object_deletions`;
`drain_object_deletions` deletes what is pending, row by row, and
`purge_orphan_objects` deletes old objects whose key it has not found in any
tenant.  A process may crash between any two steps, and a call of the object
store which raises may have taken effect or not.
-/

namespace NotifyHub

/-- The parts of `{tenant_id}/{yyyy}/{mm}/{dd}/{notification_id}.txt`. -/
structure ObjectKey (Id : Type) where
  tenantId : Id
  day : ℤ
  notificationId : Id
  deriving DecidableEq, Repr

def objectKey {Id : Type} (tenantId notificationId : Id) (now : Instant) :
    ObjectKey Id :=
  ⟨tenantId, now / microsecondsPerDay, notificationId⟩

/-- A row of `notifications`; the key is null for an inline payload. -/
structure StoredPayload (Id : Type) where
  id : Id
  tenantId : Id
  storageKey : Option (ObjectKey Id)
  deriving DecidableEq, Repr

/-- A row of `pending_object_deletions`. -/
structure PendingDeletion (Id : Type) where
  id : Id
  storageKey : ObjectKey Id
  enqueuedAt : Instant
  attempts : ℕ
  deriving DecidableEq, Repr

/-- What a caller learns of a request to the object store. -/
inductive StoreCall
  | returned
  | raised (tookEffect : Bool)
  deriving DecidableEq, Repr

def StoreCall.tookEffect : StoreCall → Bool
  | .returned => true
  | .raised tookEffect => tookEffect

/-- `draining` is the head of the drain's loop, with its cursor and the
number of iterations left. -/
inductive ObjectPhase (Id : Type)
  | idle
  | uploading (payload : StoredPayload Id)
  | uploaded (payload : StoredPayload Id) (lastModified : Instant)
  | draining (cursor : Option (Instant × Id)) (left : ℕ)
  | deleting (row : PendingDeletion Id) (left : ℕ)
  | recording (row : PendingDeletion Id) (left : ℕ) (deleted : Bool)
  | readingTenants (cutoff : Instant)
  | readingKeys
      (cutoff : Instant) (tenants : List Id) (known : Finset (ObjectKey Id))
  | purging
      (cutoff : Instant) (known : Finset (ObjectKey Id))
      (page : List (ObjectKey Id × Instant))
  | ended

namespace ObjectPhase

variable {Id : Type}

/-- The payload an ingestion has not committed yet. -/
def inFlight : ObjectPhase Id → Option (StoredPayload Id)
  | .uploading payload | .uploaded payload _ => some payload
  | _ => none

def isOpen : ObjectPhase Id → Bool
  | .idle | .ended => false
  | _ => true

/-- The loop over the tenants, or what follows it. -/
def afterKeys
    (cutoff : Instant) (tenants : List Id) (known : Finset (ObjectKey Id)) :
    ObjectPhase Id :=
  match tenants with
  | [] => .purging cutoff known []
  | tenant :: rest => .readingKeys cutoff (tenant :: rest) known

end ObjectPhase

/-- The committed rows, the locks which drains hold on pending rows, and the
bucket with the `LastModified` of its objects.  `drawn` are the ids drawn so
far, for notifications and for pending rows. -/
structure ObjectState (Process : Type*) (Id : Type) where
  now : Instant
  tenants : List Id
  drawn : Finset Id
  notifications : Finset (StoredPayload Id)
  pending : List (PendingDeletion Id)
  rowLock : Id → Option Process
  bucket : ObjectKey Id → Option Instant
  phase : Process → ObjectPhase Id

inductive ObjectAction (Process : Type*) (Id : Type)
  | tick (now : Instant)
  | createTenant (tenantId : Id)
  | storeInline (tenantId notificationId : Id)
  | prepare (process : Process) (tenantId notificationId : Id)
  | upload (process : Process) (call : StoreCall)
  | commit (process : Process)
  | delete
      (removed : List (StoredPayload Id)) (rowId : Id → Id)
      (enqueuedAt : Instant)
  | drain (process : Process)
  | select (process : Process)
  | deleteObject
      (process : Process) (row : PendingDeletion Id) (call : StoreCall)
  | record (process : Process)
  | purge (process : Process)
  | readTenants (process : Process)
  | readKeys (process : Process)
  | listPage (process : Process) (page : List (ObjectKey Id × Instant))
  | purgeObject (process : Process) (call : StoreCall)
  | crash (process : Process)

variable {Process : Type*} {Id : Type}

/-- The process whose step an action is. -/
def ObjectAction.process : ObjectAction Process Id → Option Process
  | .tick _ | .createTenant _ | .storeInline _ _ | .delete _ _ _ => none
  | .prepare process _ _ | .upload process _ | .commit process
  | .drain process | .select process | .deleteObject process _ _
  | .record process | .purge process | .readTenants process
  | .readKeys process | .listPage process _ | .purgeObject process _
  | .crash process => some process

/-- The trigger `enqueue_object_deletion`, for one deleted row. -/
def StoredPayload.enqueueDeletion
    (payload : StoredPayload Id) (rowId : Id → Id) (enqueuedAt : Instant) :
    Option (PendingDeletion Id) :=
  payload.storageKey.map fun key => ⟨rowId payload.id, key, enqueuedAt, 0⟩

def PendingDeletion.position (row : PendingDeletion Id) : Instant × Id :=
  (row.enqueuedAt, row.id)

/-- The order of `ORDER BY enqueued_at, id`. -/
def KeysetLess [LT Id] (first second : Instant × Id) : Prop :=
  first.1 < second.1 ∨ first.1 = second.1 ∧ first.2 < second.2

instance [LinearOrder Id] (first second : Instant × Id) :
    Decidable (KeysetLess first second) :=
  inferInstanceAs (Decidable (_ ∨ _))

namespace ObjectState

variable [DecidableEq Process] [LinearOrder Id]

omit [LinearOrder Id] in
def goto
    (state : ObjectState Process Id) (process : Process)
    (phase : ObjectPhase Id) : ObjectState Process Id :=
  { state with phase := Function.update state.phase process phase }

omit [LinearOrder Id] in
/-- The end of a transaction which holds pending rows. -/
def unlock (state : ObjectState Process Id) (process : Process) :
    ObjectState Process Id :=
  { state with
    rowLock := fun id =>
      if state.rowLock id = some process then none else state.rowLock id }

omit [DecidableEq Process] in
def putObject (state : ObjectState Process Id) (key : ObjectKey Id) :
    ObjectState Process Id :=
  { state with bucket := Function.update state.bucket key (some state.now) }

omit [DecidableEq Process] in
def removeObject (state : ObjectState Process Id) (key : ObjectKey Id) :
    ObjectState Process Id :=
  { state with bucket := Function.update state.bucket key none }

/-- A delete request; one which raises may have taken effect. -/
def callDelete
    (state : ObjectState Process Id) (key : ObjectKey Id)
    (call : StoreCall) : ObjectState Process Id :=
  if call.tookEffect then state.removeObject key else state

section Frame

omit [DecidableEq Process]

variable (state : ObjectState Process Id) (key : ObjectKey Id)
  (call : StoreCall)

@[simp] theorem callDelete_phase :
    (state.callDelete key call).phase = state.phase := by
  unfold callDelete
  split <;> rfl

@[simp] theorem callDelete_pending :
    (state.callDelete key call).pending = state.pending := by
  unfold callDelete
  split <;> rfl

@[simp] theorem callDelete_drawn :
    (state.callDelete key call).drawn = state.drawn := by
  unfold callDelete
  split <;> rfl

end Frame

/-- The row which the drain selects next: attempts below ten, beyond the
cursor, and not locked by another drain. -/
def nextPending
    (state : ObjectState Process Id) (cursor : Option (Instant × Id)) :
    Option (PendingDeletion Id) :=
  let candidates := state.pending.filter fun row =>
    row.attempts < 10 ∧ (∀ last ∈ cursor, KeysetLess last row.position) ∧
      state.rowLock row.id = none
  candidates.find? fun row =>
    ∀ other ∈ candidates, ¬KeysetLess other.position row.position

omit [DecidableEq Process] in
/-- The keys of the notifications of a tenant. -/
def tenantKeys (state : ObjectState Process Id) (tenantId : Id) :
    Finset (ObjectKey Id) :=
  (state.notifications.filter fun payload =>
    payload.tenantId = tenantId).biUnion fun payload =>
      payload.storageKey.toFinset

/-- A commit which deletes notifications, directly or by cascade. -/
def delete
    (state : ObjectState Process Id) (removed : List (StoredPayload Id))
    (rowId : Id → Id) (enqueuedAt : Instant) :
    Option (ObjectState Process Id) :=
  let rows := removed.filterMap fun payload =>
    payload.enqueueDeletion rowId enqueuedAt
  let ids := rows.map PendingDeletion.id
  if (∀ payload ∈ removed, payload ∈ state.notifications) ∧
      ids.Nodup ∧ ∀ id ∈ ids, id ∉ state.drawn then
    some
      { state with
        drawn := state.drawn ∪ ids.toFinset
        notifications := state.notifications \ removed.toFinset
        pending := rows ++ state.pending }
  else none

/-- The transaction of one row of the drain commits. -/
def record
    (state : ObjectState Process Id) (process : Process)
    (row : PendingDeletion Id) (left : ℕ) (deleted : Bool) :
    ObjectState Process Id :=
  { (state.unlock process).goto process
      (.draining (some (row.enqueuedAt, row.id)) left) with
    pending :=
      if deleted then state.pending.filter fun other => other.id ≠ row.id
      else state.pending.map fun other =>
        if other.id = row.id then
          { other with attempts := other.attempts + 1 }
        else other }

def step
    (state : ObjectState Process Id) :
    ObjectAction Process Id → Option (ObjectState Process Id)
  | .tick now =>
      if state.now ≤ now then some { state with now := now } else none
  | .createTenant tenantId =>
      some { state with tenants := tenantId :: state.tenants }
  | .storeInline tenantId notificationId =>
      if tenantId ∈ state.tenants ∧ notificationId ∉ state.drawn then
        some
          { state with
            drawn := insert notificationId state.drawn
            notifications :=
              insert ⟨notificationId, tenantId, none⟩ state.notifications }
      else none
  | .prepare process tenantId notificationId =>
      match state.phase process with
      | .idle =>
          if tenantId ∈ state.tenants ∧ notificationId ∉ state.drawn then
            some
              { state.goto process
                  (.uploading ⟨notificationId, tenantId,
                    some (objectKey tenantId notificationId state.now)⟩) with
                drawn := insert notificationId state.drawn }
          else none
      | _ => none
  | .upload process call =>
      match state.phase process with
      | .uploading payload =>
          match payload.storageKey, call with
          | none, _ => none
          | some key, .returned =>
              some ((state.putObject key).goto process
                (.uploaded payload state.now))
          | some key, .raised tookEffect =>
              some ((if tookEffect then state.putObject key else state).goto
                process .ended)
      | _ => none
  | .commit process =>
      match state.phase process with
      | .uploaded payload _ =>
          some
            { state.goto process .ended with
              notifications := insert payload state.notifications }
      | _ => none
  | .delete removed rowId enqueuedAt => state.delete removed rowId enqueuedAt
  | .drain process =>
      match state.phase process with
      | .idle => some (state.goto process (.draining none purgeBatchSize))
      | _ => none
  | .select process =>
      match state.phase process with
      | .draining _ 0 => some (state.goto process .ended)
      | .draining cursor (left + 1) =>
          match state.nextPending cursor with
          | none => some (state.goto process .ended)
          | some row =>
              some
                { state.goto process (.deleting row left) with
                  rowLock :=
                    Function.update state.rowLock row.id (some process) }
      | _ => none
  | .deleteObject process row call =>
      match state.phase process with
      | .deleting selected left =>
          if row = selected then
            some ((state.callDelete row.storageKey call).goto process
              (.recording row left (call = .returned)))
          else none
      | _ => none
  | .record process =>
      match state.phase process with
      | .recording row left deleted =>
          some (state.record process row left deleted)
      | _ => none
  | .purge process =>
      match state.phase process with
      | .idle =>
          some (state.goto process
            (.readingTenants (state.now - microsecondsPerDay)))
      | _ => none
  | .readTenants process =>
      match state.phase process with
      | .readingTenants cutoff =>
          some (state.goto process (.afterKeys cutoff state.tenants ∅))
      | _ => none
  | .readKeys process =>
      match state.phase process with
      | .readingKeys cutoff (tenant :: rest) known =>
          some (state.goto process
            (.afterKeys cutoff rest (known ∪ state.tenantKeys tenant)))
      | _ => none
  | .listPage process page =>
      match state.phase process with
      | .purging cutoff known [] =>
          if ∀ entry ∈ page, state.bucket entry.1 = some entry.2 then
            some (state.goto process (.purging cutoff known page))
          else none
      | _ => none
  | .purgeObject process call =>
      match state.phase process with
      | .purging cutoff known (entry :: rest) =>
          if entry.2 < cutoff ∧ entry.1 ∉ known then
            some ((state.callDelete entry.1 call).goto process
              (if call = .returned then .purging cutoff known rest
                else .ended))
          else some (state.goto process (.purging cutoff known rest))
      | _ => none
  | .crash process =>
      if (state.phase process).isOpen then
        some ((state.unlock process).goto process .ended)
      else none

omit [DecidableEq Process] [LinearOrder Id] in
/-- A new installation. -/
structure Empty (state : ObjectState Process Id) : Prop where
  tenants : state.tenants = []
  notifications : state.notifications = ∅
  pending : state.pending = []
  rowLock : ∀ id, state.rowLock id = none
  bucket : ∀ key, state.bucket key = none
  phase : ∀ process, state.phase process = .idle

end ObjectState

def objectMachine
    (Process : Type*) (Id : Type) [DecidableEq Process] [LinearOrder Id] :
    Machine (ObjectState Process Id) (ObjectAction Process Id) where
  Initial := ObjectState.Empty
  step := ObjectState.step

end NotifyHub
