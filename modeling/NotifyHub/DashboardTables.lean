import NotifyHub.ExpectedSchedule
import NotifyHub.ReceiverPolicy
import NotifyHub.RelationalTables
import NotifyHub.UserManagement
import Mathlib.Tactic

/-!
# Tables and access of the dashboard

The rows which the lists of the dashboard read, with the groups a caller may
see.  Ids are in the order of their values.
-/

namespace NotifyHub.Dashboard

structure Group (Id : Type) where
  tenantId : Id
  name : Text
  description : Option Text

/-- A receiver; its policy columns are those of the surveillance. -/
structure Receiver (Id : Type) where
  tenantId : Id
  groupId : Id
  slug : Text
  name : Text
  ingestionModule : Text
  defaultSeverity : Severity
  exitCodeSeverity : Option Severity
  maxBodyBytes : ℤ
  rateLimitPerMin : ℤ
  policy : NotifyHub.Receiver

structure Notification (Id : Type) where
  tenantId : Id
  receiverId : Id
  storageBackend : StorageBackend
  content : Option Text
  contentPreview : Text
  contentSize : ℤ
  contentNormalized : Bool
  severity : Severity
  severitySource : SeveritySource
  phase : Option NotificationPhase
  durationMs : Option ℤ
  exitCode : Option ℤ
  status : NotificationStatus
  verified : Bool
  readBy : Option Id
  readAt : Option Instant
  verifiedBy : Option Id
  verifiedAt : Option Instant
  receivedAt : Instant

structure Delivery (Id : Type) where
  tenantId : Id
  notificationId : Id
  channelId : Id
  status : DeliveryStatus
  attempts : ℤ
  nextAttemptAt : Instant
  lockedAt : Option Instant
  responseCode : Option ℤ
  lastError : Option Text
  sentAt : Option Instant

/-- `user_group_memberships`. -/
structure Membership (Id : Type) where
  tenantId : Id
  userId : Id
  groupId : Id

/-- The database; of a channel the lists read the name, of a user the
email. -/
structure State (Id : Type) where
  groups : Table Id (Group Id)
  receivers : Table Id (Receiver Id)
  notifications : Table Id (Notification Id)
  deliveries : Table Id (Delivery Id)
  memberships : Table Id (Membership Id)
  channelNames : Table Id Text
  emails : Table Id Text

structure Claims (Id : Type) extends AccessClaims Id where
  tid : Id

/-! ## Access to groups -/

section Access

variable {Id : Type} [DecidableEq Id]

def hasFullGroupAccess (claims : Claims Id) : Bool :=
  claims.role = .owner || claims.role = .admin

/-- The memberships of the caller in the tenant. -/
def State.ownMemberships (state : State Id) (claims : Claims Id) : Finset Id :=
  state.memberships.select fun _ membership =>
    membership.userId = claims.sub && membership.tenantId = claims.tid

def State.ownGroups (state : State Id) (claims : Claims Id) : Finset Id :=
  (state.ownMemberships claims).image fun id =>
    (state.memberships.row id).groupId

/-- `none` is no restriction. -/
def accessibleGroupIds (state : State Id) (claims : Claims Id) :
    Option (Finset Id) :=
  if hasFullGroupAccess claims then none else some (state.ownGroups claims)

def assertGroupAccess
    (state : State Id) (claims : Claims Id) (groupId : Id) (write : Bool) :
    Except Problem Unit :=
  if hasFullGroupAccess claims then .ok ()
  else if write && claims.role = .viewer then
    .error (forbidden "Viewers have read-only access.".toList)
  else if groupId ∈ state.ownGroups claims then .ok ()
  else .error (forbidden "Not a member of this receiver group.".toList)

end Access

end NotifyHub.Dashboard
