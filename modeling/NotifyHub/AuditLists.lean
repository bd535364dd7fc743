import NotifyHub.AuditEngine
import NotifyHub.CursorText
import NotifyHub.DashboardQueries
import NotifyHub.JsonText
import NotifyHub.KeysetPagination
import Mathlib.Tactic

/-!
# Reading the audit

The lists of audit events and their export, which is read in blocks and sent in
chunks.
-/

namespace NotifyHub.AuditLog

open Dashboard (Claims Condition allOf given beforeCursor page)
open JsonText (Value)

/-! ## Events -/

inductive AuditOutcome
  | success
  | failure
  deriving DecidableEq

def AuditOutcome.value : AuditOutcome → Text
  | .success => "success".toList
  | .failure => "failure".toList

def roleValue : UserRole → Text
  | .owner => "owner".toList
  | .admin => "admin".toList
  | .member => "member".toList
  | .viewer => "viewer".toList

abbrev JsonObject := List (Text × Value)

/-- A row of `audit_events`. -/
structure AuditEvent where
  tenantId : Uuid
  occurredAt : Datetime
  actorUserId : Option Uuid
  actorEmail : Text
  actorRole : UserRole
  action : Text
  resourceType : Text
  resourceId : Option Uuid
  resourceLabel : Option Text
  outcome : AuditOutcome
  ip : Option Text
  userAgent : Option Text
  requestId : Option Text
  changes : Option JsonObject
  context : Option JsonObject

structure Location where
  groupId : Option Text
  groupName : Option Text
  receiverId : Option Text
  receiverName : Option Text

/-- The events, and where `resolve_locations` finds their resources. -/
structure AuditState where
  events : Table Uuid AuditEvent
  location : Uuid → AuditEvent → Location

/-! ## Filters -/

/-- The parameters of `_base_query`. -/
structure AuditFilters where
  actorUserId : Option Uuid
  action : Option Text
  resourceType : Option Text
  resourceId : Option Uuid
  outcome : Option AuditOutcome
  since : Option Instant
  until_ : Option Instant
  notificationId : Option Uuid
  onlyNotificationStatus : Bool

/-- `NOTIFICATION_STATUS_ACTIONS`. -/
def notificationStatusActions : List Text :=
  [Audit.markedRead, Audit.markedUnread, Audit.markedVerified,
    Audit.markedUnverified, Audit.bulkMarkedRead]

def isText (text : Text) : Value → Bool
  | .text value => value = text
  | _ => false

/-- `notification_in_context`. -/
def notificationInContext (notificationId : Uuid) (event : AuditEvent) : Bool :=
  match event.context.bind (List.lookup "notification_ids".toList) with
  | some (.array ids) => ids.any (isText (uuidText notificationId))
  | _ => false

/-- `_notification_event_ids`. -/
def notificationEventIds
    (events : Table Uuid AuditEvent) (claims : Claims Uuid)
    (notificationId : Uuid) : Finset Uuid :=
  (events.select fun _ event =>
    event.tenantId = claims.tid && event.resourceType = "notification".toList &&
      event.resourceId = some notificationId) ∪
  events.select fun _ event =>
    event.tenantId = claims.tid && notificationInContext notificationId event

/-- `_base_query`. -/
def baseQuery
    (events : Table Uuid AuditEvent) (claims : Claims Uuid)
    (filters : AuditFilters) : List (Condition Uuid AuditEvent) :=
  List.flatten [[fun _ event => event.tenantId = claims.tid],
    given filters.actorUserId fun actorUserId _ event =>
      event.actorUserId = some actorUserId,
    given filters.action fun action _ event => event.action = action,
    given filters.resourceType fun resourceType _ event =>
      event.resourceType = resourceType,
    given filters.resourceId fun resourceId _ event =>
      event.resourceId = some resourceId,
    given filters.outcome fun outcome _ event => event.outcome = outcome,
    given filters.since fun since _ event => since ≤ event.occurredAt.val,
    given filters.until_ fun until_ _ event => event.occurredAt.val ≤ until_,
    if filters.onlyNotificationStatus then
      [fun _ event => event.action ∈ notificationStatusActions]
    else [],
    given filters.notificationId fun notificationId id _ =>
      id ∈ notificationEventIds events claims notificationId]

/-- The query of a request, with the condition of a cursor. -/
def queryAfter
    (events : Table Uuid AuditEvent) (claims : Claims Uuid)
    (filters : AuditFilters) (cursor : Option (Instant × Uuid)) :
    Finset Uuid :=
  events.select (allOf (baseQuery events claims filters ++
    given cursor fun cursor id event =>
      beforeCursor cursor event.occurredAt.val id))

/-- `order_by(occurred_at.desc(), id.desc()).limit(limit)`. -/
def latestEvents
    (events : Table Uuid AuditEvent) (ids : Finset Uuid) (limit : ℕ) :
    List (Uuid × AuditEvent) :=
  ((events.fetch (fun _ event => event.occurredAt.val) ids).reverse).take limit

/-! ## Lists -/

structure AuditEventOut where
  id : Uuid
  event : AuditEvent
  location : Location

/-- `_to_out`. -/
def toOut (state : AuditState) (entry : Uuid × AuditEvent) : AuditEventOut :=
  ⟨entry.1, entry.2, state.location entry.1 entry.2⟩

structure AuditEventList where
  events : List AuditEventOut
  nextCursor : Option Text

/-- `_decode_cursor` on the cursor of a request, if there is one. -/
def readCursor (cursor : Option Text) :
    Except Problem (Option (Instant × Uuid)) :=
  match cursor with
  | none => .ok none
  | some text => (decodeCursor text).map some

/-- `_paginated`. -/
def paginated
    (state : AuditState) (claims : Claims Uuid) (filters : AuditFilters)
    (cursor : Option Text) (limit : ℕ) : Except Problem AuditEventList :=
  (readCursor cursor).map fun cursor =>
    let selected := queryAfter state.events claims filters cursor
    let (rows, nextCursor) := page
      (latestEvents state.events selected (limit + 1)) limit fun entry =>
        encodeCursor entry.2.occurredAt entry.1
    ⟨rows.map (toOut state), nextCursor⟩

section Requests

variable (state : AuditState) (claims : Claims Uuid)

/-- `list_audit_events`. -/
def listAuditEvents
    (actorUserId : Option Uuid) (action resourceType : Option Text)
    (resourceId : Option Uuid) (outcome : Option AuditOutcome)
    (since until_ : Option Instant) (cursor : Option Text) (limit : ℕ) :
    Except Problem AuditEventList := do
  requireAdmin claims.toAccessClaims
  paginated state claims
    ⟨actorUserId, action, resourceType, resourceId, outcome, since, until_,
      none, false⟩ cursor limit

/-- `list_notification_status_events`. -/
def listNotificationStatusEvents
    (notificationId actorUserId : Option Uuid) (action : Option Text)
    (since until_ : Option Instant) (cursor : Option Text) (limit : ℕ) :
    Except Problem AuditEventList := do
  requireAdmin claims.toAccessClaims
  paginated state claims
    ⟨actorUserId, action, none, none, none, since, until_, notificationId,
      true⟩ cursor limit

end Requests

/-! ## Export -/

/-- `EXPORT_MAX_ROWS`. -/
def exportMaxRows : ℕ := 50000

/-- `EXPORT_BATCH_ROWS`. -/
def exportBatchRows : ℕ := 100

def optionalText (text : Option Text) : Value :=
  (text.map Value.text).getD .null

/-- A moment in UTC, as pydantic writes it. -/
def jsonMoment (moment : Datetime) : Text :=
  (isoformat moment).take ((isoformat moment).length - utcOffset.length) ++
    ['Z']

/-- `model_dump(mode="json")`. -/
def modelDump (out : AuditEventOut) : Value :=
  .object
    [("id".toList, .text (uuidText out.id)),
      ("occurred_at".toList, .text (jsonMoment out.event.occurredAt)),
      ("actor_user_id".toList,
        optionalText (out.event.actorUserId.map uuidText)),
      ("actor_email".toList, .text out.event.actorEmail),
      ("actor_role".toList, .text (roleValue out.event.actorRole)),
      ("action".toList, .text out.event.action),
      ("resource_type".toList, .text out.event.resourceType),
      ("resource_id".toList, optionalText (out.event.resourceId.map uuidText)),
      ("resource_label".toList, optionalText out.event.resourceLabel),
      ("group_id".toList, optionalText out.location.groupId),
      ("group_name".toList, optionalText out.location.groupName),
      ("receiver_id".toList, optionalText out.location.receiverId),
      ("receiver_name".toList, optionalText out.location.receiverName),
      ("outcome".toList, .text out.event.outcome.value),
      ("ip".toList, optionalText out.event.ip),
      ("user_agent".toList, optionalText out.event.userAgent),
      ("request_id".toList, optionalText out.event.requestId),
      ("changes".toList, (out.event.changes.map Value.object).getD .null),
      ("context".toList, (out.event.context.map Value.object).getD .null)]

/-- The blocks of `_righe`, each read in a session of its own. -/
def exportBlocks
    (claims : Claims Uuid) (filters : AuditFilters) (states : ℕ → AuditState)
    (step emitted : ℕ) (cursor : Option (Instant × Uuid)) :
    List (List AuditEventOut) :=
  if emitted < exportMaxRows then
    let selected := queryAfter (states step).events claims filters cursor
    let rows := latestEvents (states step).events selected exportBatchRows
    if rows = [] then []
    else
      let records := rows.map (toOut (states step))
      if rows.length < exportBatchRows then [records]
      else
        records :: exportBlocks claims filters states (step + 1)
          (emitted + rows.length)
          (rows.getLast?.map fun entry => (entry.2.occurredAt.val, entry.1))
  else []
termination_by exportMaxRows - emitted
decreasing_by
  have hpositive : 0 < rows.length := List.length_pos_iff.mpr ‹_›
  exact Nat.sub_lt_sub_left ‹_› (Nat.lt_add_of_pos_right hpositive)

/-- What `_righe` yields for `format=json`. -/
def jsonChunks (blocks : List (List Value)) : List (List UInt8) :=
  utf8Encode ['['] :: (JsonText.pieces blocks).map utf8Encode ++
    [utf8Encode [']']]

/-- The answer of the export: a 422 which tells the maximum, or a body. -/
inductive ExportAnswer
  | tooMany (problem : Problem) (maxRows : ℕ)
  | body (chunks : List (List UInt8))

/-- `export_audit_events` for `format=json`: the count is that of the session of
the request, the blocks follow. -/
def exportAuditEvents
    (counted : AuditState) (states : ℕ → AuditState) (claims : Claims Uuid)
    (filters : AuditFilters) : Except Problem ExportAnswer := do
  requireAdmin claims.toAccessClaims
  let count := min (queryAfter counted.events claims filters none).card
    (exportMaxRows + 1)
  if exportMaxRows < count then
    return .tooMany
      (validationError
        ("The filters select more than 50000 events. " ++
          "Narrow the date range and retry.").toList) exportMaxRows
  else
    return .body (jsonChunks
      ((exportBlocks claims filters states 0 0 none).map (List.map modelDump)))

end NotifyHub.AuditLog
