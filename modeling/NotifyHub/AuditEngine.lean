import NotifyHub.IsoFormat
import NotifyHub.ExpectedSchedule
import Mathlib.Tactic

/-!
# The audit engine

What the `before_flush` hook makes of the objects of a session: one event for
each row inserted, changed in an audited field or deleted, with the fields
before and after.  The actor is the one of the request.
-/

namespace NotifyHub.Audit

/-! ## Mapped classes -/

/-- The mapped classes which requests write; the last two are not audited. -/
inductive Model
  | user
  | invitation
  | group
  | receiver
  | severityRule
  | severityPreset
  | severityPresetRule
  | receiverSeverityPreset
  | deliveryChannel
  | groupChannelBinding
  | receiverChannelOverride
  | userGroupMembership
  | tenant
  | notification
  | delivery
  | refreshToken
  deriving DecidableEq

abbrev Column := Text

/-- The value of a mapped attribute; `null` is `None`. -/
inductive Value
  | null
  | bool (value : Bool)
  | int (value : ℤ)
  | text (value : Text)
  | enumeration (value : Text)
  | uuid (text : Text)
  | moment (value : Datetime)
  | bytes (value : List UInt8)
  deriving DecidableEq

abbrev Row := Column → Value

def timestampColumns : List Column := ["created_at".toList, "updated_at".toList]

/-- The keys of `mapper.column_attrs`; the columns of the last two classes are
of no use here. -/
def Model.columns : Model → List Column
  | .user =>
      ["id", "tenant_id", "email", "password_hash", "role", "status",
        "last_login_at"].map String.toList ++ timestampColumns
  | .invitation =>
      ["id", "tenant_id", "email", "role", "token_hash", "expires_at",
        "accepted_at", "invited_by"].map String.toList
  | .group =>
      ["id", "tenant_id", "name", "description"].map String.toList ++
        timestampColumns
  | .receiver =>
      ["id", "tenant_id", "group_id", "slug", "name", "status",
        "ingestion_module", "default_severity", "exit_code_severity",
        "duration_threshold_seconds", "duration_severity", "max_body_bytes",
        "rate_limit_per_min", "expected_every_seconds", "expected_cron",
        "expected_timezone", "expected_grace_seconds", "missing_severity",
        "expected_since", "last_notification_at", "last_start_at",
        "missing_alerted_at"].map String.toList ++ timestampColumns
  | .severityRule =>
      ["id", "tenant_id", "receiver_id", "priority", "pattern",
        "case_insensitive", "severity", "enabled"].map String.toList ++
        timestampColumns
  | .severityPreset =>
      ["id", "tenant_id", "builtin_key", "name", "description"].map
        String.toList ++ timestampColumns
  | .severityPresetRule =>
      ["id", "tenant_id", "preset_id", "priority", "pattern",
        "case_insensitive", "severity", "enabled"].map String.toList ++
        timestampColumns
  | .receiverSeverityPreset =>
      ["id", "tenant_id", "receiver_id", "preset_id", "position"].map
        String.toList ++ timestampColumns
  | .deliveryChannel =>
      ["id", "tenant_id", "name", "type", "webhook_url", "enabled",
        "last_success_at", "last_error_at", "last_error"].map String.toList ++
        timestampColumns
  | .groupChannelBinding =>
      ["id", "tenant_id", "group_id", "channel_id", "min_severity",
        "enabled"].map String.toList ++ timestampColumns
  | .receiverChannelOverride =>
      ["id", "tenant_id", "receiver_id", "channel_id", "mode",
        "min_severity"].map String.toList ++ timestampColumns
  | .userGroupMembership =>
      ["id", "tenant_id", "user_id", "group_id"].map String.toList ++
        timestampColumns
  | .tenant =>
      ["id", "name", "slug", "max_body_bytes", "max_notifications_per_day",
        "max_storage_bytes", "retention_days", "audit_retention_days",
        "status"].map String.toList ++ timestampColumns
  | .notification =>
      ["id", "tenant_id", "receiver_id", "storage_backend", "content",
        "storage_key", "content_preview", "content_size",
        "content_normalized", "severity", "severity_source",
        "matched_pattern", "duration_ms", "exit_code", "phase", "status",
        "verified", "read_by", "read_at", "verified_by", "verified_at",
        "received_at", "source_ip", "meta"].map String.toList
  | .delivery => []
  | .refreshToken => []

/-! ## Specifications -/

structure ResourceSpec where
  resourceType : Text
  labelAttr : Option Column
  fields : Option (List Column)
  ignored : List Column

/-- A resource all of whose fields are told. -/
def fullSpec (resourceType : String) (labelAttr : Option String)
    (ignored : List String) : ResourceSpec where
  resourceType := resourceType.toList
  labelAttr := labelAttr.map String.toList
  fields := none
  ignored := ignored.map String.toList

/-- `RESOURCE_SPECS`. -/
def Model.spec : Model → Option ResourceSpec
  | .user => some (fullSpec "user" (some "email") ["last_login_at"])
  | .invitation => some (fullSpec "invitation" (some "email") [])
  | .group => some (fullSpec "group" (some "name") [])
  | .receiver =>
      some (fullSpec "receiver" (some "name")
        ["last_notification_at", "last_start_at", "missing_alerted_at",
          "expected_since"])
  | .severityRule => some (fullSpec "severity_rule" (some "pattern") [])
  | .severityPreset => some (fullSpec "severity_preset" (some "name") [])
  | .severityPresetRule =>
      some (fullSpec "severity_preset_rule" (some "pattern") [])
  | .receiverSeverityPreset =>
      some (fullSpec "receiver_severity_preset" none [])
  | .deliveryChannel =>
      some (fullSpec "delivery_channel" (some "name")
        ["last_success_at", "last_error_at", "last_error"])
  | .groupChannelBinding => some (fullSpec "group_channel_binding" none [])
  | .receiverChannelOverride =>
      some (fullSpec "receiver_channel_override" none [])
  | .userGroupMembership => some (fullSpec "user_group_membership" none [])
  | .tenant => some (fullSpec "tenant" (some "name") [])
  | .notification =>
      some
        { resourceType := "notification".toList
          labelAttr := some "content_preview".toList
          fields := some ["status".toList, "verified".toList]
          ignored := [] }
  | .delivery => none
  | .refreshToken => none

/-- `ALWAYS_IGNORED`. -/
def alwaysIgnored : List Column := timestampColumns

/-- `MASKED_FIELDS`. -/
def maskedFields : List Column :=
  ["password_hash", "token_hash", "webhook_url", "content",
    "content_preview"].map String.toList

/-- `_auditable_fields`. -/
def auditableFields (model : Model) (spec : ResourceSpec) : List Column :=
  match spec.fields with
  | some fields => model.columns.filter fun column => column ∈ fields
  | none =>
      model.columns.filter fun column =>
        column ∉ alwaysIgnored && column ∉ spec.ignored

/-! ## Values -/

/-- A value of the `changes` of an event. -/
inductive Json
  | null
  | bool (value : Bool)
  | int (value : ℤ)
  | text (value : Text)
  deriving DecidableEq

def maxLabelChars : ℕ := 255

def maxValueChars : ℕ := 500

def redacted : Json := .text "[redacted]".toList

/-- `_jsonable`. -/
def jsonable : Value → Json
  | .null => .null
  | .bool value => .bool value
  | .int value => .int value
  | .enumeration value => .text value
  | .uuid text => .text text
  | .moment value => .text (isoformat value)
  | .bytes value =>
      .text ('<' :: (toString value.length).toList ++ " bytes>".toList)
  | .text value =>
      .text (if value.length ≤ maxValueChars then value
        else value.take maxValueChars ++ ['…'])

/-- `_masked`. -/
def masked (column : Column) (value : Value) : Json :=
  if column ∈ maskedFields then redacted else jsonable value

/-- `str`, on the classes of the label attributes: they hold texts. -/
def labelText : Value → Option Text
  | .text value => some value
  | _ => none

/-- `_label_for`. -/
def labelFor (spec : ResourceSpec) (row : Row) : Option Text :=
  spec.labelAttr.bind fun attr =>
    (labelText (row attr)).bind fun raw =>
      let text := strip (raw.map fun char => if char = '\n' then ' ' else char)
      if text = [] then none else some (text.take maxLabelChars)

structure Change where
  before : Json
  after : Json
  deriving DecidableEq

abbrev Changes := List (Column × Change)

/-- `_changes_for_update`. -/
def changesForUpdate (model : Model) (spec : ResourceSpec) (before after : Row) :
    Changes :=
  (auditableFields model spec).filterMap fun column =>
    if before column = after column then none
    else some (column, ⟨masked column (before column),
      masked column (after column)⟩)

/-- `_changes_for_insert`. -/
def changesForInsert (model : Model) (spec : ResourceSpec) (row : Row) :
    Changes :=
  (auditableFields model spec).filterMap fun column =>
    if row column = .null then none
    else some (column, ⟨.null, masked column (row column)⟩)

/-! ## Events -/

/-- The actor of a request. -/
structure AuditContext where
  tenantId : Text
  actorUserId : Text
  actorEmail : Text
  actorRole : UserRole
  ip : Option Text
  userAgent : Option Text
  requestId : Option Text
  deriving DecidableEq

/-- `context` of the explicit events. -/
inductive EventContext (Id : Type)
  | none
  | logout (revokeAll : Bool)
  | bulkRead (count : ℕ) (notificationIds : Option (List Id))
  deriving DecidableEq

/-- A row of `audit_events`; `changes` is NULL when it is empty. -/
structure AuditEvent (Id : Type) where
  tenantId : Text
  actorUserId : Text
  actorEmail : Text
  actorRole : UserRole
  action : Text
  resourceType : Text
  resourceId : Option Id
  resourceLabel : Option Text
  changes : Changes
  context : EventContext Id
  ip : Option Text
  userAgent : Option Text
  requestId : Option Text
  deriving DecidableEq

def maxEmailChars : ℕ := 320

def maxUserAgentChars : ℕ := 255

/-- `record_event`, called for the actor of the request. -/
def recordEvent {Id : Type} (ctx : AuditContext) (tenantId action resourceType : Text)
    (resourceId : Option Id) (resourceLabel : Option Text) (changes : Changes)
    (context : EventContext Id) : AuditEvent Id where
  tenantId := tenantId
  actorUserId := ctx.actorUserId
  actorEmail := ctx.actorEmail.take maxEmailChars
  actorRole := ctx.actorRole
  action := action
  resourceType := resourceType
  resourceId := resourceId
  resourceLabel := resourceLabel.map fun label => label.take maxLabelChars
  changes := changes
  context := context
  ip := ctx.ip
  userAgent := ctx.userAgent.map fun agent => agent.take maxUserAgentChars
  requestId := ctx.requestId

def markedRead : Text := "notification.marked_read".toList

def markedUnread : Text := "notification.marked_unread".toList

def markedVerified : Text := "notification.marked_verified".toList

def markedUnverified : Text := "notification.marked_unverified".toList

def notificationDeleted : Text := "notification.deleted".toList

def bulkMarkedRead : Text := "notification.bulk_marked_read".toList

def statusColumn : Column := "status".toList

def verifiedColumn : Column := "verified".toList

/-- The action of a change of a column, with what it tells. -/
def columnAction (changes : Changes) (column : Column) (name : Change → Text) :
    List (Text × Column × Change) :=
  (changes.find? fun entry => entry.1 = column).toList.map fun entry =>
    (name entry.2, column, entry.2)

/-- `_notification_actions`, each with the field which it tells. -/
def notificationActions (changes : Changes) : List (Text × Column × Change) :=
  columnAction changes statusColumn
      (fun change =>
        if change.after = .text "read".toList then markedRead
        else markedUnread) ++
    columnAction changes verifiedColumn
      (fun change =>
        if change.after = .bool true then markedVerified else markedUnverified)

/-- The identity of a row. -/
structure Key (Id : Type) where
  model : Model
  id : Id
  deriving DecidableEq

/-- An object of `session.new`, `session.dirty` or `session.deleted`. -/
inductive Pending (Id : Type)
  | created (key : Key Id) (row : Row)
  | updated (key : Key Id) (before after : Row)
  | deleted (key : Key Id) (row : Row)

/-- `getattr(obj, "tenant_id", None) or ctx.tenant_id`. -/
def tenantOf (ctx : AuditContext) (row : Row) : Text :=
  match row "tenant_id".toList with
  | .uuid text => text
  | _ => ctx.tenantId

section Collect

variable {Id : Type} (ctx : AuditContext)

def plainEvent (spec : ResourceSpec) (key : Key Id) (row : Row)
    (kind : String) (changes : Changes) : AuditEvent Id :=
  recordEvent ctx (tenantOf ctx row)
    (spec.resourceType ++ '.' :: kind.toList) spec.resourceType (some key.id)
    (labelFor spec row) changes .none

/-- `collect`, and the event which is recorded of it. -/
def collect : Pending Id → List (AuditEvent Id)
  | .created key row =>
      match key.model.spec with
      | none => []
      | some spec =>
          -- Notifications come from ingestions, which have no actor.
          if key.model = .notification then []
          else
            [plainEvent ctx spec key row "created"
              (changesForInsert key.model spec row)]
  | .updated key before after =>
      match key.model.spec with
      | none => []
      | some spec =>
          let changes := changesForUpdate key.model spec before after
          if changes = [] then []
          else if key.model = .notification then
            (notificationActions changes).map fun (action, column, change) =>
              recordEvent ctx (tenantOf ctx after) action spec.resourceType
                (some key.id) (labelFor spec after) [(column, change)] .none
          else [plainEvent ctx spec key after "updated" changes]
  | .deleted key row =>
      match key.model.spec with
      | none => []
      | some spec =>
          if key.model = .notification then
            [recordEvent ctx (tenantOf ctx row) notificationDeleted
              spec.resourceType (some key.id) none [] .none]
          else [plainEvent ctx spec key row "deleted" []]

/-- `_pending_events`, with what `_audit_before_flush` records of them. -/
def pendingEvents (pending : List (Pending Id)) : List (AuditEvent Id) :=
  pending.flatMap (collect ctx)

end Collect

end NotifyHub.Audit
