import NotifyHub.DashboardTables
import Mathlib.Tactic

/-!
# Lists of the dashboard

The endpoints which list notifications, deliveries, receivers and groups, and
the summary of the home page.  Every WHERE clause is a list of conditions, as
the endpoints collect them.
-/

namespace NotifyHub.Dashboard

/-- Where the database puts the rows whose order a query leaves open. -/
structure Places (Id : Type) where
  group : Id → ℕ
  receiver : Id → ℕ

/-- What the endpoints take from elsewhere: the collation of the database, the
places of rows with equal names and its ILIKE on a pattern with escapes, the
coding of cursors, the schedule library, and the URL of the instance for a
slug. -/
structure Env (Id Key : Type) where
  collate : Text → Key
  places : Places Id
  ilike : Text → Text → Bool
  encodeCursor : Instant → Id → Text
  decodeCursor : Text → Except Problem (Instant × Id)
  library : ScheduleLibrary
  ingestUrl : Text → Text

/-- A `Problem` is an answer; any other exception is a 500. -/
inductive RequestError
  | problem (problem : Problem)
  | uncaught (error : ScheduleError)
  deriving DecidableEq, Repr

/-- One condition of a WHERE clause. -/
abbrev Condition (Id Row : Type) := Id → Row → Bool

/-- A WHERE clause. -/
def allOf {Id Row : Type} (conditions : List (Condition Id Row)) :
    Condition Id Row :=
  fun id row => conditions.all fun condition => condition id row

/-- The condition of an optional parameter. -/
def given {Id Row α : Type}
    (value : Option α) (condition : α → Condition Id Row) :
    List (Condition Id Row) :=
  (value.map condition).toList

@[simp] theorem given_none {Id Row α : Type}
    (condition : α → Condition Id Row) : given none condition = [] := rfl

@[simp] theorem given_some {Id Row α : Type}
    (value : α) (condition : α → Condition Id Row) :
    given (some value) condition = [condition value] := rfl

variable {Id Key : Type} [LinearOrder Id] [LinearOrder Key]

/-! ## Notifications -/

structure NotificationFilters (Id : Type) where
  groupId : Option Id
  receiverId : Option Id
  severityMin : Option Severity
  source : Option SeveritySource
  verified : Option Bool
  q : Option Text
  since : Option Instant
  until_ : Option Instant

/-- The metacharacters of LIKE in a text, escaped. -/
def escapeLike (text : Text) : Text :=
  text.flatMap fun char =>
    if char = '\\' ∨ char = '%' ∨ char = '_' then ['\\', char] else [char]

def searchCondition (env : Env Id Key) (q : Text) :
    Condition Id (Notification Id) :=
  fun _ row =>
    env.ilike ('%' :: escapeLike q ++ ['%'])
      (row.content.getD row.contentPreview)

/-- The conditions on the columns of a notification. -/
def columnConditions
    (env : Env Id Key) (claims : Claims Id) (filters : NotificationFilters Id) :
    List (Condition Id (Notification Id)) :=
  List.flatten [[fun _ row => row.tenantId = claims.tid],
    given filters.receiverId fun receiverId _ row =>
      row.receiverId = receiverId,
    given filters.severityMin fun severity _ row =>
      severity.order ≤ row.severity.order,
    given filters.verified fun verified _ row => row.verified = verified,
    given filters.source fun source _ row => row.severitySource = source,
    given filters.q (searchCondition env),
    given filters.since fun since _ row => since ≤ row.receivedAt,
    given filters.until_ fun until_ _ row => row.receivedAt ≤ until_]

/-- The conditions of the subquery on receivers. -/
def receiverConditions
    (claims : Claims Id) (groupId : Option Id) (allowed : Option (Finset Id)) :
    List (Condition Id (Receiver Id)) :=
  List.flatten [[fun _ row => row.tenantId = claims.tid],
    given groupId fun groupId _ row => row.groupId = groupId,
    given allowed fun allowed _ row => row.groupId ∈ allowed]

/-- `Notification.receiver_id.in_(...)`. -/
def fromReceivers (receivers : Finset Id) : Condition Id (Notification Id) :=
  fun _ row => row.receiverId ∈ receivers

/-- The subquery is left out when it only checks the tenant. -/
def receiverClause
    (state : State Id) (conditions : List (Condition Id (Receiver Id))) :
    List (Condition Id (Notification Id)) :=
  if conditions.length > 1 then
    [fromReceivers (state.receivers.select (allOf conditions))]
  else []

/-- The conditions, whether the caller sees anything, and the groups the
caller sees. -/
structure AppliedFilters (Id : Type) where
  conditions : List (Condition Id (Notification Id))
  visible : Bool
  allowed : Option (Finset Id)

def checkGroup
    (state : State Id) (claims : Claims Id) (groupId : Option Id)
    (write : Bool) : Except Problem Unit :=
  match groupId with
  | some groupId => assertGroupAccess state claims groupId write
  | none => .ok ()

/-- `_apply_filters`. -/
def applyFilters
    (env : Env Id Key) (state : State Id) (claims : Claims Id)
    (filters : NotificationFilters Id) (write : Bool) :
    Except Problem (AppliedFilters Id) :=
  (checkGroup state claims filters.groupId write).map fun () =>
    let columns := columnConditions env claims filters
    let allowed := accessibleGroupIds state claims
    if allowed = some ∅ then ⟨columns, false, allowed⟩
    else
      ⟨columns ++ receiverClause state
        (receiverConditions claims filters.groupId allowed), true, allowed⟩

/-- `func.row(received_at, id) < func.row(...)`. -/
def beforeCursor (cursor : Instant × Id) (receivedAt : Instant) (id : Id) :
    Bool :=
  toLex (receivedAt, id) < toLex cursor

/-- `_decode_cursor` on the cursor of a request, if there is one. -/
def cursorOf (env : Env Id Key) (cursor : Option Text) :
    Except Problem (Option (Instant × Id)) :=
  match cursor with
  | none => .ok none
  | some text => (env.decodeCursor text).map some

def listPreviewChars : ℕ := 500

structure NotificationListItem (Id : Type) where
  id : Id
  receiverId : Id
  contentPreview : Text
  contentSize : ℤ
  contentNormalized : Bool
  storageBackend : Text
  severity : Severity
  severitySource : SeveritySource
  phase : Option NotificationPhase
  durationMs : Option ℤ
  exitCode : Option ℤ
  status : NotificationStatus
  verified : Bool
  readByEmail : Option Text
  readAt : Option Instant
  verifiedByEmail : Option Text
  verifiedAt : Option Instant
  receivedAt : Instant

structure NotificationList (Id : Type) where
  notifications : List (NotificationListItem Id)
  nextCursor : Option Text
  unreadCount : ℕ

instance linearOrder_lawfulBEq {Id : Type} [LinearOrder Id] : LawfulBEq Id :=
  instLawfulBEq

/-- `_handler_emails`, with one email looked up. -/
def handlerEmail
    (emails : Table Id Text) (rows : List (Id × Notification Id))
    (handler : Option Id) : Option Text :=
  let ids := rows.flatMap fun row =>
    row.2.readBy.toList ++ row.2.verifiedBy.toList
  handler.bind fun id => if id ∈ ids then emails.find id else none

def listItem
    (emails : Table Id Text) (rows : List (Id × Notification Id))
    (entry : Id × Notification Id) : NotificationListItem Id :=
  let (id, row) := entry
  { id := id
    receiverId := row.receiverId
    contentPreview := row.contentPreview.take listPreviewChars
    contentSize := row.contentSize
    contentNormalized := row.contentNormalized
    storageBackend := row.storageBackend.value
    severity := row.severity
    severitySource := row.severitySource
    phase := row.phase
    durationMs := row.durationMs
    exitCode := row.exitCode
    status := row.status
    verified := row.verified
    readByEmail := handlerEmail emails rows row.readBy
    readAt := row.readAt
    verifiedByEmail := handlerEmail emails rows row.verifiedBy
    verifiedAt := row.verifiedAt
    receivedAt := row.receivedAt }

/-- The receivers of the visible groups, for the counters. -/
def visibleReceivers
    (state : State Id) (claims : Claims Id) (allowed : Finset Id) : Finset Id :=
  state.receivers.select fun _ row =>
    row.tenantId = claims.tid && row.groupId ∈ allowed

def unreadConditions
    (state : State Id) (claims : Claims Id) (allowed : Option (Finset Id)) :
    List (Condition Id (Notification Id)) :=
  List.flatten [[fun _ row => row.tenantId = claims.tid,
      fun _ row => row.status = .unread],
    given allowed fun allowed =>
      fromReceivers (visibleReceivers state claims allowed)]

/-- The first `limit` rows, and the cursor of the last one if there are
more. -/
def page {Row : Type}
    (rows : List Row) (limit : ℕ) (cursor : Row → Text) :
    List Row × Option Text :=
  (rows.take limit,
    if limit < rows.length then (rows.take limit).getLast?.map cursor else none)

/-- The conditions of a page: the filters, the status and the cursor. -/
def pageConditions
    (applied : AppliedFilters Id) (status : Option NotificationStatus)
    (cursor : Option (Instant × Id)) : List (Condition Id (Notification Id)) :=
  List.flatten [applied.conditions,
    given status fun status _ row => row.status = status,
    given cursor fun cursor id row =>
      beforeCursor cursor row.receivedAt id]

/-- `order_by(received_at.desc(), id.desc()).limit(limit + 1)`. -/
def latest
    (notifications : Table Id (Notification Id)) (ids : Finset Id)
    (limit : ℕ) : List (Id × Notification Id) :=
  ((notifications.fetch (fun _ row => row.receivedAt) ids).reverse).take
    (limit + 1)

def listNotifications
    (env : Env Id Key) (state : State Id) (claims : Claims Id)
    (filters : NotificationFilters Id) (status : Option NotificationStatus)
    (cursor : Option Text) (limit : ℕ) :
    Except Problem (NotificationList Id) := do
  let applied ← applyFilters env state claims filters false
  if applied.visible then
    let cursor ← cursorOf env cursor
    let selected :=
      state.notifications.select (allOf (pageConditions applied status cursor))
    let (rows, nextCursor) := page (latest state.notifications selected limit)
      limit fun entry => env.encodeCursor entry.2.receivedAt entry.1
    let unread :=
      state.notifications.select
        (allOf (unreadConditions state claims applied.allowed))
    return ⟨rows.map (listItem state.emails rows), nextCursor, unread.card⟩
  else
    return ⟨[], none, 0⟩

/-! ## Deliveries -/

/-- A row of the join of a delivery with its notification and receiver. -/
structure JoinedDelivery (Id : Type) where
  delivery : Delivery Id
  notification : Notification Id
  receiver : Receiver Id

/-- The two inner joins. -/
def joinDelivery (state : State Id) (delivery : Delivery Id) :
    Option (JoinedDelivery Id) :=
  (state.notifications.find delivery.notificationId).bind fun notification =>
    (state.receivers.find notification.receiverId).map fun receiver =>
      ⟨delivery, notification, receiver⟩

def deliveryConditions
    (claims : Claims Id) (status : Option DeliveryStatus)
    (channelId : Option Id) (allowed : Option (Finset Id))
    (cursor : Option (Instant × Id)) : List (Condition Id (JoinedDelivery Id)) :=
  List.flatten [[fun _ row => row.delivery.tenantId = claims.tid],
    given status fun status _ row => row.delivery.status = status,
    given channelId fun channelId _ row => row.delivery.channelId = channelId,
    given allowed fun allowed _ row => row.receiver.groupId ∈ allowed,
    given cursor fun cursor id row =>
      beforeCursor cursor row.notification.receivedAt id]

/-- A condition on the row of the join, if the joins have one. -/
def whereJoined
    (state : State Id) (condition : Condition Id (JoinedDelivery Id)) :
    Condition Id (Delivery Id) :=
  fun id delivery => (joinDelivery state delivery).any (condition id)

/-- The moment by which deliveries are in order. -/
def deliveryMoment (state : State Id) (delivery : Delivery Id) :
    WithBot Instant :=
  match joinDelivery state delivery with
  | some row => row.notification.receivedAt
  | none => ⊥

/-- A selected row of the list, with the name from the outer join. -/
structure DeliveryRow (Id : Type) where
  id : Id
  joined : JoinedDelivery Id
  channelName : Option Text

def deliveryPreviewChars : ℕ := 160

structure DeliveryItem (Id : Type) where
  id : Id
  notificationId : Id
  channelId : Id
  channelName : Text
  receiverName : Text
  severity : Severity
  contentPreview : Text
  receivedAt : Instant
  status : DeliveryStatus
  attempts : ℤ
  nextAttemptAt : Instant
  lockedAt : Option Instant
  responseCode : Option ℤ
  lastError : Option Text
  sentAt : Option Instant

structure DeliveryList (Id : Type) where
  deliveries : List (DeliveryItem Id)
  nextCursor : Option Text

/-- `channel_name or "(canale rimosso)"`. -/
def channelNameOr (name : Option Text) : Text :=
  match name with
  | some [] | none => "(canale rimosso)".toList
  | some name => name

/-- `_delivery_out`. -/
def deliveryOut (row : DeliveryRow Id) : DeliveryItem Id :=
  let ⟨delivery, notification, receiver⟩ := row.joined
  { id := row.id
    notificationId := delivery.notificationId
    channelId := delivery.channelId
    channelName := channelNameOr row.channelName
    receiverName := receiver.name
    severity := notification.severity
    contentPreview := notification.contentPreview.take deliveryPreviewChars
    receivedAt := notification.receivedAt
    status := delivery.status
    attempts := delivery.attempts
    nextAttemptAt := delivery.nextAttemptAt
    lockedAt := delivery.lockedAt
    responseCode := delivery.responseCode
    lastError := delivery.lastError
    sentAt := delivery.sentAt }

/-- The rows of the joins in the order of the list. -/
def latestDeliveries (state : State Id) (ids : Finset Id) (limit : ℕ) :
    List (DeliveryRow Id) :=
  (((state.deliveries.fetch (fun _ row => deliveryMoment state row)
    ids).reverse).take (limit + 1)).filterMap fun entry =>
      (joinDelivery state entry.2).map fun joined =>
        ⟨entry.1, joined, state.channelNames.find entry.2.channelId⟩

def listDeliveries
    (env : Env Id Key) (state : State Id) (claims : Claims Id)
    (status : Option DeliveryStatus) (channelId : Option Id)
    (cursor : Option Text) (limit : ℕ) : Except Problem (DeliveryList Id) :=
  let allowed := accessibleGroupIds state claims
  if allowed = some ∅ then .ok ⟨[], none⟩
  else
    (cursorOf env cursor).map fun cursor =>
      let selected := state.deliveries.select (whereJoined state
        (allOf (deliveryConditions claims status channelId allowed cursor)))
      let (rows, nextCursor) := page (latestDeliveries state selected limit)
        limit fun row =>
          env.encodeCursor row.joined.notification.receivedAt row.id
      ⟨rows.map deliveryOut, nextCursor⟩

/-! ## Receivers -/

/-- `ORDER BY Receiver.name`. -/
def receiverOrder
    (env : Env Id Key) (id : Id) (row : Receiver Id) : Key ×ₗ ℕ :=
  toLex (env.collate row.name, env.places.receiver id)

structure ReceiverOut (Id : Type) where
  id : Id
  receiver : Receiver Id
  ingestUrl : Text
  expectedDeadlineAt : Option Instant
  expectedLate : Bool

/-- `_receiver_out` at a reading of the clock; a wait which cannot be computed
has no deadline. -/
def receiverOut
    (env : Env Id Key) (now : Instant) (entry : Id × Receiver Id) :
    Except ScheduleError (ReceiverOut Id) :=
  let (id, receiver) := entry
  let out : ReceiverOut Id :=
    ⟨id, receiver, env.ingestUrl receiver.slug, none, false⟩
  match scheduleFromReceiver receiver.policy,
    referenceInstant receiver.policy with
  | some schedule, some reference =>
      match alertDeadline env.library schedule reference with
      | .ok deadline =>
          .ok
            { out with
              expectedDeadlineAt := some deadline
              expectedLate := deadline < now }
      | .error (.invalidSchedule _) => .ok out
      | .error error => .error error
  | _, _ => .ok out

/-- Every receiver of a list is rendered at a reading of its own. -/
def receiversOut
    (env : Env Id Key) (clock : ℕ → Instant) (rows : List (Id × Receiver Id)) :
    Except RequestError (List (ReceiverOut Id)) :=
  match (rows.mapIdx fun position entry =>
    receiverOut env (clock position) entry).mapM id with
  | .ok receivers => .ok receivers
  | .error error => .error (.uncaught error)

/-- `GET /groups/{group_id}/receivers`. -/
def listReceivers
    (env : Env Id Key) (clock : ℕ → Instant) (state : State Id)
    (claims : Claims Id) (groupId : Id) :
    Except RequestError (List (ReceiverOut Id)) :=
  match assertGroupAccess state claims groupId false with
  | .error problem => .error (.problem problem)
  | .ok () =>
      receiversOut env clock
        (state.receivers.fetch (receiverOrder env)
          (state.receivers.select fun _ row =>
            row.groupId = groupId && row.tenantId = claims.tid))

/-- `GET /receivers`. -/
def listAllReceivers
    (env : Env Id Key) (clock : ℕ → Instant) (state : State Id)
    (claims : Claims Id) : Except RequestError (List (ReceiverOut Id)) :=
  let allowed := accessibleGroupIds state claims
  if allowed = some ∅ then .ok []
  else
    receiversOut env clock
      (state.receivers.fetch (receiverOrder env)
        (state.receivers.select
          (allOf (receiverConditions claims none allowed))))

/-! ## Groups -/

/-- `ORDER BY Group.name`. -/
def groupOrder (env : Env Id Key) (id : Id) (row : Group Id) : Key ×ₗ ℕ :=
  toLex (env.collate row.name, env.places.group id)

structure GroupOut (Id : Type) where
  id : Id
  name : Text
  description : Option Text
  receiverCount : ℕ
  notificationCount : ℕ
  unreadCount : ℕ

/-- The receivers which are counted for one of the listed groups. -/
def countedReceivers
    (state : State Id) (claims : Claims Id) (groupIds : List Id)
    (groupId : Id) : Finset Id :=
  state.receivers.select fun _ row =>
    row.tenantId = claims.tid && row.groupId ∈ groupIds &&
      row.groupId = groupId

/-- The entry of `_receiver_counts` for a group, 0 where there is none. -/
def receiverCount
    (state : State Id) (claims : Claims Id) (groupIds : List Id)
    (groupId : Id) : ℕ :=
  (countedReceivers state claims groupIds groupId).card

/-- The count of the join of `_notification_counts` for a group and a
status. -/
def notificationCount
    (state : State Id) (claims : Claims Id) (groupIds : List Id)
    (groupId : Id) (status : NotificationStatus) : ℕ :=
  (state.notifications.select fun _ row =>
    row.receiverId ∈ countedReceivers state claims groupIds groupId &&
      row.status = status).card

def groupOut
    (state : State Id) (claims : Claims Id) (groupIds : List Id)
    (entry : Id × Group Id) : GroupOut Id :=
  let count := notificationCount state claims groupIds entry.1
  { id := entry.1
    name := entry.2.name
    description := entry.2.description
    receiverCount := receiverCount state claims groupIds entry.1
    notificationCount := count .unread + count .read
    unreadCount := count .unread }

def groupConditions (claims : Claims Id) (allowed : Option (Finset Id)) :
    List (Condition Id (Group Id)) :=
  List.flatten [[fun _ row => row.tenantId = claims.tid],
    given allowed fun allowed id _ => id ∈ allowed]

def listGroups
    (env : Env Id Key) (state : State Id) (claims : Claims Id) :
    List (GroupOut Id) :=
  let allowed := accessibleGroupIds state claims
  if allowed = some ∅ then []
  else
    let groups := state.groups.fetch (groupOrder env)
      (state.groups.select (allOf (groupConditions claims allowed)))
    groups.map (groupOut state claims (groups.map Prod.fst))

/-! ## Summary -/

structure ReceiverStats (Id : Type) where
  receiverId : Id
  receiverName : Text
  status : ReceiverStatus
  total : ℕ
  unreadCount : ℕ

structure GroupStats (Id : Type) where
  groupId : Id
  groupName : Text
  total : ℕ
  unreadCount : ℕ
  receivers : List (ReceiverStats Id)

structure StatsSummary (Id : Type) where
  totalUnread : ℕ
  bySeverity : List (Severity × ℕ)
  byGroup : List (GroupStats Id)
  notificationsLast24h : ℕ
  deliveriesDead : ℕ

/-- `scope`. -/
def scopeConditions
    (state : State Id) (claims : Claims Id) (allowed : Option (Finset Id)) :
    List (Condition Id (Notification Id)) :=
  List.flatten [[fun _ row => row.tenantId = claims.tid],
    given allowed fun allowed =>
      fromReceivers (visibleReceivers state claims allowed)]

/-- The subquery of `delivery_scope`. -/
def visibleNotifications
    (state : State Id) (claims : Claims Id) (allowed : Finset Id) : Finset Id :=
  state.notifications.select fun _ row =>
    row.tenantId = claims.tid &&
      row.receiverId ∈ visibleReceivers state claims allowed

/-- `delivery_scope`. -/
def deliveryScope
    (state : State Id) (claims : Claims Id) (allowed : Option (Finset Id)) :
    List (Condition Id (Delivery Id)) :=
  List.flatten [[fun _ row => row.tenantId = claims.tid],
    given allowed fun allowed _ row =>
      row.notificationId ∈ visibleNotifications state claims allowed]

def isDead : Condition Id (Delivery Id) := fun _ row => row.status = .dead

/-- How many notifications in scope meet one more condition. -/
def countInScope
    (state : State Id) (claims : Claims Id) (allowed : Option (Finset Id))
    (condition : Condition Id (Notification Id)) : ℕ :=
  (state.notifications.select
    (allOf (scopeConditions state claims allowed ++ [condition]))).card

/-- The entries of the GROUP BY: a severity without notifications has none. -/
def severityCounts
    (state : State Id) (claims : Claims Id) (allowed : Option (Finset Id)) :
    List (Severity × ℕ) :=
  ([.debug, .info, .warning, .error, .critical].map fun severity =>
    (severity, countInScope state claims allowed fun _ row =>
      row.severity = severity)).filter fun entry => 0 < entry.2

/-- A row of the outer joins, grouped: a group with one of its receivers, or
with none. -/
structure GroupRow (Id : Type) where
  groupId : Id
  groupName : Text
  receiver : Option (ReceiverStats Id)

/-- The receivers of a group. -/
def receiversOf (state : State Id) (claims : Claims Id) (groupId : Id) :
    Finset Id :=
  state.receivers.select fun _ row =>
    row.groupId = groupId && row.tenantId = claims.tid

def receiverStats
    (state : State Id) (claims : Claims Id) (entry : Id × Receiver Id) :
    ReceiverStats Id :=
  let notifications (condition : Condition Id (Notification Id)) :=
    (state.notifications.select fun id row =>
      row.receiverId = entry.1 && row.tenantId = claims.tid &&
        condition id row).card
  { receiverId := entry.1
    receiverName := entry.2.name
    status := entry.2.policy.status
    total := notifications fun _ _ => true
    unreadCount := notifications fun _ row => row.status = .unread }

/-- The rows of one group, by the name of the receiver. -/
def rowsOfGroup
    (env : Env Id Key) (state : State Id) (claims : Claims Id)
    (entry : Id × Group Id) : List (GroupRow Id) :=
  match state.receivers.fetch (receiverOrder env)
    (receiversOf state claims entry.1) with
  | [] => [⟨entry.1, entry.2.name, none⟩]
  | receivers =>
      receivers.map fun receiver =>
        ⟨entry.1, entry.2.name, some (receiverStats state claims receiver)⟩

/-- The groups in scope by their names, which are unique in a tenant, and
their rows. -/
def groupRows
    (env : Env Id Key) (state : State Id) (claims : Claims Id)
    (allowed : Option (Finset Id)) : List (GroupRow Id) :=
  (state.groups.fetch (groupOrder env)
    (state.groups.select (allOf (groupConditions claims allowed)))).flatMap
      (rowsOfGroup env state claims)

/-- One turn of the loop over the rows. -/
def addGroupRow (index : List (GroupStats Id)) (row : GroupRow Id) :
    List (GroupStats Id) :=
  let index :=
    if index.any fun entry => entry.groupId = row.groupId then index
    else index ++ [⟨row.groupId, row.groupName, 0, 0, []⟩]
  match row.receiver with
  | none => index
  | some receiver =>
      index.map fun entry =>
        if entry.groupId = row.groupId then
          { entry with
            total := entry.total + receiver.total
            unreadCount := entry.unreadCount + receiver.unreadCount
            receivers := entry.receivers ++ [receiver] }
        else entry

def statsSummary
    (env : Env Id Key) (now : Instant) (state : State Id)
    (claims : Claims Id) : StatsSummary Id :=
  let allowed := accessibleGroupIds state claims
  if allowed = some ∅ then ⟨0, [], [], 0, 0⟩
  else
    let since := now - microsecondsPerDay
    { totalUnread :=
        countInScope state claims allowed fun _ row => row.status = .unread
      bySeverity := severityCounts state claims allowed
      byGroup := (groupRows env state claims allowed).foldl addGroupRow []
      notificationsLast24h :=
        countInScope state claims allowed fun _ row => since ≤ row.receivedAt
      deliveriesDead :=
        (state.deliveries.select
          (allOf (deliveryScope state claims allowed ++ [isDead]))).card }

/-! ## Requests -/

inductive Request (Id : Type)
  | listNotifications (filters : NotificationFilters Id)
      (status : Option NotificationStatus) (cursor : Option Text)
      (limit : { limit : ℕ // 1 ≤ limit ∧ limit ≤ 100 })
  | listDeliveries (status : Option DeliveryStatus) (channelId : Option Id)
      (cursor : Option Text) (limit : { limit : ℕ // 1 ≤ limit ∧ limit ≤ 500 })
  | listReceivers (groupId : Id)
  | listAllReceivers
  | listGroups
  | statsSummary

inductive Response (Id : Type)
  | notifications (out : NotificationList Id)
  | deliveries (out : DeliveryList Id)
  | receivers (out : List (ReceiverOut Id))
  | groups (out : List (GroupOut Id))
  | stats (out : StatsSummary Id)

/-- The response to a request during which the clock shows these readings. -/
def respond
    (env : Env Id Key) (clock : ℕ → Instant) (state : State Id)
    (claims : Claims Id) : Request Id → Except RequestError (Response Id)
  | .listNotifications filters status cursor limit =>
      match listNotifications env state claims filters status cursor limit with
      | .ok out => .ok (.notifications out)
      | .error problem => .error (.problem problem)
  | .listDeliveries status channelId cursor limit =>
      match listDeliveries env state claims status channelId cursor limit with
      | .ok out => .ok (.deliveries out)
      | .error problem => .error (.problem problem)
  | .listReceivers groupId =>
      (listReceivers env clock state claims groupId).map .receivers
  | .listAllReceivers =>
      (listAllReceivers env clock state claims).map .receivers
  | .listGroups => .ok (.groups (listGroups env state claims))
  | .statsSummary => .ok (.stats (statsSummary env (clock 0) state claims))

end NotifyHub.Dashboard
