import NotifyHub.DashboardQueries
import NotifyHub.RowNumbering
import Mathlib.Tactic

/-!
# Groups do not interfere

Two databases which agree on what the groups of a member or viewer hold give
the caller the same responses.  Every query restricts itself to the visible
rows, directly or through a subquery, so it selects the same rows from both;
what is rendered of them refers to visible rows, channels and users.

Receivers and groups are ordered by their names alone.  Where two names are
equal, the order is the database's, and it may be another one next time.
-/

namespace NotifyHub.Dashboard

variable {Id Key : Type} [LinearOrder Id]

/-! ## What the groups of a caller hold -/

def State.ownReceivers (state : State Id) (claims : Claims Id) : Finset Id :=
  state.receivers.select fun _ row => row.groupId ∈ state.ownGroups claims

def State.ownNotifications (state : State Id) (claims : Claims Id) :
    Finset Id :=
  state.notifications.select fun _ row =>
    row.receiverId ∈ state.ownReceivers claims

/-- What an inner join with the receiver of a notification finds in a visible
group. -/
theorem State.mem_ownNotifications
    {state : State Id} {claims : Claims Id} {id : Id}
    {notification : Notification Id} {receiver : Receiver Id}
    (hnotification : state.notifications.find id = some notification)
    (hreceiver : state.receivers.find notification.receiverId = some receiver)
    (hgroup : receiver.groupId ∈ state.ownGroups claims) :
    id ∈ state.ownNotifications claims := by
  obtain ⟨hid, rfl⟩ := Table.find_eq_some.mp hnotification
  obtain ⟨hmem, rfl⟩ := Table.find_eq_some.mp hreceiver
  refine Table.mem_select.mpr ⟨hid, decide_eq_true ?_⟩
  exact Table.mem_select.mpr ⟨hmem, decide_eq_true hgroup⟩

/-- A member or viewer is restricted to the groups of the memberships. -/
theorem accessible_scoped
    (state : State Id) {claims : Claims Id}
    (hscoped : hasFullGroupAccess claims = false) :
    accessibleGroupIds state claims = some (state.ownGroups claims) := by
  simp [accessibleGroupIds, hscoped]

/-- The databases agree on the memberships of the caller, on the rows of the
groups of these memberships, on the channels and on the users. -/
structure Agree (claims : Claims Id) (first second : State Id) : Prop where
  memberships : first.memberships.AgreeWhere second.memberships
    (fun _ row => row.userId = claims.sub && row.tenantId = claims.tid)
    fun _ row => row.userId = claims.sub && row.tenantId = claims.tid
  groups : first.groups.AgreeWhere second.groups
    (fun id _ => id ∈ first.ownGroups claims)
    fun id _ => id ∈ second.ownGroups claims
  receivers : first.receivers.AgreeWhere second.receivers
    (fun _ row => row.groupId ∈ first.ownGroups claims)
    fun _ row => row.groupId ∈ second.ownGroups claims
  notifications : first.notifications.AgreeWhere second.notifications
    (fun _ row => row.receiverId ∈ first.ownReceivers claims)
    fun _ row => row.receiverId ∈ second.ownReceivers claims
  deliveries : first.deliveries.AgreeWhere second.deliveries
    (fun _ row => row.notificationId ∈ first.ownNotifications claims)
    fun _ row => row.notificationId ∈ second.ownNotifications claims
  channelNames : first.channelNames.AgreeWhere second.channelNames
    (fun _ _ => true) fun _ _ => true
  emails : first.emails.AgreeWhere second.emails
    (fun _ _ => true) fun _ _ => true

omit [LinearOrder Id] in
theorem allOf_eq_true {Row : Type}
    {conditions : List (Condition Id Row)} {id : Id} {row : Row} :
    allOf conditions id row = true ↔
      ∀ condition ∈ conditions, condition id row = true :=
  List.all_eq_true

namespace Agree

variable {claims : Claims Id} {first second : State Id}

theorem ownGroups (hagree : Agree claims first second) :
    first.ownGroups claims = second.ownGroups claims := by
  unfold State.ownGroups State.ownMemberships
  rw [← hagree.memberships.ids]
  exact Finset.image_congr fun id hid => by
    rw [hagree.memberships.row id hid]

theorem ownReceivers (hagree : Agree claims first second) :
    first.ownReceivers claims = second.ownReceivers claims :=
  hagree.receivers.ids

theorem ownNotifications (hagree : Agree claims first second) :
    first.ownNotifications claims = second.ownNotifications claims :=
  hagree.notifications.ids

theorem accessible (hagree : Agree claims first second) :
    accessibleGroupIds first claims = accessibleGroupIds second claims := by
  unfold accessibleGroupIds
  rw [hagree.ownGroups]

theorem assertAccess
    (hagree : Agree claims first second) (groupId : Id) (write : Bool) :
    assertGroupAccess first claims groupId write =
      assertGroupAccess second claims groupId write := by
  unfold assertGroupAccess
  rw [hagree.ownGroups]

/-! ### Selections of visible rows -/

theorem select_receivers
    (hagree : Agree claims first second) {condition : Condition Id (Receiver Id)}
    (hvisible : ∀ id row, condition id row = true →
      row.groupId ∈ first.ownGroups claims) :
    first.receivers.select condition = second.receivers.select condition ∧
      first.receivers.select condition ⊆ first.ownReceivers claims :=
  hagree.receivers.select_eq
    (fun id row hrow => decide_eq_true (hvisible id row hrow))
    (fun id row hrow =>
      decide_eq_true (hagree.ownGroups ▸ hvisible id row hrow))
    fun _ _ _ => rfl

theorem select_notifications
    (hagree : Agree claims first second)
    {condition : Condition Id (Notification Id)}
    (hvisible : ∀ id row, condition id row = true →
      row.receiverId ∈ first.ownReceivers claims) :
    first.notifications.select condition =
        second.notifications.select condition ∧
      first.notifications.select condition ⊆ first.ownNotifications claims :=
  hagree.notifications.select_eq
    (fun id row hrow => decide_eq_true (hvisible id row hrow))
    (fun id row hrow =>
      decide_eq_true (hagree.ownReceivers ▸ hvisible id row hrow))
    fun _ _ _ => rfl

/-- The rows of a query on notifications, in its order. -/
theorem fetch_notifications
    (hagree : Agree claims first second)
    {condition : Condition Id (Notification Id)}
    (hvisible : ∀ id row, condition id row = true →
      row.receiverId ∈ first.ownReceivers claims) (limit : ℕ) :
    latest first.notifications (first.notifications.select condition) limit =
      latest second.notifications (second.notifications.select condition)
        limit := by
  obtain ⟨hids, hsubset⟩ := hagree.select_notifications hvisible
  have hrows : first.notifications.fetch (fun _ row => row.receivedAt)
        (first.notifications.select condition) =
      second.notifications.fetch (fun _ row => row.receivedAt)
        (first.notifications.select condition) :=
    (hagree.notifications.agreeOn.mono hsubset).fetch_eq fun _ _ => rfl
  unfold latest
  rw [hrows, hids]

/-- The rows of a query on receivers, in the order of their names. -/
theorem fetch_receivers [LinearOrder Key]
    (hagree : Agree claims first second) (env : Env Id Key)
    {condition : Condition Id (Receiver Id)}
    (hvisible : ∀ id row, condition id row = true →
      row.groupId ∈ first.ownGroups claims) :
    first.receivers.fetch (receiverOrder env)
        (first.receivers.select condition) =
      second.receivers.fetch (receiverOrder env)
        (second.receivers.select condition) := by
  obtain ⟨hids, hsubset⟩ := hagree.select_receivers hvisible
  rw [← hids]
  exact (hagree.receivers.agreeOn.mono hsubset).fetch_eq fun _ _ => rfl

theorem visibleReceivers_eq (hagree : Agree claims first second) :
    visibleReceivers first claims (first.ownGroups claims) =
        visibleReceivers second claims (first.ownGroups claims) ∧
      visibleReceivers first claims (first.ownGroups claims) ⊆
        first.ownReceivers claims := by
  refine hagree.select_receivers fun id row hrow => ?_
  simp only [Bool.and_eq_true, decide_eq_true_eq] at hrow
  exact hrow.2

/-! ### Notifications -/

/-- The conditions of the subquery on receivers include the visible
groups. -/
theorem receiverConditions_visible
    {state : State Id} {groupId : Option Id} {id : Id} {row : Receiver Id}
    (hrow : allOf (receiverConditions claims groupId
      (some (state.ownGroups claims))) id row = true) :
    row.groupId ∈ state.ownGroups claims := by
  have hallowed := allOf_eq_true.mp hrow
    (fun _ row => row.groupId ∈ state.ownGroups claims)
    (by simp [receiverConditions])
  exact of_decide_eq_true hallowed

theorem receiverClause_eq
    (hagree : Agree claims first second) (groupId : Option Id) :
    receiverClause first
        (receiverConditions claims groupId (some (first.ownGroups claims))) =
      receiverClause second
        (receiverConditions claims groupId (some (first.ownGroups claims))) ∧
    ∀ id row,
      allOf (receiverClause first (receiverConditions claims groupId
        (some (first.ownGroups claims)))) id row = true →
      row.receiverId ∈ first.ownReceivers claims := by
  obtain ⟨hids, hsubset⟩ := hagree.select_receivers
    fun id row => @receiverConditions_visible _ _ _ first groupId id row
  have hlong : (receiverConditions claims groupId
      (some (first.ownGroups claims))).length > 1 := by
    simp [receiverConditions]
  unfold receiverClause
  rw [if_pos hlong, if_pos hlong, hids]
  refine ⟨rfl, fun id row hrow => hsubset ?_⟩
  rw [hids]
  have hreceiver := allOf_eq_true.mp hrow _ (List.mem_singleton_self _)
  exact of_decide_eq_true hreceiver

theorem checkGroup_eq
    (hagree : Agree claims first second) (groupId : Option Id) (write : Bool) :
    checkGroup first claims groupId write =
      checkGroup second claims groupId write := by
  cases groupId with
  | none => rfl
  | some groupId => exact hagree.assertAccess groupId write

/-- The filters of the caller, with the groups of the caller. -/
theorem applyFilters_eq
    (hagree : Agree claims first second)
    (hscoped : hasFullGroupAccess claims = false) (env : Env Id Key)
    (filters : NotificationFilters Id) (write : Bool) :
    applyFilters env first claims filters write =
      applyFilters env second claims filters write := by
  have hallowed := accessible_scoped first hscoped
  simp only [applyFilters, hagree.checkGroup_eq, ← hagree.accessible,
    hallowed, (hagree.receiverClause_eq filters.groupId).1]

theorem applyFilters_visible
    (hagree : Agree claims first second)
    (hscoped : hasFullGroupAccess claims = false) {env : Env Id Key}
    {filters : NotificationFilters Id} {write : Bool}
    {applied : AppliedFilters Id}
    (hok : applyFilters env first claims filters write = .ok applied) :
    applied.allowed = some (first.ownGroups claims) ∧
      (applied.visible = true → ∀ id row,
        allOf applied.conditions id row = true →
          row.receiverId ∈ first.ownReceivers claims) := by
  obtain ⟨-, -, rfl⟩ := Except.map_eq_ok.mp hok
  simp only [accessible_scoped first hscoped]
  split
  · exact ⟨rfl, nofun⟩
  · refine ⟨rfl, fun _ id row hrow => ?_⟩
    refine (hagree.receiverClause_eq filters.groupId).2 id row ?_
    refine allOf_eq_true.mpr fun condition hmem => ?_
    exact allOf_eq_true.mp hrow condition (List.mem_append_right _ hmem)

theorem unreadConditions_eq (hagree : Agree claims first second) :
    unreadConditions first claims (some (first.ownGroups claims)) =
        unreadConditions second claims (some (first.ownGroups claims)) ∧
      ∀ id row,
        allOf (unreadConditions first claims
          (some (first.ownGroups claims))) id row = true →
        row.receiverId ∈ first.ownReceivers claims := by
  obtain ⟨hids, hsubset⟩ := hagree.visibleReceivers_eq
  simp only [unreadConditions, given_some, hids]
  refine ⟨trivial, fun id row hrow => hsubset ?_⟩
  rw [hids]
  have hreceiver := allOf_eq_true.mp hrow
    (fromReceivers (visibleReceivers second claims (first.ownGroups claims)))
    (by simp)
  exact of_decide_eq_true hreceiver

theorem handlerEmail_eq
    (hagree : Agree claims first second)
    (rows : List (Id × Notification Id)) (handler : Option Id) :
    handlerEmail first.emails rows handler =
      handlerEmail second.emails rows handler := by
  simp only [handlerEmail, hagree.emails.find_eq]

theorem listNotifications_eq
    (hagree : Agree claims first second)
    (hscoped : hasFullGroupAccess claims = false) (env : Env Id Key)
    (filters : NotificationFilters Id) (status : Option NotificationStatus)
    (cursor : Option Text) (limit : ℕ) :
    listNotifications env first claims filters status cursor limit =
      listNotifications env second claims filters status cursor limit := by
  unfold listNotifications
  rw [← hagree.applyFilters_eq hscoped]
  cases hok : applyFilters env first claims filters false with
  | error problem => rfl
  | ok applied =>
      obtain ⟨hallowed, hvisible⟩ := hagree.applyFilters_visible hscoped hok
      simp only [bind, Except.bind]
      split
      next hsees =>
        cases cursorOf env cursor with
        | error problem => rfl
        | ok cursor =>
            have hpage : ∀ id row,
                allOf (pageConditions applied status cursor) id row = true →
                  row.receiverId ∈ first.ownReceivers claims := by
              intro id row hrow
              refine hvisible hsees id row ?_
              refine allOf_eq_true.mpr fun condition hmem => ?_
              exact allOf_eq_true.mp hrow condition
                (by simp [pageConditions, hmem])
            have hitems := funext fun rows => funext fun entry => by
              show listItem first.emails rows entry =
                listItem second.emails rows entry
              simp only [listItem, hagree.handlerEmail_eq]
            obtain ⟨hunread, hcounted⟩ := hagree.unreadConditions_eq
            have hcount := (hagree.select_notifications hcounted).1
            rw [hunread] at hcount
            simp only [hallowed, hagree.fetch_notifications hpage, hunread,
              hcount, hitems]
      · rfl

/-! ### Deliveries -/

theorem joinDelivery_eq
    (hagree : Agree claims first second) {delivery : Delivery Id}
    (hown : delivery.notificationId ∈ first.ownNotifications claims) :
    joinDelivery first delivery = joinDelivery second delivery := by
  have hnotification := hagree.notifications.agreeOn.find_eq hown
  unfold joinDelivery
  rw [← hnotification]
  cases hfind : first.notifications.find delivery.notificationId with
  | none => rfl
  | some notification =>
      obtain ⟨-, rfl⟩ := Table.find_eq_some.mp hfind
      have hreceiver : (first.notifications.row
          delivery.notificationId).receiverId ∈ first.ownReceivers claims :=
        of_decide_eq_true (Table.mem_select.mp hown).2
      simp only [Option.bind_some, hagree.receivers.agreeOn.find_eq hreceiver]

theorem deliveryConditions_visible
    {state : State Id} {status : Option DeliveryStatus}
    {channelId : Option Id} {cursor : Option (Instant × Id)} {id : Id}
    {delivery : Delivery Id}
    (hrow : whereJoined state (allOf (deliveryConditions claims status channelId
      (some (state.ownGroups claims)) cursor)) id delivery = true) :
    delivery.notificationId ∈ state.ownNotifications claims := by
  obtain ⟨joined, hjoined, hrow⟩ := Option.any_eq_true _ _ |>.mp hrow
  obtain ⟨notification, hnotification, hjoined⟩ :=
    Option.bind_eq_some_iff.mp hjoined
  obtain ⟨receiver, hreceiver, rfl⟩ := Option.map_eq_some_iff.mp hjoined
  refine State.mem_ownNotifications hnotification hreceiver ?_
  have hgroup := allOf_eq_true.mp hrow
    (fun _ row => row.receiver.groupId ∈ state.ownGroups claims)
    (by simp [deliveryConditions])
  exact of_decide_eq_true hgroup

theorem select_deliveries
    (hagree : Agree claims first second) (status : Option DeliveryStatus)
    (channelId : Option Id) (cursor : Option (Instant × Id)) :
    first.deliveries.select (whereJoined first (allOf (deliveryConditions
        claims status channelId (some (first.ownGroups claims)) cursor))) =
      second.deliveries.select (whereJoined second (allOf (deliveryConditions
        claims status channelId (some (first.ownGroups claims)) cursor))) ∧
    first.deliveries.select (whereJoined first (allOf (deliveryConditions
        claims status channelId (some (first.ownGroups claims)) cursor))) ⊆
      first.deliveries.select fun _ row =>
        row.notificationId ∈ first.ownNotifications claims := by
  refine hagree.deliveries.select_eq ?_ ?_ ?_
  · exact fun id row hrow => decide_eq_true (deliveryConditions_visible hrow)
  · intro id row hrow
    rw [hagree.ownGroups] at hrow
    exact decide_eq_true (deliveryConditions_visible hrow)
  · intro id row hown
    have hjoin := hagree.joinDelivery_eq (of_decide_eq_true hown)
    simp only [whereJoined, hjoin]

theorem latestDeliveries_eq
    (hagree : Agree claims first second) {ids : Finset Id}
    (hown : ids ⊆ first.deliveries.select fun _ row =>
      row.notificationId ∈ first.ownNotifications claims) (limit : ℕ) :
    latestDeliveries first ids limit = latestDeliveries second ids limit := by
  have hjoin : ∀ id ∈ ids, joinDelivery first (first.deliveries.row id) =
      joinDelivery second (first.deliveries.row id) := fun id hid =>
    hagree.joinDelivery_eq
      (of_decide_eq_true (Table.mem_select.mp (hown hid)).2)
  have hrows : first.deliveries.fetch
        (fun _ row => deliveryMoment first row) ids =
      second.deliveries.fetch (fun _ row => deliveryMoment second row) ids :=
    (hagree.deliveries.agreeOn.mono hown).fetch_eq fun id hid => by
      simp only [deliveryMoment, hjoin id hid]
  unfold latestDeliveries
  rw [← hrows]
  refine List.filterMap_congr fun entry hentry => ?_
  have hfetched := List.mem_reverse.mp (List.mem_of_mem_take hentry)
  obtain ⟨hid, hrow⟩ := Table.mem_fetch.mp hfetched
  rw [hrow, hjoin entry.1 hid, hagree.channelNames.find_eq]

theorem listDeliveries_eq
    (hagree : Agree claims first second)
    (hscoped : hasFullGroupAccess claims = false) (env : Env Id Key)
    (status : Option DeliveryStatus) (channelId : Option Id)
    (cursor : Option Text) (limit : ℕ) :
    listDeliveries env first claims status channelId cursor limit =
      listDeliveries env second claims status channelId cursor limit := by
  have hallowed := accessible_scoped first hscoped
  simp only [listDeliveries, ← hagree.accessible, hallowed]
  split
  · rfl
  · cases cursorOf env cursor with
    | error problem => rfl
    | ok cursor =>
        obtain ⟨hids, hown⟩ := hagree.select_deliveries status channelId cursor
        simp only [Except.map, ← hids, hagree.latestDeliveries_eq hown]

/-! ### Receivers and groups -/

theorem listReceivers_eq [LinearOrder Key]
    (hagree : Agree claims first second)
    (hscoped : hasFullGroupAccess claims = false) (env : Env Id Key)
    (clock : ℕ → Instant) (groupId : Id) :
    listReceivers env clock first claims groupId =
      listReceivers env clock second claims groupId := by
  unfold listReceivers
  rw [← hagree.assertAccess]
  cases hassert : assertGroupAccess first claims groupId false with
  | error problem => rfl
  | ok _ =>
      have hmember : groupId ∈ first.ownGroups claims := by
        by_contra hother
        simp [assertGroupAccess, hscoped, hother] at hassert
      refine congrArg (receiversOut env clock)
        (hagree.fetch_receivers env fun id row hrow => ?_)
      simp only [Bool.and_eq_true, decide_eq_true_eq] at hrow
      exact hrow.1 ▸ hmember

theorem listAllReceivers_eq [LinearOrder Key]
    (hagree : Agree claims first second)
    (hscoped : hasFullGroupAccess claims = false) (env : Env Id Key)
    (clock : ℕ → Instant) :
    listAllReceivers env clock first claims =
      listAllReceivers env clock second claims := by
  have hallowed := accessible_scoped first hscoped
  simp only [listAllReceivers, ← hagree.accessible, hallowed]
  split
  · rfl
  · exact congrArg (receiversOut env clock)
      (hagree.fetch_receivers env fun _ _ hrow =>
        receiverConditions_visible hrow)

/-- The groups in scope, in the order of their names, are visible ones. -/
theorem fetch_groups [LinearOrder Key]
    (hagree : Agree claims first second) (env : Env Id Key) :
    first.groups.fetch (groupOrder env)
        (first.groups.select
          (allOf (groupConditions claims (some (first.ownGroups claims))))) =
      second.groups.fetch (groupOrder env)
        (second.groups.select
          (allOf (groupConditions claims (some (first.ownGroups claims))))) ∧
    ∀ entry ∈ first.groups.fetch (groupOrder env)
        (first.groups.select
          (allOf (groupConditions claims (some (first.ownGroups claims))))),
      entry.1 ∈ first.ownGroups claims := by
  have hvisible : ∀ id (row : Group Id),
      allOf (groupConditions claims (some (first.ownGroups claims))) id row =
        true → id ∈ first.ownGroups claims := fun id row hrow => by
    have hallowed := allOf_eq_true.mp hrow
      (fun id _ => id ∈ first.ownGroups claims) (by simp [groupConditions])
    exact of_decide_eq_true hallowed
  obtain ⟨hids, hsubset⟩ := hagree.groups.select_eq
    (fun id row hrow => decide_eq_true (hvisible id row hrow))
    (fun id row hrow =>
      decide_eq_true (hagree.ownGroups ▸ hvisible id row hrow))
    fun _ _ _ => rfl
  refine ⟨?_, fun entry hentry => ?_⟩
  · rw [← hids]
    exact (hagree.groups.agreeOn.mono hsubset).fetch_eq fun _ _ => rfl
  · exact hvisible entry.1 _ (Table.mem_select.mp (Table.mem_fetch.mp hentry).1).2

theorem countedReceivers_eq
    (hagree : Agree claims first second) (groupIds : List Id)
    {groupId : Id} (hgroup : groupId ∈ first.ownGroups claims) :
    countedReceivers first claims groupIds groupId =
        countedReceivers second claims groupIds groupId ∧
      countedReceivers first claims groupIds groupId ⊆
        first.ownReceivers claims := by
  refine hagree.select_receivers fun id row hrow => ?_
  simp only [Bool.and_eq_true, decide_eq_true_eq] at hrow
  exact hrow.2 ▸ hgroup

theorem groupOut_eq
    (hagree : Agree claims first second) (groupIds : List Id)
    {entry : Id × Group Id} (hgroup : entry.1 ∈ first.ownGroups claims) :
    groupOut first claims groupIds entry =
      groupOut second claims groupIds entry := by
  obtain ⟨hids, hsubset⟩ :=
    hagree.countedReceivers_eq groupIds hgroup
  have hcount : ∀ status,
      notificationCount first claims groupIds entry.1 status =
        notificationCount second claims groupIds entry.1 status := by
    intro status
    unfold notificationCount
    rw [← hids]
    refine congrArg Finset.card (hagree.select_notifications ?_).1
    intro id row hrow
    simp only [Bool.and_eq_true, decide_eq_true_eq] at hrow
    exact hsubset hrow.1
  simp only [groupOut, receiverCount, hids, hcount]

theorem listGroups_eq [LinearOrder Key]
    (hagree : Agree claims first second)
    (hscoped : hasFullGroupAccess claims = false) (env : Env Id Key) :
    listGroups env first claims = listGroups env second claims := by
  have hallowed := accessible_scoped first hscoped
  simp only [listGroups, ← hagree.accessible, hallowed]
  split
  · rfl
  · obtain ⟨hrows, hvisible⟩ := hagree.fetch_groups env
    rw [← hrows]
    exact List.map_congr_left fun entry hentry =>
      hagree.groupOut_eq _ (hvisible entry hentry)

/-! ### Summary -/

theorem scopeConditions_eq (hagree : Agree claims first second) :
    scopeConditions first claims (some (first.ownGroups claims)) =
        scopeConditions second claims (some (first.ownGroups claims)) ∧
      ∀ id row,
        allOf (scopeConditions first claims
          (some (first.ownGroups claims))) id row = true →
        row.receiverId ∈ first.ownReceivers claims := by
  obtain ⟨hids, hsubset⟩ := hagree.visibleReceivers_eq
  simp only [scopeConditions, given_some, hids]
  refine ⟨trivial, fun id row hrow => hsubset ?_⟩
  rw [hids]
  have hreceiver := allOf_eq_true.mp hrow
    (fromReceivers (visibleReceivers second claims (first.ownGroups claims)))
    (by simp)
  exact of_decide_eq_true hreceiver

/-- Every counter of the summary. -/
theorem countInScope_eq
    (hagree : Agree claims first second)
    (condition : Condition Id (Notification Id)) :
    countInScope first claims (some (first.ownGroups claims)) condition =
      countInScope second claims (some (first.ownGroups claims)) condition := by
  obtain ⟨hscope, hvisible⟩ := hagree.scopeConditions_eq
  unfold countInScope
  rw [← hscope]
  refine congrArg Finset.card (hagree.select_notifications ?_).1
  intro id row hrow
  refine hvisible id row (allOf_eq_true.mpr fun scope hmem => ?_)
  exact allOf_eq_true.mp hrow scope (List.mem_append_left _ hmem)

theorem severityCounts_eq (hagree : Agree claims first second) :
    severityCounts first claims (some (first.ownGroups claims)) =
      severityCounts second claims (some (first.ownGroups claims)) := by
  simp only [severityCounts, hagree.countInScope_eq]

theorem visibleNotifications_eq (hagree : Agree claims first second) :
    visibleNotifications first claims (first.ownGroups claims) =
        visibleNotifications second claims (first.ownGroups claims) ∧
      visibleNotifications first claims (first.ownGroups claims) ⊆
        first.ownNotifications claims := by
  obtain ⟨hids, hsubset⟩ := hagree.visibleReceivers_eq
  unfold visibleNotifications
  rw [← hids]
  refine hagree.select_notifications fun id row hrow => hsubset ?_
  simp only [Bool.and_eq_true, decide_eq_true_eq] at hrow
  exact hrow.2

theorem deadDeliveries_eq (hagree : Agree claims first second) :
    first.deliveries.select (allOf (deliveryScope first claims
        (some (first.ownGroups claims)) ++ [isDead])) =
      second.deliveries.select (allOf (deliveryScope second claims
        (some (first.ownGroups claims)) ++ [isDead])) := by
  obtain ⟨hids, hsubset⟩ := hagree.visibleNotifications_eq
  have hvisible : ∀ id (row : Delivery Id),
      allOf (deliveryScope second claims (some (first.ownGroups claims)) ++
        [isDead]) id row = true →
        row.notificationId ∈ first.ownNotifications claims := by
    intro id row hrow
    refine hsubset (hids ▸ ?_)
    have hnotification := allOf_eq_true.mp hrow
      (fun _ row => row.notificationId ∈
        visibleNotifications second claims (first.ownGroups claims))
      (by simp [deliveryScope])
    exact of_decide_eq_true hnotification
  have hscope : deliveryScope first claims (some (first.ownGroups claims)) =
      deliveryScope second claims (some (first.ownGroups claims)) := by
    simp only [deliveryScope, given_some, hids]
  rw [hscope]
  exact (hagree.deliveries.select_eq
    (fun id row hrow => decide_eq_true (hvisible id row hrow))
    (fun id row hrow =>
      decide_eq_true (hagree.ownNotifications ▸ hvisible id row hrow))
    fun _ _ _ => rfl).1

theorem receiverStats_eq
    (hagree : Agree claims first second) {entry : Id × Receiver Id}
    (hown : entry.1 ∈ first.ownReceivers claims) :
    receiverStats first claims entry = receiverStats second claims entry := by
  have hcount : ∀ condition : Condition Id (Notification Id),
      first.notifications.select (fun id row =>
          row.receiverId = entry.1 && row.tenantId = claims.tid &&
            condition id row) =
        second.notifications.select fun id row =>
          row.receiverId = entry.1 && row.tenantId = claims.tid &&
            condition id row := by
    intro condition
    refine (hagree.select_notifications fun id row hrow => ?_).1
    simp only [Bool.and_eq_true, decide_eq_true_eq] at hrow
    exact hrow.1.1 ▸ hown
  simp only [receiverStats, hcount]

theorem rowsOfGroup_eq [LinearOrder Key]
    (hagree : Agree claims first second) (env : Env Id Key)
    {entry : Id × Group Id} (hgroup : entry.1 ∈ first.ownGroups claims) :
    rowsOfGroup env first claims entry =
      rowsOfGroup env second claims entry := by
  have hvisible : ∀ (id : Id) (row : Receiver Id),
      (row.groupId = entry.1 && row.tenantId = claims.tid : Bool) = true →
        row.groupId ∈ first.ownGroups claims := fun id row hrow => by
    simp only [Bool.and_eq_true, decide_eq_true_eq] at hrow
    exact hrow.1 ▸ hgroup
  have hrows := hagree.fetch_receivers env hvisible
  have hown := (hagree.select_receivers hvisible).2
  have hstats : ∀ receiver ∈
      first.receivers.fetch (receiverOrder env)
        (receiversOf first claims entry.1),
      receiverStats first claims receiver =
        receiverStats second claims receiver := fun receiver hreceiver =>
    hagree.receiverStats_eq (hown (Table.mem_fetch.mp hreceiver).1)
  simp only [rowsOfGroup, receiversOf, ← hrows] at hstats ⊢
  cases hfetched : first.receivers.fetch (receiverOrder env)
      (first.receivers.select fun _ row =>
        row.groupId = entry.1 && row.tenantId = claims.tid) with
  | nil => rfl
  | cons receiver rest =>
      rw [hfetched] at hstats
      refine List.map_congr_left fun receiver hreceiver => ?_
      rw [hstats receiver hreceiver]

theorem groupRows_eq [LinearOrder Key]
    (hagree : Agree claims first second) (env : Env Id Key) :
    groupRows env first claims (some (first.ownGroups claims)) =
      groupRows env second claims (some (first.ownGroups claims)) := by
  obtain ⟨hrows, hvisible⟩ := hagree.fetch_groups env
  unfold groupRows
  rw [← hrows]
  exact List.flatMap_congr fun entry hentry =>
    hagree.rowsOfGroup_eq env (hvisible entry hentry)

theorem statsSummary_eq [LinearOrder Key]
    (hagree : Agree claims first second)
    (hscoped : hasFullGroupAccess claims = false) (env : Env Id Key)
    (now : Instant) :
    statsSummary env now first claims = statsSummary env now second claims := by
  have hallowed := accessible_scoped first hscoped
  simp only [statsSummary, ← hagree.accessible, hallowed]
  split
  · rfl
  · simp only [hagree.countInScope_eq, hagree.severityCounts_eq,
      hagree.groupRows_eq, hagree.deadDeliveries_eq]

end Agree

/-- The responses to a member or viewer depend on nothing but the rows of the
groups of the caller. -/
theorem respond_eq_of_agree [LinearOrder Key]
    {claims : Claims Id} {first second : State Id}
    (hrole : claims.role = .member ∨ claims.role = .viewer)
    (hagree : Agree claims first second) (env : Env Id Key)
    (clock : ℕ → Instant) (request : Request Id) :
    respond env clock first claims request =
      respond env clock second claims request := by
  have hscoped : hasFullGroupAccess claims = false := by
    rcases hrole with hrole | hrole <;> simp [hasFullGroupAccess, hrole]
  cases request with
  | listNotifications filters status cursor limit =>
      simp only [respond, hagree.listNotifications_eq hscoped]
  | listDeliveries status channelId cursor limit =>
      simp only [respond, hagree.listDeliveries_eq hscoped]
  | listReceivers groupId =>
      simp only [respond, hagree.listReceivers_eq hscoped]
  | listAllReceivers => simp only [respond, hagree.listAllReceivers_eq hscoped]
  | listGroups => simp only [respond, hagree.listGroups_eq hscoped]
  | statsSummary => simp only [respond, hagree.statsSummary_eq hscoped]

/-! ## Rows with equal names -/

/-- No two of the rows have names which the collation does not tell apart. -/
def NamesDiffer {Row : Type}
    (env : Env Id Key) (table : Table Id Row) (name : Row → Text)
    (ids : Finset Id) : Prop :=
  ∀ first ∈ ids, ∀ second ∈ ids,
    env.collate (name (table.row first)) =
      env.collate (name (table.row second)) → first = second

/-- The names by which a request orders its rows are different. -/
def Request.Ordered
    (env : Env Id Key) (state : State Id) (claims : Claims Id) :
    Request Id → Prop
  | .listNotifications _ _ _ _ | .listDeliveries _ _ _ _ => True
  | .listReceivers groupId =>
      NamesDiffer env state.receivers Receiver.name
        (receiversOf state claims groupId)
  | .listAllReceivers =>
      NamesDiffer env state.receivers Receiver.name
        (state.receivers.select (allOf (receiverConditions claims none
          (accessibleGroupIds state claims))))
  | .listGroups =>
      NamesDiffer env state.groups Group.name
        (state.groups.select (allOf (groupConditions claims
          (accessibleGroupIds state claims))))
  | .statsSummary =>
      NamesDiffer env state.groups Group.name
          (state.groups.select (allOf (groupConditions claims
            (accessibleGroupIds state claims)))) ∧
        ∀ groupId ∈ state.groups.select (allOf (groupConditions claims
            (accessibleGroupIds state claims))),
          NamesDiffer env state.receivers Receiver.name
            (receiversOf state claims groupId)

def Env.placed (env : Env Id Key) (places : Places Id) : Env Id Key :=
  { env with places := places }

section Places

variable [LinearOrder Key] {env : Env Id Key} {state : State Id}
  {claims : Claims Id}

theorem fetch_named {Row : Type}
    {table : Table Id Row} {name : Row → Text} {ids : Finset Id}
    (hdiffer : NamesDiffer env table name ids) (place other : Id → ℕ) :
    table.fetch (fun id row => toLex (env.collate (name row), place id)) ids =
      table.fetch (fun id row => toLex (env.collate (name row), other id))
        ids := by
  have hrows : ∀ place : Id → ℕ,
      table.fetch (fun id row => toLex (env.collate (name row), place id)) ids =
        ((table.fetch (fun id row => toLex (env.collate (name row), place id))
          ids).map Prod.fst).map fun id => (id, table.row id) :=
    fun _ => Table.fetch_eq_map ids
  rw [hrows place, hrows other]
  refine congrArg (List.map _) (Table.keys_eq ?_)
  intro first hfirst second hsecond hbefore
  have hcollate : env.collate (name (table.row first)) <
      env.collate (name (table.row second)) := by
    simp only [Table.orderOf, Prod.Lex.toLex_lt_toLex] at hbefore
    rcases hbefore with (hlt | ⟨hsame, hlt⟩) | ⟨hsame, hlt⟩
    · exact hlt
    · obtain rfl := hdiffer first hfirst second hsecond hsame
      exact absurd hlt (lt_irrefl _)
    · have hname := congrArg (fun key => (ofLex key).1) hsame
      obtain rfl := hdiffer first hfirst second hsecond hname
      exact absurd hlt (lt_irrefl _)
  simp only [Table.orderOf, Prod.Lex.toLex_lt_toLex]
  exact .inl (.inl hcollate)

theorem rowsOfGroup_places
    (places other : Places Id) {entry : Id × Group Id}
    (hdiffer : NamesDiffer env state.receivers Receiver.name
      (receiversOf state claims entry.1)) :
    rowsOfGroup (env.placed places) state claims entry =
      rowsOfGroup (env.placed other) state claims entry := by
  have hrows : state.receivers.fetch (receiverOrder (env.placed places))
        (receiversOf state claims entry.1) =
      state.receivers.fetch (receiverOrder (env.placed other))
        (receiversOf state claims entry.1) :=
    fetch_named hdiffer places.receiver other.receiver
  simp only [rowsOfGroup, hrows]

/-- Where the names differ, the database has no choice. -/
theorem respond_places
    (clock : ℕ → Instant) {request : Request Id}
    (hordered : request.Ordered env state claims) (places other : Places Id) :
    respond (env.placed places) clock state claims request =
      respond (env.placed other) clock state claims request := by
  cases request with
  | listNotifications filters status cursor limit => rfl
  | listDeliveries status channelId cursor limit => rfl
  | listReceivers groupId =>
      have hrows : state.receivers.fetch (receiverOrder (env.placed places))
            (receiversOf state claims groupId) =
          state.receivers.fetch (receiverOrder (env.placed other))
            (receiversOf state claims groupId) :=
        fetch_named hordered places.receiver other.receiver
      simp only [respond, listReceivers]
      rw [← receiversOf, hrows]
      rfl
  | listAllReceivers =>
      have hrows := fetch_named hordered places.receiver other.receiver
      exact congrArg (fun rows => Except.map Response.receivers
        (if accessibleGroupIds state claims = some ∅ then .ok []
          else receiversOut (env.placed places) clock rows)) hrows
  | listGroups =>
      have hrows := fetch_named hordered places.group other.group
      exact congrArg (fun rows => Except.ok (Response.groups
        (if accessibleGroupIds state claims = some ∅ then []
          else rows.map (groupOut state claims (rows.map Prod.fst))))) hrows
  | statsSummary =>
      obtain ⟨hgroups, hreceivers⟩ := hordered
      have hrows := fetch_named hgroups places.group other.group
      have hsame : groupRows (env.placed places) state claims
            (accessibleGroupIds state claims) =
          groupRows (env.placed other) state claims
            (accessibleGroupIds state claims) := by
        unfold groupRows
        rw [show state.groups.fetch (groupOrder (env.placed places)) _ =
          state.groups.fetch (groupOrder (env.placed other)) _ from hrows]
        exact List.flatMap_congr fun entry hentry =>
          rowsOfGroup_places places other
            (hreceivers _ (Table.mem_fetch.mp hentry).1)
      simp only [respond, statsSummary, hsame]

end Places

/-- The database may answer so, wherever it puts rows with equal names. -/
def MayRespond [LinearOrder Key]
    (env : Env Id Key) (clock : ℕ → Instant) (state : State Id)
    (claims : Claims Id) (request : Request Id)
    (response : Except RequestError (Response Id)) : Prop :=
  ∃ places, respond (env.placed places) clock state claims request = response

/-- What the rows of other groups are neither gives the caller another response
nor takes one away, and there is only one unless names are equal. -/
theorem responses_of_agree [LinearOrder Key]
    {claims : Claims Id} {first second : State Id}
    (hrole : claims.role = .member ∨ claims.role = .viewer)
    (hagree : Agree claims first second) (env : Env Id Key)
    (clock : ℕ → Instant) (request : Request Id) :
    (∀ response, MayRespond env clock first claims request response ↔
      MayRespond env clock second claims request response) ∧
    (request.Ordered env first claims → ∀ places other,
      respond (env.placed places) clock first claims request =
        respond (env.placed other) clock second claims request) := by
  have hsame : ∀ places,
      respond (env.placed places) clock first claims request =
        respond (env.placed places) clock second claims request := fun places =>
    respond_eq_of_agree hrole hagree (env.placed places) clock request
  constructor
  · intro response
    exact exists_congr fun places => by rw [hsame places]
  · intro hordered places other
    rw [respond_places clock hordered places other, hsame other]

/-! ## Two databases -/

def quietPolicy : NotifyHub.Receiver :=
  ⟨.active, none, none, ⟨none, none, none, none, none⟩, none, none, none, none⟩

/-- User 1 belongs to group 10 with notification 30 and the receivers up to
20, which have the same name; the rows of group 11 are there or not. -/
def withGroups (groups receivers notifications : Finset ℕ) : State ℕ where
  groups := ⟨groups, fun _ => ⟨0, ['g'], none⟩⟩
  receivers := ⟨receivers, fun id =>
    ⟨0, if id ≤ 20 then 10 else 11, ['s'], ['r'], ['h'], .info, none, 1000, 60,
      quietPolicy⟩⟩
  notifications := ⟨notifications, fun id =>
    ⟨0, if id = 30 then 20 else 21, .inline, some ['a'], ['a'], 1, false,
      .error, .rule, none, none, none, .unread, false, none, none, none, none,
      0⟩⟩
  deliveries := ⟨∅, fun _ => ⟨0, 30, 40, .dead, 1, 0, none, none, none, none⟩⟩
  memberships := ⟨{50}, fun _ => ⟨0, 1, 10⟩⟩
  channelNames := ⟨∅, fun _ => []⟩
  emails := ⟨{1}, fun _ => ['m']⟩

def memberClaims : Claims ℕ := ⟨⟨1, .member⟩, 0⟩

def plainEnv : Env ℕ ℕ where
  collate := List.length
  places := ⟨id, id⟩
  ilike _ _ := true
  encodeCursor _ _ := []
  decodeCursor _ := .ok (0, 0)
  library := ⟨fun _ => true, fun _ _ start => .ok start, fun _ => true, id⟩
  ingestUrl slug := slug

theorem withGroups_agree :
    Agree memberClaims (withGroups {10} {19, 20} {30})
      (withGroups {10, 11} {19, 20, 21} {30, 31}) where
  memberships := ⟨rfl, fun _ _ => rfl⟩
  groups := ⟨by decide, fun _ _ => rfl⟩
  receivers := ⟨by decide, fun _ _ => rfl⟩
  notifications := ⟨by decide, fun _ _ => rfl⟩
  deliveries := ⟨rfl, fun _ _ => rfl⟩
  channelNames := ⟨rfl, fun _ _ => rfl⟩
  emails := ⟨rfl, fun _ _ => rfl⟩

theorem responses_of_agree_otherGroup :
    (withGroups {10, 11} {19, 20, 21} {30, 31}).notifications.ids ≠
        (withGroups {10} {19, 20} {30}).notifications.ids ∧
      ∀ places other,
        respond (plainEnv.placed places) (fun _ => 0)
            (withGroups {10} {19, 20} {30}) memberClaims .listGroups =
          respond (plainEnv.placed other) (fun _ => 0)
            (withGroups {10, 11} {19, 20, 21} {30, 31}) memberClaims
            .listGroups := by
  refine ⟨by decide, (responses_of_agree (.inl rfl) withGroups_agree plainEnv
    (fun _ => 0) .listGroups).2 ?_⟩
  intro first hfirst second hsecond _
  have hgroups : ∀ id ∈ (withGroups {10} {19, 20} {30}).groups.ids, id = 10 := by
    decide
  rw [hgroups first (Table.select_subset _ _ hfirst),
    hgroups second (Table.select_subset _ _ hsecond)]

def receiverIds : Except RequestError (Response ℕ) → List ℕ
  | .ok (.receivers out) => out.map ReceiverOut.id
  | _ => []

/-- The same receivers in one order and in the other. -/
theorem receivers_in_either_order :
    ¬ ∀ (first second : State ℕ) (places other : Places ℕ)
        (request : Request ℕ), Agree memberClaims first second →
      respond (plainEnv.placed places) (fun _ => 0) first memberClaims
          request =
        respond (plainEnv.placed other) (fun _ => 0) second memberClaims
          request := by
  intro hall
  let upward : Places ℕ := ⟨id, id⟩
  let downward : Places ℕ := ⟨id, fun id => 20 - id⟩
  have hup : (withGroups {10} {19, 20} {30}).receivers.fetch
      (receiverOrder (plainEnv.placed upward)) {19, 20} = _ :=
    Table.fetch_pair _ _ (by decide)
  have hdown : (withGroups {10, 11} {19, 20, 21} {30, 31}).receivers.fetch
      (receiverOrder (plainEnv.placed downward)) {20, 19} = _ :=
    Table.fetch_pair _ _ (by decide)
  have hfirst : (withGroups {10} {19, 20} {30}).receivers.select
      (fun _ row => row.groupId = 10 && row.tenantId = memberClaims.tid) =
        {19, 20} := by decide
  have hsecond : (withGroups {10, 11} {19, 20, 21} {30, 31}).receivers.select
      (fun _ row => row.groupId = 10 && row.tenantId = memberClaims.tid) =
        {20, 19} := by decide
  have hsame := hall _ _ upward downward (.listReceivers 10) withGroups_agree
  have haccess : ∀ groups receivers notifications,
      assertGroupAccess (withGroups groups receivers notifications)
        memberClaims 10 false = .ok () := fun _ _ _ => rfl
  simp only [respond, listReceivers, haccess, hfirst, hsecond, hup, hdown]
    at hsame
  have hids : [19, 20] = [20, 19] := congrArg receiverIds hsame
  exact absurd hids (by decide)

end NotifyHub.Dashboard
