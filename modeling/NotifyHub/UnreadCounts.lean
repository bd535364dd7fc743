import NotifyHub.GroupNoninterference
import Mathlib.Tactic

/-!
# The counters of unread notifications

The summary, the list of groups and the list of notifications count the same
notifications by different queries.  Each count is brought into one form: a sum
over the groups which the caller sees, and over the receivers of each group.
-/

namespace NotifyHub.Dashboard

variable {Id Key : Type} [LinearOrder Id] [LinearOrder Key]

/-- The rows of a tenant refer to rows of the same tenant: a notification to a
receiver, and a receiver to a group. -/
structure State.RefersWithin (state : State Id) (tid : Id) : Prop where
  receiver : ∀ id ∈ state.notifications.ids,
    (state.notifications.row id).tenantId = tid →
      (state.notifications.row id).receiverId ∈ state.receivers.ids ∧
        (state.receivers.row
          (state.notifications.row id).receiverId).tenantId = tid
  notification : ∀ id ∈ state.notifications.ids,
    (state.notifications.row id).receiverId ∈ state.receivers.ids →
    (state.receivers.row
        (state.notifications.row id).receiverId).tenantId = tid →
      (state.notifications.row id).tenantId = tid
  group : ∀ id ∈ state.receivers.ids,
    (state.receivers.row id).tenantId = tid →
      (state.receivers.row id).groupId ∈ state.groups.ids ∧
        (state.groups.row (state.receivers.row id).groupId).tenantId = tid

/-- The groups which the caller sees. -/
def visibleGroups (state : State Id) (claims : Claims Id) : Finset Id :=
  state.groups.select
    (allOf (groupConditions claims (accessibleGroupIds state claims)))

/-- The notifications of a receiver which meet a condition. -/
def countOfReceiver
    (state : State Id) (claims : Claims Id)
    (condition : Condition Id (Notification Id)) (receiverId : Id) : ℕ :=
  (state.notifications.select fun id row =>
    row.receiverId = receiverId && row.tenantId = claims.tid &&
      condition id row).card

def countOfGroup
    (state : State Id) (claims : Claims Id)
    (condition : Condition Id (Notification Id)) (groupId : Id) : ℕ :=
  ∑ receiverId ∈ receiversOf state claims groupId,
    countOfReceiver state claims condition receiverId

/-- The notifications in the groups which the caller sees. -/
def countVisible
    (state : State Id) (claims : Claims Id)
    (condition : Condition Id (Notification Id)) : ℕ :=
  ∑ groupId ∈ visibleGroups state claims,
    countOfGroup state claims condition groupId

def isUnread : Condition Id (Notification Id) :=
  fun _ row => row.status = .unread

variable {state : State Id} {claims : Claims Id}

/-! ## Counts in scope -/

theorem mem_receiversOf {groupId receiverId : Id} :
    receiverId ∈ receiversOf state claims groupId ↔
      receiverId ∈ state.receivers.ids ∧
        (state.receivers.row receiverId).groupId = groupId ∧
        (state.receivers.row receiverId).tenantId = claims.tid := by
  simp [receiversOf]

theorem mem_visibleGroups {groupId : Id} :
    groupId ∈ visibleGroups state claims ↔
      groupId ∈ state.groups.ids ∧
        (state.groups.row groupId).tenantId = claims.tid ∧
        ∀ allowed, accessibleGroupIds state claims = some allowed →
          groupId ∈ allowed := by
  cases haccess : accessibleGroupIds state claims with
  | none => simp [visibleGroups, groupConditions, allOf, haccess]
  | some allowed => simp [visibleGroups, groupConditions, allOf, haccess]

theorem mem_scope {condition : Condition Id (Notification Id)} {id : Id} :
    id ∈ state.notifications.select
        (allOf (scopeConditions state claims
          (accessibleGroupIds state claims) ++ [condition])) ↔
      id ∈ state.notifications.ids ∧
        (state.notifications.row id).tenantId = claims.tid ∧
        (∀ allowed, accessibleGroupIds state claims = some allowed →
          (state.notifications.row id).receiverId ∈
            visibleReceivers state claims allowed) ∧
        condition id (state.notifications.row id) = true := by
  cases haccess : accessibleGroupIds state claims with
  | none => simp [scopeConditions, allOf]
  | some allowed => simp [scopeConditions, allOf, fromReceivers]

/-- The group of a notification in scope. -/
def groupOf (state : State Id) (row : Notification Id) : Id :=
  (state.receivers.row row.receiverId).groupId

theorem groupOf_mem_visibleGroups
    (hrefers : state.RefersWithin claims.tid)
    {condition : Condition Id (Notification Id)} {id : Id}
    (hid : id ∈ state.notifications.select
      (allOf (scopeConditions state claims
        (accessibleGroupIds state claims) ++ [condition]))) :
    groupOf state (state.notifications.row id) ∈
      visibleGroups state claims := by
  obtain ⟨hmem, htenant, hallowed, -⟩ := mem_scope.mp hid
  obtain ⟨hreceiver, hreceiverTenant⟩ := hrefers.receiver id hmem htenant
  obtain ⟨hgroup, hgroupTenant⟩ :=
    hrefers.group _ hreceiver hreceiverTenant
  refine mem_visibleGroups.mpr ⟨hgroup, hgroupTenant, ?_⟩
  intro allowed haccess
  have hvisible := hallowed allowed haccess
  simp only [visibleReceivers, Table.mem_select, Bool.and_eq_true,
    decide_eq_true_eq] at hvisible
  exact hvisible.2.2

/-- The notifications in scope which a receiver of a visible group has
got. -/
theorem mem_scope_of_receiver
    {condition : Condition Id (Notification Id)} {groupId receiverId id : Id}
    (hgroup : groupId ∈ visibleGroups state claims)
    (hreceiver : receiverId ∈ receiversOf state claims groupId)
    (hsame : (state.notifications.row id).receiverId = receiverId) :
    id ∈ state.notifications.select
        (allOf (scopeConditions state claims
          (accessibleGroupIds state claims) ++ [condition])) ↔
      id ∈ state.notifications.ids ∧
        (state.notifications.row id).tenantId = claims.tid ∧
        condition id (state.notifications.row id) = true := by
  rw [mem_scope]
  have hvisible : ∀ allowed,
      accessibleGroupIds state claims = some allowed →
        (state.notifications.row id).receiverId ∈
          visibleReceivers state claims allowed := by
    intro allowed haccess
    obtain ⟨hmem, hof, htenant⟩ := mem_receiversOf.mp hreceiver
    have hallowed := (mem_visibleGroups.mp hgroup).2.2 allowed haccess
    rw [hsame]
    simp [visibleReceivers, hmem, hof, htenant, hallowed]
  constructor
  · rintro ⟨hmem, htenant, -, hcondition⟩
    exact ⟨hmem, htenant, hcondition⟩
  · rintro ⟨hmem, htenant, hcondition⟩
    exact ⟨hmem, htenant, hvisible, hcondition⟩

theorem card_scope_values
    (hrefers : state.RefersWithin claims.tid)
    (condition : Condition Id (Notification Id)) (groupId : Id) :
    ∀ id ∈ state.notifications.select (fun id row =>
        allOf (scopeConditions state claims
          (accessibleGroupIds state claims) ++ [condition]) id row &&
        decide (groupOf state row = groupId)),
      (state.notifications.row id).receiverId ∈
        receiversOf state claims groupId := by
  intro id hid
  rw [Table.select_and, Finset.mem_filter, decide_eq_true_eq] at hid
  obtain ⟨hmem, htenant, -, -⟩ := mem_scope.mp hid.1
  obtain ⟨hreceiver, hreceiverTenant⟩ := hrefers.receiver id hmem htenant
  exact mem_receiversOf.mpr ⟨hreceiver, hid.2, hreceiverTenant⟩

theorem card_scope_of_group
    (hrefers : state.RefersWithin claims.tid)
    (condition : Condition Id (Notification Id)) {groupId : Id}
    (hgroup : groupId ∈ visibleGroups state claims) :
    (state.notifications.select fun id row =>
        allOf (scopeConditions state claims
          (accessibleGroupIds state claims) ++ [condition]) id row &&
        decide (groupOf state row = groupId)).card =
      countOfGroup state claims condition groupId := by
  rw [Table.card_select_eq_sum _ _ Notification.receiverId
    (card_scope_values hrefers condition groupId)]
  refine Finset.sum_congr rfl fun receiverId hreceiver => ?_
  refine congrArg Finset.card ?_
  have hof := (mem_receiversOf.mp hreceiver).2.1
  ext id
  simp only [Table.mem_select, Bool.and_eq_true, decide_eq_true_eq]
  constructor
  · rintro ⟨hmem, ⟨hscope, -⟩, hsame⟩
    obtain ⟨-, htenant, hcondition⟩ :=
      (mem_scope_of_receiver hgroup hreceiver hsame).mp
        (Table.mem_select.mpr ⟨hmem, hscope⟩)
    exact ⟨hmem, ⟨hsame, htenant⟩, hcondition⟩
  · rintro ⟨hmem, ⟨hsame, htenant⟩, hcondition⟩
    have hscope := (mem_scope_of_receiver hgroup hreceiver hsame).mpr
      ⟨hmem, htenant, hcondition⟩
    refine ⟨hmem, ⟨(Table.mem_select.mp hscope).2, ?_⟩, hsame⟩
    rw [groupOf, hsame, hof]

/-- A count in scope is the sum over the visible groups and their
receivers. -/
theorem countInScope_eq_countVisible
    (hrefers : state.RefersWithin claims.tid)
    (condition : Condition Id (Notification Id)) :
    countInScope state claims (accessibleGroupIds state claims) condition =
      countVisible state claims condition := by
  rw [countInScope, Table.card_select_eq_sum _ _ (groupOf state)
    fun id hid => groupOf_mem_visibleGroups hrefers hid]
  exact Finset.sum_congr rfl fun groupId hgroup =>
    card_scope_of_group hrefers condition hgroup

theorem countVisible_of_no_access
    (hnone : accessibleGroupIds state claims = some ∅)
    (condition : Condition Id (Notification Id)) :
    countVisible state claims condition = 0 := by
  have hempty : visibleGroups state claims = ∅ := by
    ext groupId
    simp [mem_visibleGroups, hnone]
  rw [countVisible, hempty, Finset.sum_empty]

/-! ## The summary -/

/-- The entry of a group with more receivers. -/
def GroupStats.withReceivers
    (entry : GroupStats Id) (receivers : List (ReceiverStats Id)) :
    GroupStats Id :=
  { entry with
    total := entry.total + (receivers.map ReceiverStats.total).sum
    unreadCount :=
      entry.unreadCount + (receivers.map ReceiverStats.unreadCount).sum
    receivers := entry.receivers ++ receivers }

/-- The receivers of a group in the order of the summary. -/
def statsOfReceivers
    (env : Env Id Key) (state : State Id) (claims : Claims Id) (groupId : Id) :
    List (ReceiverStats Id) :=
  (state.receivers.fetch (receiverOrder env)
    (receiversOf state claims groupId)).map (receiverStats state claims)

/-- The entry which the loop makes of a group. -/
def statsOfGroup
    (env : Env Id Key) (state : State Id) (claims : Claims Id)
    (entry : Id × Group Id) : GroupStats Id :=
  (⟨entry.1, entry.2.name, 0, 0, []⟩ : GroupStats Id).withReceivers
    (statsOfReceivers env state claims entry.1)

omit [LinearOrder Key] in
theorem addGroupRow_last
    {index : List (GroupStats Id)} {entry : GroupStats Id}
    (hfresh : ∀ other ∈ index, other.groupId ≠ entry.groupId)
    (name : Text) (receiver : ReceiverStats Id) :
    addGroupRow (index ++ [entry]) ⟨entry.groupId, name, some receiver⟩ =
      index ++ [entry.withReceivers [receiver]] := by
  have hkept : (index.map fun other =>
      if other.groupId = entry.groupId then
        { other with
          total := other.total + receiver.total
          unreadCount := other.unreadCount + receiver.unreadCount
          receivers := other.receivers ++ [receiver] }
      else other) = index := by
    conv_rhs => rw [← List.map_id index]
    refine List.map_congr_left fun other hother => ?_
    rw [if_neg (hfresh other hother), id]
  simp [addGroupRow, GroupStats.withReceivers, hkept]

theorem addGroupRows_last
    {index : List (GroupStats Id)} {entry : GroupStats Id}
    (hfresh : ∀ other ∈ index, other.groupId ≠ entry.groupId)
    (name : Text) (receivers : List (ReceiverStats Id)) :
    (receivers.map fun receiver =>
        (⟨entry.groupId, name, some receiver⟩ : GroupRow Id)).foldl
      addGroupRow (index ++ [entry]) =
      index ++ [entry.withReceivers receivers] := by
  induction receivers generalizing entry with
  | nil => simp [GroupStats.withReceivers]
  | cons receiver rest ih =>
      rw [List.map_cons, List.foldl_cons, addGroupRow_last hfresh]
      have hrest : (rest.map fun receiver =>
          (⟨entry.groupId, name, some receiver⟩ : GroupRow Id)).foldl
            addGroupRow (index ++ [entry.withReceivers [receiver]]) =
          index ++ [(entry.withReceivers [receiver]).withReceivers rest] :=
        ih hfresh
      refine hrest.trans ?_
      simp [GroupStats.withReceivers, Nat.add_assoc]

/-- The first row of a group makes its entry. -/
theorem addGroupRow_fresh
    {index : List (GroupStats Id)} {row : GroupRow Id}
    (hfresh : ∀ other ∈ index, other.groupId ≠ row.groupId) :
    addGroupRow index row =
      addGroupRow (index ++ [⟨row.groupId, row.groupName, 0, 0, []⟩]) row := by
  have hnone : (index.any fun entry => entry.groupId = row.groupId) =
      false := by
    simpa using hfresh
  simp [addGroupRow, hnone]

theorem addGroupRows_group
    (env : Env Id Key) (entry : Id × Group Id)
    {index : List (GroupStats Id)}
    (hfresh : ∀ other ∈ index, other.groupId ≠ entry.1) :
    (rowsOfGroup env state claims entry).foldl addGroupRow index =
      index ++ [statsOfGroup env state claims entry] := by
  rw [statsOfGroup, statsOfReceivers, rowsOfGroup]
  cases hfetch : state.receivers.fetch (receiverOrder env)
      (receiversOf state claims entry.1) with
  | nil =>
      rw [List.foldl_cons, List.foldl_nil, addGroupRow_fresh hfresh]
      simp [addGroupRow, GroupStats.withReceivers]
  | cons first rest =>
      have hrows := @addGroupRows_last Id _ index
        ⟨entry.1, entry.2.name, 0, 0, []⟩ hfresh entry.2.name
        ((first :: rest).map (receiverStats state claims))
      rw [List.map_map] at hrows
      rw [← hrows]
      simp only [List.map_cons, List.foldl_cons, Function.comp_def]
      rw [addGroupRow_fresh hfresh]

theorem addGroupRows_groups
    (env : Env Id Key) (groups : List (Id × Group Id))
    {index : List (GroupStats Id)}
    (hnodup : (groups.map Prod.fst).Nodup)
    (hfresh : ∀ entry ∈ groups, ∀ other ∈ index,
      other.groupId ≠ entry.1) :
    (groups.flatMap (rowsOfGroup env state claims)).foldl addGroupRow index =
      index ++ groups.map (statsOfGroup env state claims) := by
  induction groups generalizing index with
  | nil => simp
  | cons entry rest ih =>
      rw [List.map_cons, List.nodup_cons] at hnodup
      rw [List.flatMap_cons, List.foldl_append, addGroupRows_group env entry
        (hfresh entry List.mem_cons_self), ih hnodup.2, List.map_cons,
        List.append_assoc, List.singleton_append]
      intro later hlater other hother
      rcases List.mem_append.mp hother with hindex | hnew
      · exact hfresh later (List.mem_cons_of_mem _ hlater) other hindex
      · rw [List.mem_singleton.mp hnew]
        intro hsame
        have hid : entry.1 = later.1 := hsame
        rw [hid] at hnodup
        exact hnodup.1 (List.mem_map_of_mem hlater)

theorem byGroup_eq
    (env : Env Id Key) (state : State Id) (claims : Claims Id) :
    (groupRows env state claims (accessibleGroupIds state claims)).foldl
        addGroupRow [] =
      (state.groups.fetch (groupOrder env)
        (visibleGroups state claims)).map (statsOfGroup env state claims) := by
  rw [groupRows, ← visibleGroups, addGroupRows_groups env _
    (Table.nodup_fetch ..) (by simp), List.nil_append]

theorem sum_statsOfReceivers
    (env : Env Id Key) (groupId : Id) :
    ((statsOfReceivers env state claims groupId).map
        ReceiverStats.unreadCount).sum =
      countOfGroup state claims isUnread groupId ∧
    ((statsOfReceivers env state claims groupId).map
        ReceiverStats.total).sum =
      countOfGroup state claims (fun _ _ => true) groupId := by
  constructor
  · rw [statsOfReceivers, List.map_map, Table.sum_fetch]
    rfl
  · rw [statsOfReceivers, List.map_map, Table.sum_fetch]
    rfl

theorem statsOfGroup_counts
    (env : Env Id Key) (entry : Id × Group Id) :
    (statsOfGroup env state claims entry).unreadCount =
        countOfGroup state claims isUnread entry.1 ∧
      (statsOfGroup env state claims entry).total =
        countOfGroup state claims (fun _ _ => true) entry.1 := by
  obtain ⟨hunread, htotal⟩ :=
    @sum_statsOfReceivers Id Key _ _ state claims env entry.1
  exact ⟨(Nat.zero_add _).trans hunread, (Nat.zero_add _).trans htotal⟩

theorem summary_byGroup
    (env : Env Id Key) (now : Instant)
    (haccess : accessibleGroupIds state claims ≠ some ∅) :
    (statsSummary env now state claims).byGroup =
      (state.groups.fetch (groupOrder env)
        (visibleGroups state claims)).map (statsOfGroup env state claims) := by
  rw [← byGroup_eq]
  simp [statsSummary, haccess]

/-- The groups of the summary. -/
theorem byGroup_counts
    (env : Env Id Key) (now : Instant) (state : State Id)
    (claims : Claims Id) :
    let byGroup := (statsSummary env now state claims).byGroup
    (byGroup.map GroupStats.unreadCount).sum =
        countVisible state claims isUnread ∧
      (byGroup.map GroupStats.total).sum =
        countVisible state claims fun _ _ => true := by
  intro byGroup
  by_cases hnone : accessibleGroupIds state claims = some ∅
  · simp [byGroup, statsSummary, hnone, countVisible_of_no_access]
  · rw [show byGroup = _ from summary_byGroup env now hnone, List.map_map,
      List.map_map, Table.sum_fetch, Table.sum_fetch]
    constructor
    · exact Finset.sum_congr rfl fun groupId _ =>
        (statsOfGroup_counts env (groupId, state.groups.row groupId)).1
    · exact Finset.sum_congr rfl fun groupId _ =>
        (statsOfGroup_counts env (groupId, state.groups.row groupId)).2

/-- Within a group, the counts of its receivers add up to its own. -/
theorem byGroup_receivers
    (env : Env Id Key) (now : Instant) (state : State Id)
    (claims : Claims Id) :
    let byGroup := (statsSummary env now state claims).byGroup
    ((byGroup.flatMap GroupStats.receivers).map
        ReceiverStats.unreadCount).sum =
      (byGroup.map GroupStats.unreadCount).sum := by
  intro byGroup
  by_cases hnone : accessibleGroupIds state claims = some ∅
  · simp [byGroup, statsSummary, hnone]
  · rw [show byGroup = _ from summary_byGroup env now hnone]
    generalize state.groups.fetch (groupOrder env)
      (visibleGroups state claims) = groups
    induction groups with
    | nil => rfl
    | cons entry rest ih =>
        simp only [List.map_cons, List.flatMap_cons, List.map_append,
          List.sum_append, List.sum_cons, ih]
        simp [statsOfGroup, GroupStats.withReceivers]

theorem totalUnread_eq
    (hrefers : state.RefersWithin claims.tid) (env : Env Id Key)
    (now : Instant) :
    (statsSummary env now state claims).totalUnread =
      countVisible state claims isUnread := by
  by_cases hnone : accessibleGroupIds state claims = some ∅
  · rw [countVisible_of_no_access hnone]
    simp [statsSummary, hnone]
  · rw [← countInScope_eq_countVisible hrefers]
    simp only [statsSummary, if_neg hnone]
    rfl

/-! ## Severities -/

theorem sum_filter_positive {Value : Type} (entries : List (Value × ℕ)) :
    ((entries.filter fun entry => 0 < entry.2).map Prod.snd).sum =
      (entries.map Prod.snd).sum := by
  induction entries with
  | nil => rfl
  | cons entry rest ih =>
      by_cases hpositive : 0 < entry.2
      · simp [hpositive, ih]
      · have hzero : entry.2 = 0 := by omega
        simp [hzero, ih]

/-- Every notification in scope has one severity. -/
theorem sum_severityCounts (allowed : Option (Finset Id)) :
    ((severityCounts state claims allowed).map Prod.snd).sum =
      countInScope state claims allowed fun _ _ => true := by
  have hvalues : ∀ id ∈ state.notifications.select
      (allOf (scopeConditions state claims allowed ++ [fun _ _ => true])),
      (state.notifications.row id).severity ∈
        ({.debug, .info, .warning, .error, .critical} : Finset Severity) := by
    intro id _
    cases (state.notifications.row id).severity <;> simp
  have hcount : ∀ severity,
      countInScope state claims allowed
          (fun _ row => row.severity = severity) =
        (state.notifications.select fun id row =>
          allOf (scopeConditions state claims allowed ++ [fun _ _ => true])
            id row && decide (row.severity = severity)).card := by
    intro severity
    refine congrArg Finset.card ?_
    ext id
    simp [allOf]
  rw [severityCounts, sum_filter_positive, List.map_map, countInScope,
    Table.card_select_eq_sum _ _ Notification.severity hvalues]
  simp [hcount]

theorem bySeverity_eq
    (hrefers : state.RefersWithin claims.tid) (env : Env Id Key)
    (now : Instant) :
    ((statsSummary env now state claims).bySeverity.map Prod.snd).sum =
      countVisible state claims fun _ _ => true := by
  by_cases hnone : accessibleGroupIds state claims = some ∅
  · rw [countVisible_of_no_access hnone]
    simp [statsSummary, hnone]
  · rw [← countInScope_eq_countVisible hrefers, ← sum_severityCounts]
    simp [statsSummary, hnone]

/-! ## The list of groups -/

/-- The join which `_notification_counts` groups, for one listed group. -/
theorem notificationCount_eq
    (hrefers : state.RefersWithin claims.tid) {groupIds : List Id}
    {groupId : Id} (hgroup : groupId ∈ groupIds)
    (status : NotificationStatus) :
    notificationCount state claims groupIds groupId status =
      countOfGroup state claims (fun _ row => row.status = status) groupId := by
  have hreceivers : countedReceivers state claims groupIds groupId =
      receiversOf state claims groupId := by
    ext receiverId
    simp only [countedReceivers, receiversOf, Table.mem_select,
      Bool.and_eq_true, decide_eq_true_eq]
    constructor
    · rintro ⟨hmem, ⟨htenant, -⟩, hof⟩
      exact ⟨hmem, hof, htenant⟩
    · rintro ⟨hmem, hof, htenant⟩
      exact ⟨hmem, ⟨htenant, hof ▸ hgroup⟩, hof⟩
  have hvalues : ∀ id ∈ state.notifications.select (fun _ row =>
      row.receiverId ∈ receiversOf state claims groupId &&
        row.status = status),
      (state.notifications.row id).receiverId ∈
        receiversOf state claims groupId := by
    intro id hid
    rw [Table.mem_select, Bool.and_eq_true, decide_eq_true_eq] at hid
    exact hid.2.1
  rw [notificationCount, hreceivers,
    Table.card_select_eq_sum _ _ Notification.receiverId hvalues]
  refine Finset.sum_congr rfl fun receiverId hreceiver =>
    congrArg Finset.card ?_
  obtain ⟨hexists, -, htenant⟩ := mem_receiversOf.mp hreceiver
  ext id
  simp only [Table.mem_select, Bool.and_eq_true, decide_eq_true_eq]
  constructor
  · rintro ⟨hmem, ⟨-, hstatus⟩, rfl⟩
    exact ⟨hmem, ⟨rfl, hrefers.notification id hmem hexists htenant⟩, hstatus⟩
  · rintro ⟨hmem, ⟨rfl, -⟩, hstatus⟩
    exact ⟨hmem, ⟨hreceiver, hstatus⟩, rfl⟩

theorem listGroups_unread
    (hrefers : state.RefersWithin claims.tid) (env : Env Id Key) :
    ((listGroups env state claims).map GroupOut.unreadCount).sum =
      countVisible state claims isUnread := by
  by_cases hnone : accessibleGroupIds state claims = some ∅
  · rw [countVisible_of_no_access hnone]
    simp [listGroups, hnone]
  · simp only [listGroups, if_neg hnone]
    rw [← visibleGroups, List.map_map, Table.sum_fetch]
    refine Finset.sum_congr rfl fun groupId hgroup => ?_
    refine notificationCount_eq hrefers ?_ .unread
    exact List.mem_map_of_mem (Table.mem_fetch.mpr ⟨hgroup, rfl⟩)

/-! ## The list of notifications -/

theorem unreadConditions_count (allowed : Option (Finset Id)) :
    (state.notifications.select
        (allOf (unreadConditions state claims allowed))).card =
      countInScope state claims allowed isUnread := by
  refine congrArg Finset.card ?_
  ext id
  simp [unreadConditions, scopeConditions, allOf, isUnread, and_comm]

omit [LinearOrder Key] in
theorem listNotifications_unread
    (hrefers : state.RefersWithin claims.tid) {env : Env Id Key}
    {filters : NotificationFilters Id} {status : Option NotificationStatus}
    {cursor : Option Text} {limit : ℕ} {out : NotificationList Id}
    (hout : listNotifications env state claims filters status cursor limit =
      .ok out) :
    out.unreadCount = countVisible state claims isUnread := by
  obtain ⟨applied, happlied, hrest⟩ := Except.bind_eq_ok.mp hout
  obtain ⟨-, -, rfl⟩ := Except.map_eq_ok.mp happlied
  by_cases hnone : accessibleGroupIds state claims = some ∅
  · simp only [if_pos hnone, Bool.false_eq_true, if_false] at hrest
    obtain rfl := Except.ok.inj hrest
    exact (countVisible_of_no_access hnone _).symm
  · simp only [if_neg hnone, if_true] at hrest
    obtain ⟨cursor, -, hrest⟩ := Except.bind_eq_ok.mp hrest
    obtain rfl := Except.ok.inj hrest
    exact (unreadConditions_count _).trans
      (countInScope_eq_countVisible hrefers isUnread)

/-! ## Agreement -/

/-- The counters on neighbouring pages, for every caller. -/
theorem unread_counters_agree
    (env : Env Id Key) (now : Instant)
    (hrefers : state.RefersWithin claims.tid) :
    let summary := statsSummary env now state claims
    summary.totalUnread =
        (summary.byGroup.map GroupStats.unreadCount).sum ∧
      summary.totalUnread =
        ((summary.byGroup.flatMap GroupStats.receivers).map
          ReceiverStats.unreadCount).sum ∧
      summary.totalUnread =
        ((listGroups env state claims).map GroupOut.unreadCount).sum ∧
      (∀ filters status cursor limit out,
        listNotifications env state claims filters status cursor limit =
          .ok out → out.unreadCount = summary.totalUnread) ∧
      (summary.bySeverity.map Prod.snd).sum =
        (summary.byGroup.map GroupStats.total).sum := by
  intro summary
  have htotal : summary.totalUnread = countVisible state claims isUnread :=
    totalUnread_eq hrefers env now
  obtain ⟨hunread, hall⟩ := byGroup_counts env now state claims
  refine ⟨?_, ?_, ?_, ?_, ?_⟩
  · rw [htotal, hunread]
  · rw [htotal, byGroup_receivers, hunread]
  · rw [htotal, listGroups_unread hrefers]
  · intro filters status cursor limit out hout
    rw [htotal, listNotifications_unread hrefers hout]
  · rw [bySeverity_eq hrefers, hall]

/-- Two groups of a tenant, one of which the member sees. -/
theorem unread_counters_agree_twoGroups :
    (withGroups {10, 11} {20, 21} {30, 31}).RefersWithin memberClaims.tid ∧
      (statsSummary plainEnv 0 (withGroups {10, 11} {20, 21} {30, 31})
        memberClaims).totalUnread = 1 ∧
      ((listGroups plainEnv (withGroups {10, 11} {20, 21} {30, 31})
        memberClaims).map GroupOut.unreadCount).sum = 1 := by
  have hrefers : (withGroups {10, 11} {20, 21} {30, 31}).RefersWithin
      memberClaims.tid := by
    constructor <;> decide
  have hcount : (statsSummary plainEnv 0
      (withGroups {10, 11} {20, 21} {30, 31}) memberClaims).totalUnread =
        1 := by
    decide
  have hagree := unread_counters_agree plainEnv 0 hrefers
  exact ⟨hrefers, hcount, hagree.2.2.1.symm.trans hcount⟩

end NotifyHub.Dashboard

