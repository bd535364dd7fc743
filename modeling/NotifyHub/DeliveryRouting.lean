import NotifyHub.OutboundOverrides
import Mathlib.Tactic

/-!
# The channels of a notification

`app.services.outbound_resolver`: the rule which selects the channels, and its
two callers, which load the bindings, the overrides and the channels each with
a session of its own.  A session returns the rows of a query in any order.
-/

namespace NotifyHub.Routing

variable {Id : Type}

/-! ## The rule -/

/-- The severity reaches the threshold which applies to a binding. -/
def Reaches (severity : Severity) (binding : GroupChannelBinding Id) :
    Option (ReceiverChannelOverride Id) → Prop
  | none => binding.minSeverity.order ≤ severity.order
  | some override => override.mode ≠ .mute ∧
      ∃ minSeverity ∈ override.minSeverity,
        minSeverity.order ≤ severity.order

/-- The binding sends the notification to its channel. -/
def Selects
    (overridesByChannel : Id → Option (ReceiverChannelOverride Id))
    (channelsById : Id → Option (DeliveryChannel Id)) (severity : Severity)
    (binding : GroupChannelBinding Id) : Prop :=
  Reaches severity binding (overridesByChannel binding.channelId) ∧
    ∃ channel ∈ channelsById binding.channelId, channel.enabled = true

section Selection

variable {overridesByChannel : Id → Option (ReceiverChannelOverride Id)}
  {channelsById : Id → Option (DeliveryChannel Id)} {severity higher : Severity}
  {binding : GroupChannelBinding Id} {bindings : List (GroupChannelBinding Id)}
  {override : Option (ReceiverChannelOverride Id)} {targets : List Id}

/-- A higher severity reaches every threshold which a lower one reaches. -/
theorem Reaches.mono (hreaches : Reaches severity binding override)
    (hhigher : severity.order ≤ higher.order) :
    Reaches higher binding override := by
  cases override with
  | none =>
      have hbinding : binding.minSeverity.order ≤ severity.order := hreaches
      exact hbinding.trans hhigher
  | some row =>
      obtain ⟨hmode, minSeverity, hminSeverity, hthreshold⟩ := hreaches
      exact ⟨hmode, minSeverity, hminSeverity, hthreshold.trans hhigher⟩

theorem thresholdOf_reaches
    (hformed : ∀ row ∈ override, row.WellFormed)
    (binding : GroupChannelBinding Id) (severity : Severity) :
    ∃ threshold, thresholdOf binding override = .ok threshold ∧
      (Reaches severity binding override ↔
        ∃ value ∈ threshold, value.order ≤ severity.order) := by
  cases override with
  | none =>
      refine ⟨some binding.minSeverity, rfl, ?_⟩
      simp [Reaches]
  | some row =>
      cases hmode : row.mode with
      | mute =>
          refine ⟨none, ?_, ?_⟩
          · simp only [thresholdOf, hmode]
          · simp [Reaches, hmode]
      | override =>
          cases hseverity : row.minSeverity with
          | none => exact absurd hseverity (hformed row rfl hmode)
          | some minSeverity =>
              refine ⟨some minSeverity, ?_, ?_⟩
              · simp only [thresholdOf, hmode, hseverity]
              · simp [Reaches, hmode, hseverity]

/-- What the loop does for one binding. -/
theorem selectTargetChannels_cons (binding : GroupChannelBinding Id)
    (hformed : ∀ channel, ∀ row ∈ overridesByChannel channel, row.WellFormed)
    (hchannels : ∀ id, ∀ channel ∈ channelsById id, channel.id = id)
    (htargets : selectTargetChannels overridesByChannel channelsById severity
      bindings = .ok targets) :
    (Selects overridesByChannel channelsById severity binding ∧
      selectTargetChannels overridesByChannel channelsById severity
        (binding :: bindings) = .ok (binding.channelId :: targets)) ∨
    (¬Selects overridesByChannel channelsById severity binding ∧
      selectTargetChannels overridesByChannel channelsById severity
        (binding :: bindings) = .ok targets) := by
  obtain ⟨threshold, hthreshold, hreaches⟩ :=
    thresholdOf_reaches (hformed binding.channelId) binding severity
  simp only [selectTargetChannels, hthreshold, htargets, Selects, hreaches]
  cases threshold with
  | none =>
      right
      exact ⟨by simp, rfl⟩
  | some threshold =>
      simp only [bind, Except.bind]
      by_cases hbelow : severity.order < threshold.order
      · right
        rw [if_pos hbelow]
        have hnot : ¬threshold.order ≤ severity.order := Nat.not_le.mpr hbelow
        exact ⟨by simp [hnot], rfl⟩
      · have hreached : threshold.order ≤ severity.order := Nat.not_lt.mp hbelow
        rw [if_neg hbelow]
        cases hchannel : channelsById binding.channelId with
        | none =>
            right
            exact ⟨by simp, rfl⟩
        | some channel =>
            have hid : channel.id = binding.channelId :=
              hchannels binding.channelId channel hchannel
            cases henabled : channel.enabled with
            | true =>
                left
                rw [← hid]
                exact ⟨by simp [hreached, henabled], by simp [henabled]⟩
            | false =>
                right
                exact ⟨by simp [henabled], by simp [henabled]⟩

/-- The channels which are selected, in the order of their bindings. -/
theorem selectTargetChannels_spec
    (hformed : ∀ channel, ∀ row ∈ overridesByChannel channel, row.WellFormed)
    (hchannels : ∀ id, ∀ channel ∈ channelsById id, channel.id = id)
    (severity : Severity) (bindings : List (GroupChannelBinding Id)) :
    ∃ targets,
      selectTargetChannels overridesByChannel channelsById severity bindings =
        .ok targets ∧
      targets.Sublist (bindings.map GroupChannelBinding.channelId) ∧
      ∀ id, id ∈ targets ↔ ∃ binding ∈ bindings, binding.channelId = id ∧
        Selects overridesByChannel channelsById severity binding := by
  induction bindings with
  | nil =>
      refine ⟨[], rfl, List.Sublist.refl _, ?_⟩
      simp
  | cons binding bindings ih =>
      obtain ⟨targets, htargets, hsublist, hmem⟩ := ih
      rcases selectTargetChannels_cons binding hformed hchannels htargets with
        ⟨hselects, hcons⟩ | ⟨hselects, hcons⟩
      · refine ⟨binding.channelId :: targets, hcons,
          hsublist.cons_cons _, ?_⟩
        intro id
        rw [List.mem_cons, hmem, List.exists_mem_cons_iff]
        constructor
        · rintro (rfl | hrest)
          · exact Or.inl ⟨rfl, hselects⟩
          · exact Or.inr hrest
        · rintro (⟨rfl, -⟩ | hrest)
          · exact Or.inl rfl
          · exact Or.inr hrest
      · refine ⟨targets, hcons, hsublist.cons _, ?_⟩
        intro id
        rw [hmem, List.exists_mem_cons_iff]
        constructor
        · exact Or.inr
        · rintro (⟨-, hselected⟩ | hrest)
          · exact absurd hselected hselects
          · exact hrest

end Selection

/-! ## Tables and sessions -/

structure BindingRow (Id : Type) where
  tenantId : Id
  groupId : Id
  enabled : Bool
  binding : GroupChannelBinding Id

structure OverrideRow (Id : Type) where
  tenantId : Id
  receiverId : Id
  channelId : Id
  override : ReceiverChannelOverride Id

structure ChannelRow (Id : Type) where
  tenantId : Id
  channel : DeliveryChannel Id

structure Tables (Id : Type) where
  bindings : List (BindingRow Id)
  overrides : List (OverrideRow Id)
  channels : List (ChannelRow Id)

/-- The unique constraints and the primary key, with the overrides as the
requests write them. -/
structure Tables.Valid (tables : Tables Id) : Prop where
  bindings : (tables.bindings.map fun row =>
    (row.groupId, row.binding.channelId)).Nodup
  overrides : (tables.overrides.map fun row =>
    (row.receiverId, row.channelId)).Nodup
  channels : (tables.channels.map fun row => row.channel.id).Nodup
  wellFormed : ∀ row ∈ tables.overrides, row.override.WellFormed

/-- A session, with the order in which it gets the rows of a query. -/
structure Session where
  order : ∀ {Row : Type}, List Row → List Row
  perm : ∀ {Row : Type} (rows : List Row), (order rows).Perm rows

def Session.execute {Row : Type} (session : Session) (table : List Row)
    (condition : Row → Bool) : List Row :=
  session.order (table.filter condition)

theorem Session.mem_execute {Row : Type} {session : Session} {table : List Row}
    {condition : Row → Bool} {row : Row} :
    row ∈ session.execute table condition ↔
      row ∈ table ∧ condition row = true := by
  rw [execute, (session.perm _).mem_iff, List.mem_filter]

/-- Rows which differ in two columns and agree in the first one differ in the
second one. -/
theorem Session.execute_nodup {Row First Second : Type} {session : Session}
    {table : List Row} {condition : Row → Bool} {first : Row → First}
    {second : Row → Second} {value : First}
    (hunique : (table.map fun row => (first row, second row)).Nodup)
    (hsame : ∀ row ∈ session.execute table condition, first row = value) :
    ((session.execute table condition).map second).Nodup := by
  have hrows : ((session.execute table condition).map fun row =>
      (first row, second row)).Nodup := by
    have hkept : ((table.filter condition).map fun row =>
        (first row, second row)).Nodup :=
      hunique.sublist (List.filter_sublist.map _)
    exact ((session.perm _).map _).nodup_iff.mpr hkept
  apply List.Nodup.map_on _ hrows.of_map
  intro row hrow other hother heq
  apply List.inj_on_of_nodup_map hrows hrow hother
  rw [hsame row hrow, hsame other hother, heq]

/-- `{key(row): row for row in rows}`. -/
def dictBy {Row Key : Type} [DecidableEq Key] (key : Row → Key)
    (rows : List Row) : Key → Option Row :=
  rows.foldl (fun dict row => Function.update dict (key row) (some row))
    fun _ => none

theorem dictBy_append {Row Key : Type} [DecidableEq Key] (key : Row → Key)
    (rows : List Row) (row : Row) :
    dictBy key (rows ++ [row]) =
      Function.update (dictBy key rows) (key row) (some row) :=
  List.foldl_concat ..

theorem mem_dictBy {Row Key : Type} [DecidableEq Key] {key : Row → Key}
    {rows : List Row} (hunique : (rows.map key).Nodup) {id : Key} {row : Row} :
    row ∈ dictBy key rows id ↔ row ∈ rows ∧ key row = id := by
  induction rows using List.reverseRecOn with
  | nil => simp [dictBy]
  | append_singleton rows last ih =>
      rw [List.map_append, List.nodup_append] at hunique
      have hlast : ∀ other ∈ rows, key other ≠ key last := by
        intro other hother
        exact hunique.2.2 (key other) (List.mem_map_of_mem hother) (key last)
          (List.mem_singleton_self _)
      rw [dictBy_append, List.mem_append, List.mem_singleton]
      by_cases hid : id = key last
      · subst hid
        rw [Function.update_self]
        constructor
        · intro hrow
          obtain rfl := Option.some.inj hrow
          exact ⟨Or.inr rfl, rfl⟩
        · rintro ⟨hrow | rfl, hkey⟩
          · exact absurd hkey (hlast row hrow)
          · rfl
      · rw [Function.update_of_ne hid, ih hunique.1]
        constructor
        · exact fun hrow => ⟨Or.inl hrow.1, hrow.2⟩
        · rintro ⟨hrow | rfl, hkey⟩
          · exact ⟨hrow, hkey⟩
          · exact absurd hkey.symm hid

/-! ## The two creators -/

/-- What a new delivery says. -/
structure Outgoing (Id : Type) where
  tenantId : Id
  notificationId : Id
  channelId : Id
  status : DeliveryStatus
  attempts : ℤ
  deriving DecidableEq

/-- A row of `deliveries` as it is added. -/
structure Delivery (Id : Type) extends Outgoing Id where
  id : Id
  nextAttemptAt : Instant

/-- `_add_deliveries`, with the clock and the ids which `uuid4` draws. -/
def addDeliveries (now : Instant) (draw : ℕ → Id) (tenantId notificationId : Id)
    (channelIds : List Id) : List (Delivery Id) :=
  channelIds.zipIdx.map fun drawn =>
    { tenantId := tenantId
      notificationId := notificationId
      channelId := drawn.1
      status := .pending
      attempts := 0
      id := draw drawn.2
      nextAttemptAt := now }

theorem map_addDeliveries (now : Instant) (draw : ℕ → Id)
    (tenantId notificationId : Id) (channelIds : List Id) :
    (addDeliveries now draw tenantId notificationId channelIds).map
        Delivery.toOutgoing =
      channelIds.map fun channelId =>
        ⟨tenantId, notificationId, channelId, .pending, 0⟩ := by
  rw [addDeliveries, List.map_map]
  have hfst := congrArg (List.map fun channelId : Id =>
    (⟨tenantId, notificationId, channelId, .pending, 0⟩ : Outgoing Id))
    (List.zipIdx_map_fst 0 channelIds)
  rw [List.map_map] at hfst
  exact hfst

theorem channelIds_addDeliveries (now : Instant) (draw : ℕ → Id)
    (tenantId notificationId : Id) (channelIds : List Id) :
    (addDeliveries now draw tenantId notificationId channelIds).map
        (fun delivery => delivery.channelId) = channelIds := by
  have houtgoing := congrArg (List.map Outgoing.channelId)
    (map_addDeliveries now draw tenantId notificationId channelIds)
  rw [List.map_map, List.map_map] at houtgoing
  exact houtgoing.trans (List.map_id _)

variable [DecidableEq Id]

/-- `create_deliveries_for_notification`: the rows which it adds. -/
def createDeliveriesForNotification
    (session : Session) (now : Instant) (draw : ℕ → Id) (tables : Tables Id)
    (tenantId groupId receiverId notificationId : Id) (severity : Severity) :
    Except AssertionError (List (Delivery Id)) :=
  let bindings := session.execute tables.bindings fun row =>
    row.tenantId = tenantId && row.groupId = groupId && row.enabled
  if bindings.isEmpty then .ok []
  else do
    let overrides := session.execute tables.overrides fun row =>
      row.tenantId = tenantId && row.receiverId = receiverId
    let overridesByChannel := dictBy OverrideRow.channelId overrides
    let channelIds := bindings.map fun row => row.binding.channelId
    let channels := session.execute tables.channels fun row =>
      row.tenantId = tenantId && channelIds.contains row.channel.id
    let channelsById := dictBy (fun row => row.channel.id) channels
    let targets ← selectTargetChannels
      (fun id => (overridesByChannel id).map OverrideRow.override)
      (fun id => (channelsById id).map ChannelRow.channel) severity
      (bindings.map BindingRow.binding)
    return addDeliveries now draw tenantId notificationId targets

/-- `create_deliveries_for_notification_sync`: the rows which it adds. -/
def createDeliveriesForNotificationSync
    (session : Session) (now : Instant) (draw : ℕ → Id) (tables : Tables Id)
    (tenantId groupId receiverId notificationId : Id) (severity : Severity) :
    Except AssertionError (List (Delivery Id)) :=
  let bindings := session.execute tables.bindings fun row =>
    row.tenantId = tenantId && row.groupId = groupId && row.enabled
  if bindings.isEmpty then .ok []
  else do
    let overridesByChannel := dictBy OverrideRow.channelId
      (session.execute tables.overrides fun row =>
        row.tenantId = tenantId && row.receiverId = receiverId)
    let channelsById := dictBy (fun row => row.channel.id)
      (session.execute tables.channels fun row =>
        row.tenantId = tenantId &&
          (bindings.map fun binding => binding.binding.channelId).contains
            row.channel.id)
    let targets ← selectTargetChannels
      (fun id => (overridesByChannel id).map OverrideRow.override)
      (fun id => (channelsById id).map ChannelRow.channel) severity
      (bindings.map BindingRow.binding)
    return addDeliveries now draw tenantId notificationId targets

/-! ## What both of them create -/

/-- The override of a receiver for a channel. -/
def Tables.overrideOf (tables : Tables Id) (tenantId receiverId channelId : Id) :
    Option (ReceiverChannelOverride Id) :=
  (tables.overrides.find? fun row => row.tenantId = tenantId &&
    row.receiverId = receiverId && row.channelId = channelId).map
      OverrideRow.override

/-- The notification of a receiver goes to the channel. -/
def Tables.Routes (tables : Tables Id) (tenantId groupId receiverId : Id)
    (severity : Severity) (channelId : Id) : Prop :=
  ∃ row ∈ tables.bindings, row.tenantId = tenantId ∧ row.groupId = groupId ∧
    row.enabled = true ∧ row.binding.channelId = channelId ∧
    Reaches severity row.binding
      (tables.overrideOf tenantId receiverId channelId) ∧
    ∃ other ∈ tables.channels, other.tenantId = tenantId ∧
      other.channel.id = channelId ∧ other.channel.enabled = true

section Creators

variable {tables : Tables Id} {session : Session}
  {tenantId groupId receiverId notificationId channelId : Id}

theorem mem_find?_of_unique {Row : Type} {table : List Row}
    {condition : Row → Bool}
    (hunique : ∀ row ∈ table, ∀ other ∈ table, condition row = true →
      condition other = true → row = other) {row : Row} :
    row ∈ table.find? condition ↔ row ∈ table ∧ condition row = true := by
  constructor
  · intro hfound
    exact ⟨List.mem_of_find?_eq_some hfound, List.find?_some hfound⟩
  · rintro ⟨hrow, hcondition⟩
    cases hfound : table.find? condition with
    | none =>
        rw [List.find?_eq_none] at hfound
        exact absurd hcondition (hfound row hrow)
    | some other =>
        have hother := List.mem_of_find?_eq_some hfound
        rw [hunique row hrow other hother hcondition (List.find?_some hfound)]
        rfl

theorem Tables.Valid.overrideOf_wellFormed (hvalid : tables.Valid)
    (tenantId receiverId channelId : Id) :
    ∀ override ∈ tables.overrideOf tenantId receiverId channelId,
      override.WellFormed := by
  intro override hoverride
  obtain ⟨row, hrow, rfl⟩ := Option.map_eq_some_iff.mp hoverride
  exact hvalid.wellFormed row (List.mem_of_find?_eq_some hrow)

/-- The dictionary of the overrides. -/
theorem Tables.Valid.overridesByChannel (hvalid : tables.Valid)
    (session : Session) (tenantId receiverId channelId : Id) :
    (dictBy OverrideRow.channelId (session.execute tables.overrides fun row =>
        row.tenantId = tenantId && row.receiverId = receiverId)
      channelId).map OverrideRow.override =
        tables.overrideOf tenantId receiverId channelId := by
  have hsame : ∀ row ∈ session.execute tables.overrides (fun row =>
      row.tenantId = tenantId && row.receiverId = receiverId),
      row.receiverId = receiverId := by
    intro row hrow
    have hcondition := (Session.mem_execute.mp hrow).2
    simp only [Bool.and_eq_true, decide_eq_true_eq] at hcondition
    exact hcondition.2
  have hunique := Session.execute_nodup hvalid.overrides hsame
  have hone : ∀ row ∈ tables.overrides, ∀ other ∈ tables.overrides,
      (row.tenantId = tenantId && row.receiverId = receiverId &&
        row.channelId = channelId) = true →
      (other.tenantId = tenantId && other.receiverId = receiverId &&
        other.channelId = channelId) = true → row = other := by
    intro row hrow other hother hcondition hcondition'
    simp only [Bool.and_eq_true, decide_eq_true_eq] at hcondition hcondition'
    apply List.inj_on_of_nodup_map hvalid.overrides hrow hother
    rw [hcondition.1.2, hcondition.2, hcondition'.1.2, hcondition'.2]
  rw [overrideOf]
  congr 1
  ext row
  change row ∈ dictBy _ _ _ ↔ row ∈ List.find? _ _
  rw [mem_dictBy hunique, mem_find?_of_unique hone, Session.mem_execute]
  simp only [Bool.and_eq_true, decide_eq_true_eq, and_assoc]

/-- The dictionary of the channels which the bindings name. -/
theorem Tables.Valid.mem_channelsById (hvalid : tables.Valid)
    (session : Session) (tenantId channelId : Id) (channelIds : List Id)
    {channel : DeliveryChannel Id} :
    channel ∈ (dictBy (fun row : ChannelRow Id => row.channel.id)
        (session.execute tables.channels fun row =>
          row.tenantId = tenantId && channelIds.contains row.channel.id)
        channelId).map ChannelRow.channel ↔
      channelId ∈ channelIds ∧ channel.id = channelId ∧
        ∃ row ∈ tables.channels, row.tenantId = tenantId ∧
          row.channel = channel := by
  have hunique : ((session.execute tables.channels fun row =>
      row.tenantId = tenantId && channelIds.contains row.channel.id).map
        fun row => row.channel.id).Nodup := by
    apply ((session.perm _).map _).nodup_iff.mpr
    exact hvalid.channels.sublist (List.filter_sublist.map _)
  constructor
  · intro hchannel
    obtain ⟨row, hrow, rfl⟩ := Option.map_eq_some_iff.mp hchannel
    obtain ⟨hloaded, hid⟩ := (mem_dictBy hunique).mp hrow
    obtain ⟨hstored, hcondition⟩ := Session.mem_execute.mp hloaded
    simp only [Bool.and_eq_true, decide_eq_true_eq, List.contains_iff_mem]
      at hcondition
    exact ⟨hid ▸ hcondition.2, hid, row, hstored, hcondition.1, rfl⟩
  · rintro ⟨hnamed, hid, row, hrow, htenant, rfl⟩
    have hloaded : row ∈ session.execute tables.channels fun row =>
        row.tenantId = tenantId && channelIds.contains row.channel.id := by
      rw [Session.mem_execute]
      simp only [Bool.and_eq_true, decide_eq_true_eq, List.contains_iff_mem]
      exact ⟨hrow, htenant, hid ▸ hnamed⟩
    exact Option.map_eq_some_iff.mpr
      ⟨row, (mem_dictBy hunique).mpr ⟨hloaded, hid⟩, rfl⟩

/-- The bindings which are loaded. -/
theorem Session.mem_bindings {row : BindingRow Id} :
    row ∈ session.execute tables.bindings (fun row =>
        row.tenantId = tenantId && row.groupId = groupId && row.enabled) ↔
      row ∈ tables.bindings ∧ row.tenantId = tenantId ∧ row.groupId = groupId ∧
        row.enabled = true := by
  rw [Session.mem_execute]
  simp only [Bool.and_eq_true, decide_eq_true_eq, and_assoc]

/-- The channels which are selected from what a session loads. -/
theorem Tables.Valid.targets (hvalid : tables.Valid) (session : Session)
    (tenantId groupId receiverId : Id) (severity : Severity) :
    let bindings := session.execute tables.bindings fun row =>
      row.tenantId = tenantId && row.groupId = groupId && row.enabled
    let overridesByChannel := dictBy OverrideRow.channelId
      (session.execute tables.overrides fun row =>
        row.tenantId = tenantId && row.receiverId = receiverId)
    let channelsById := dictBy (fun row : ChannelRow Id => row.channel.id)
      (session.execute tables.channels fun row => row.tenantId = tenantId &&
        (bindings.map fun row => row.binding.channelId).contains row.channel.id)
    ∃ targets,
      selectTargetChannels
        (fun id => (overridesByChannel id).map OverrideRow.override)
        (fun id => (channelsById id).map ChannelRow.channel) severity
        (bindings.map BindingRow.binding) = .ok targets ∧
      targets.Nodup ∧
      ∀ id, id ∈ targets ↔
        tables.Routes tenantId groupId receiverId severity id := by
  intro bindings overridesByChannel channelsById
  have hoverride : ∀ id, (overridesByChannel id).map OverrideRow.override =
      tables.overrideOf tenantId receiverId id :=
    hvalid.overridesByChannel session tenantId receiverId
  have hchannel : ∀ id channel,
      channel ∈ (channelsById id).map ChannelRow.channel ↔
        id ∈ (bindings.map fun row => row.binding.channelId) ∧
          channel.id = id ∧ ∃ row ∈ tables.channels, row.tenantId = tenantId ∧
            row.channel = channel :=
    fun id channel => hvalid.mem_channelsById session tenantId id _
  have hformed : ∀ id,
      ∀ override ∈ (overridesByChannel id).map OverrideRow.override,
        override.WellFormed := by
    intro id
    rw [hoverride]
    exact hvalid.overrideOf_wellFormed tenantId receiverId id
  have hids : ∀ id, ∀ channel ∈ (channelsById id).map ChannelRow.channel,
      channel.id = id :=
    fun id channel hmem => ((hchannel id channel).mp hmem).2.1
  obtain ⟨targets, htargets, hsublist, hmem⟩ := selectTargetChannels_spec
    hformed hids severity (bindings.map BindingRow.binding)
  refine ⟨targets, htargets, ?_, ?_⟩
  · have hgroup : ∀ row ∈ bindings, row.groupId = groupId :=
      fun row hrow => (Session.mem_bindings.mp hrow).2.2.1
    rw [List.map_map] at hsublist
    exact (Session.execute_nodup hvalid.bindings hgroup).sublist hsublist
  · intro id
    rw [hmem]
    constructor
    · rintro ⟨binding, hbinding, hid, hreaches, channel, hselected, henabled⟩
      obtain ⟨row, hrow, rfl⟩ := List.mem_map.mp hbinding
      obtain ⟨hstored, htenant, hgroup, hrowEnabled⟩ :=
        Session.mem_bindings.mp hrow
      rw [hid] at hreaches hselected
      have hreached : Reaches severity row.binding
          (tables.overrideOf tenantId receiverId id) := by
        rw [← hoverride]
        exact hreaches
      obtain ⟨-, hchannelId, other, hother, hotherTenant, rfl⟩ :=
        (hchannel id channel).mp hselected
      exact ⟨row, hstored, htenant, hgroup, hrowEnabled, hid, hreached, other,
        hother, hotherTenant, hchannelId, henabled⟩
    · rintro ⟨row, hstored, htenant, hgroup, hrowEnabled, hid, hreaches, other,
        hother, hotherTenant, hchannelId, henabled⟩
      have hrow : row ∈ bindings :=
        Session.mem_bindings.mpr ⟨hstored, htenant, hgroup, hrowEnabled⟩
      refine ⟨row.binding, List.mem_map_of_mem hrow, hid, ?_, other.channel, ?_,
        henabled⟩
      · rw [← hoverride] at hreaches
        rw [hid]
        exact hreaches
      · rw [hid]
        exact (hchannel id other.channel).mpr
          ⟨List.mem_map.mpr ⟨row, hrow, hid⟩, hchannelId, other, hother,
            hotherTenant, rfl⟩

/-- A delivery for every channel to which the notification goes, and no other
one. -/
theorem createDeliveriesForNotification_spec (hvalid : tables.Valid)
    (session : Session) (now : Instant) (draw : ℕ → Id)
    (tenantId groupId receiverId notificationId : Id) (severity : Severity) :
    ∃ created,
      createDeliveriesForNotification session now draw tables tenantId groupId
        receiverId notificationId severity = .ok created ∧
      (created.map fun delivery => delivery.channelId).Nodup ∧
      ∀ outgoing, outgoing ∈ created.map Delivery.toOutgoing ↔
        ∃ channelId,
          tables.Routes tenantId groupId receiverId severity channelId ∧
          outgoing = ⟨tenantId, notificationId, channelId, .pending, 0⟩ := by
  obtain ⟨targets, htargets, hunique, hroutes⟩ :=
    hvalid.targets session tenantId groupId receiverId severity
  refine ⟨addDeliveries now draw tenantId notificationId targets, ?_, ?_, ?_⟩
  · rw [createDeliveriesForNotification]
    by_cases hempty : (session.execute tables.bindings fun row =>
        row.tenantId = tenantId && row.groupId = groupId &&
          row.enabled).isEmpty = true
    · have hnone : targets = [] := by
        rw [List.isEmpty_iff.mp hempty] at htargets
        exact (Except.ok.inj htargets).symm
      rw [if_pos hempty, hnone]
      rfl
    · rw [if_neg hempty]
      change (selectTargetChannels _ _ _ _ >>= fun targets =>
        .ok (addDeliveries now draw tenantId notificationId targets)) = _
      rw [htargets]
      rfl
  · rw [channelIds_addDeliveries]
    exact hunique
  · intro outgoing
    rw [map_addDeliveries, List.mem_map]
    constructor
    · rintro ⟨channelId, hchannelId, rfl⟩
      exact ⟨channelId, (hroutes channelId).mp hchannelId, rfl⟩
    · rintro ⟨channelId, hrouted, rfl⟩
      exact ⟨channelId, (hroutes channelId).mpr hrouted, rfl⟩

/-- Both load the same rows for the same rule. -/
theorem createDeliveriesForNotificationSync_eq :
    @createDeliveriesForNotificationSync Id _ =
      @createDeliveriesForNotification Id _ :=
  rfl

end Creators

omit [DecidableEq Id] in
/-- Two creators which add a delivery for the same channels add the same
deliveries. -/
theorem perm_of_spec {created others : List (Delivery Id)}
    {routed : Outgoing Id → Prop}
    (hcreated : (created.map fun delivery => delivery.channelId).Nodup)
    (hothers : (others.map fun delivery => delivery.channelId).Nodup)
    (hmem : ∀ outgoing, outgoing ∈ created.map Delivery.toOutgoing ↔
      routed outgoing)
    (hmem' : ∀ outgoing, outgoing ∈ others.map Delivery.toOutgoing ↔
      routed outgoing) :
    (created.map Delivery.toOutgoing).Perm
      (others.map Delivery.toOutgoing) := by
  have hnodup : ∀ {deliveries : List (Delivery Id)},
      (deliveries.map fun delivery => delivery.channelId).Nodup →
      (deliveries.map Delivery.toOutgoing).Nodup := by
    intro deliveries hunique
    apply List.Nodup.of_map Outgoing.channelId
    rw [List.map_map]
    exact hunique
  rw [List.perm_ext_iff_of_nodup (hnodup hcreated) (hnodup hothers)]
  intro outgoing
  rw [hmem, hmem']

/-- The rule selects each channel once, exactly when its threshold is reached,
and more of them for a higher severity; both creators add the same deliveries,
each once. -/
theorem routing (Id : Type) [DecidableEq Id] :
    (∀ (bindings : List (GroupChannelBinding Id))
        (overridesByChannel : Id → Option (ReceiverChannelOverride Id))
        (channelsById : Id → Option (DeliveryChannel Id)),
      (bindings.map GroupChannelBinding.channelId).Nodup →
      (∀ id, ∀ override ∈ overridesByChannel id, override.WellFormed) →
      (∀ id, ∀ channel ∈ channelsById id, channel.id = id) →
      ∃ targets : Severity → List Id, ∀ severity,
        selectTargetChannels overridesByChannel channelsById severity bindings =
          .ok (targets severity) ∧
        (targets severity).Nodup ∧
        (∀ id, id ∈ targets severity ↔
          ∃ binding ∈ bindings, binding.channelId = id ∧
            Selects overridesByChannel channelsById severity binding) ∧
        ∀ higher, severity.order ≤ higher.order →
          targets severity ⊆ targets higher) ∧
    ∀ (tables : Tables Id), tables.Valid →
      ∀ (session other : Session) (now otherNow : Instant)
        (draw otherDraw : ℕ → Id)
        (tenantId groupId receiverId notificationId : Id) (severity : Severity),
      ∃ created createdSync,
        createDeliveriesForNotification session now draw tables tenantId groupId
          receiverId notificationId severity = .ok created ∧
        createDeliveriesForNotificationSync other otherNow otherDraw tables
          tenantId groupId receiverId notificationId severity =
            .ok createdSync ∧
        (created.map Delivery.toOutgoing).Perm
          (createdSync.map Delivery.toOutgoing) ∧
        (created.map fun delivery => delivery.channelId).Nodup ∧
        ∀ outgoing, outgoing ∈ created.map Delivery.toOutgoing ↔
          ∃ channelId,
            tables.Routes tenantId groupId receiverId severity channelId ∧
            outgoing = ⟨tenantId, notificationId, channelId, .pending, 0⟩ := by
  constructor
  · intro bindings overridesByChannel channelsById hunique hformed hids
    choose targets htargets using fun severity =>
      selectTargetChannels_spec hformed hids severity bindings
    refine ⟨targets, fun severity => ?_⟩
    obtain ⟨hok, hsublist, hmem⟩ := htargets severity
    refine ⟨hok, hunique.sublist hsublist, hmem, ?_⟩
    intro higher hhigher id hid
    obtain ⟨binding, hbinding, hchannel, hreaches, hselected⟩ :=
      (hmem id).mp hid
    exact ((htargets higher).2.2 id).mpr
      ⟨binding, hbinding, hchannel, hreaches.mono hhigher, hselected⟩
  · intro tables hvalid session other now otherNow draw otherDraw tenantId
      groupId receiverId notificationId severity
    obtain ⟨created, hcreated, hunique, hmem⟩ :=
      createDeliveriesForNotification_spec hvalid session now draw tenantId
        groupId receiverId notificationId severity
    obtain ⟨others, hothers, hunique', hmem'⟩ :=
      createDeliveriesForNotification_spec hvalid other otherNow otherDraw
        tenantId groupId receiverId notificationId severity
    rw [createDeliveriesForNotificationSync_eq]
    exact ⟨created, others, hcreated, hothers,
      perm_of_spec hunique hunique' hmem hmem', hunique, hmem⟩

/-! ## One notification -/

/-- A muted channel, one with a threshold of its own and one which is
switched off. -/
def threeChannels : Tables ℕ where
  bindings := [⟨1, 2, true, ⟨10, .info⟩⟩, ⟨1, 2, true, ⟨11, .critical⟩⟩,
    ⟨1, 2, true, ⟨12, .info⟩⟩]
  overrides := [⟨1, 3, 10, ⟨20, .mute, none⟩⟩,
    ⟨1, 3, 11, ⟨21, .override, some .warning⟩⟩]
  channels := [⟨1, ⟨10, true⟩⟩, ⟨1, ⟨11, true⟩⟩, ⟨1, ⟨12, false⟩⟩]

def inTableOrder : Session where
  order rows := rows
  perm _ := .refl _

def inReverseOrder : Session where
  order rows := rows.reverse
  perm := List.reverse_perm

/-- Whatever the order of the rows, one channel gets the error. -/
theorem routing_three :
    ∃ created createdSync,
      createDeliveriesForNotification inTableOrder 5 id threeChannels 1 2 3 4
        .error = .ok created ∧
      createDeliveriesForNotificationSync inReverseOrder 7 (· + 100)
        threeChannels 1 2 3 4 .error = .ok createdSync ∧
      (created.map Delivery.toOutgoing).Perm
        (createdSync.map Delivery.toOutgoing) ∧
      created.map (fun delivery => delivery.channelId) = [11] := by
  have hvalid : threeChannels.Valid := by
    constructor
    · decide
    · decide
    · decide
    · decide
  obtain ⟨created, createdSync, hcreated, hcreatedSync, hperm, -⟩ :=
    (routing ℕ).2 threeChannels hvalid inTableOrder inReverseOrder 5 7 id
      (· + 100) 1 2 3 4 .error
  refine ⟨created, createdSync, hcreated, hcreatedSync, hperm, ?_⟩
  have hone : createDeliveriesForNotification inTableOrder 5 id threeChannels 1
      2 3 4 .error = .ok [⟨⟨1, 4, 11, .pending, 0⟩, 0, 5⟩] := rfl
  rw [← Except.ok.inj (hone.symm.trans hcreated)]
  rfl

end NotifyHub.Routing
