import NotifyHub.AuditCoverage
import Mathlib.Tactic

/-!
# Handlers and the audit

The handlers of authenticated requests, behind their checks.  All but four only
use the unit of work.
-/

namespace NotifyHub.Audit

/-! ## Handlers -/

/-- A row with the attributes which a constructor call sets. -/
def newRow (cells : List (String × Value)) : Row := fun column =>
  ((cells.find? fun cell => cell.1.toList = column).map Prod.snd).getD .null

def uuidCell (row : Row) (column : String) (id : Text) : Bool :=
  row column.toList = .uuid id

/-- The presets attached to a receiver. -/
def attachedTo (tenantId receiverId : Text) (key : Key Text) (row : Row) :
    Bool :=
  key.model = .receiverSeverityPreset &&
    (uuidCell row "receiver_id" receiverId &&
      uuidCell row "tenant_id" tenantId)

def ruleOf (presetId : Text) (key : Key Text) (row : Row) : Bool :=
  key.model = .severityPresetRule && uuidCell row "preset_id" presetId

/-- The rows of a class which belong to a channel. -/
def ofChannel (model : Model) (tenantId channelId : Text) (key : Key Text)
    (row : Row) : Bool :=
  key.model = model &&
    (uuidCell row "channel_id" channelId && uuidCell row "tenant_id" tenantId)

section Handlers

variable (newId : ℕ → Text)

def attach (tenantId receiverId : Text) (presetIds : List Text) :
    List (Operation Text) :=
  presetIds.mapIdx fun position presetId =>
    .add ⟨.receiverSeverityPreset, newId position⟩
      (newRow
        [("id", .uuid (newId position)), ("tenant_id", .uuid tenantId),
          ("receiver_id", .uuid receiverId), ("preset_id", .uuid presetId),
          ("position", .int position)])

/-- `set_receiver_presets`; the identifiers are those of `uuid4`. -/
def setReceiverPresets (tenantId receiverId : Text) (presetIds : List Text) :
    List (Operation Text) :=
  .execute (deletion (attachedTo tenantId receiverId)) :: .flush ::
    (attach newId tenantId receiverId presetIds ++ [.flush])

structure PresetRuleSpec where
  pattern : Text
  severity : Severity
  caseInsensitive : Bool

structure PresetSpec where
  name : Text
  description : Text
  rules : List PresetRuleSpec

/-- `_add_rules`. -/
def addRules (tenantId presetId : Text) (spec : PresetSpec) :
    List (Operation Text) :=
  spec.rules.mapIdx fun index rule =>
    .add ⟨.severityPresetRule, newId index⟩
      (newRow
        [("id", .uuid (newId index)), ("tenant_id", .uuid tenantId),
          ("preset_id", .uuid presetId),
          ("priority", .int ((index + 1) * priorityStep)),
          ("pattern", .text rule.pattern),
          ("case_insensitive", .bool rule.caseInsensitive),
          ("severity", .enumeration rule.severity.value),
          ("enabled", .bool true)])

/-- `reset_preset_to_builtin`. -/
def resetPresetToBuiltin (tenantId presetId : Text) (spec : PresetSpec) :
    List (Operation Text) :=
  .execute (deletion (ruleOf presetId)) :: .flush ::
    .assign ⟨.severityPreset, presetId⟩ "name".toList (.text spec.name) ::
    .assign ⟨.severityPreset, presetId⟩ "description".toList
      (.text spec.description) ::
    (addRules newId tenantId presetId spec ++ [.flush])

end Handlers

/-- The classes whose rows `delete_channel` deletes first. -/
def usersOfChannel (tenantId channelId : Text) :
    List (Key Text → Row → Bool) :=
  [Model.groupChannelBinding, .receiverChannelOverride, .delivery].map
    fun model => ofChannel model tenantId channelId

/-- `delete_channel`. -/
def deleteChannel (tenantId channelId : Text) : List (Operation Text) :=
  ((usersOfChannel tenantId channelId).map fun selects =>
    .execute (deletion selects)) ++
  [.flush, .delete ⟨.deliveryChannel, channelId⟩, .flush]

/-- `BULK_IDS_CAP`. -/
def bulkIdsCap : ℕ := 5000

/-- The rows which `bulk_mark_read` selects: those of its filters which are
unread. -/
def unreadOf (tenantId : Text) (filters : Key Text → Row → Bool)
    (key : Key Text) (row : Row) : Bool :=
  key.model = .notification &&
    (uuidCell row "tenant_id" tenantId &&
      (filters key row && row statusColumn = .enumeration "unread".toList))

def markedReadBy (userId : Text) (now : Datetime) (row : Row) : Row :=
  Function.update
    (Function.update
      (Function.update row statusColumn (.enumeration "read".toList))
      "read_by".toList (.uuid userId))
    "read_at".toList (.moment now)

/-- `bulk_mark_read`, with the identifiers of `RETURNING`. -/
def bulkMarkRead (tenantId userId : Text) (filters : Key Text → Row → Bool)
    (now : Datetime) (markedIds : List Text) : List (Operation Text) :=
  .execute ⟨unreadOf tenantId filters,
    fun row => some (markedReadBy userId now row)⟩ ::
  if markedIds = [] then []
  else
    [.record bulkMarkedRead "notification".toList none
      (.bulkRead markedIds.length
        (if markedIds.length ≤ bulkIdsCap then some markedIds else none))]

/-- What a handler does without statements on sets of rows. -/
structure PlainWork where
  operations : List (Operation Text)
  plain : ∀ operation ∈ operations, operation.Plain

/-- An authenticated request. -/
inductive ApiRequest
  | unitOfWork (work : PlainWork)
  | setReceiverPresets (newId : ℕ → Text) (tenantId receiverId : Text)
      (presetIds : List Text)
  | resetPreset (newId : ℕ → Text) (tenantId presetId : Text)
      (spec : PresetSpec)
  | deleteChannel (tenantId channelId : Text)
  | bulkMarkRead (tenantId userId : Text) (filters : Key Text → Row → Bool)
      (now : Datetime) (markedIds : List Text)

namespace ApiRequest

def operations : ApiRequest → List (Operation Text)
  | .unitOfWork work => work.operations
  | .setReceiverPresets newId tenantId receiverId presetIds =>
      Audit.setReceiverPresets newId tenantId receiverId presetIds
  | .resetPreset newId tenantId presetId spec =>
      resetPresetToBuiltin newId tenantId presetId spec
  | .deleteChannel tenantId channelId =>
      Audit.deleteChannel tenantId channelId
  | .bulkMarkRead tenantId userId filters now markedIds =>
      Audit.bulkMarkRead tenantId userId filters now markedIds

/-- `RETURNING` gives the rows which the statement has selected. -/
def Returned (first : Database Text) : ApiRequest → Prop
  | .bulkMarkRead tenantId _ filters _ markedIds =>
      ∀ id, id ∈ markedIds ↔
        ∃ row, first ⟨.notification, id⟩ = some row ∧
          unreadOf tenantId filters ⟨.notification, id⟩ row
  | _ => True

/-- No audited row is deleted by a statement on a set of rows. -/
def Traced (first : Database Text) : ApiRequest → Prop
  | .unitOfWork _ => True
  | .setReceiverPresets _ tenantId receiverId _ =>
      ∀ id row, first ⟨.receiverSeverityPreset, id⟩ = some row →
        ¬(uuidCell row "receiver_id" receiverId ∧
          uuidCell row "tenant_id" tenantId)
  | .resetPreset _ _ presetId _ =>
      ∀ id row, first ⟨.severityPresetRule, id⟩ = some row →
        ¬uuidCell row "preset_id" presetId
  | .deleteChannel tenantId channelId =>
      ∀ model ∈ [Model.groupChannelBinding, .receiverChannelOverride],
        ∀ id row, first ⟨model, id⟩ = some row →
          ¬(uuidCell row "channel_id" channelId ∧
            uuidCell row "tenant_id" tenantId)
  | .bulkMarkRead .. => True

end ApiRequest

/-! ## Deletions behind the hook -/

section Deletions

variable {ctx : AuditContext} {defaults : InsertDefaults}
  {first : Database Text} {session : UnitOfWork Text}

/-- No row of an audited class is selected. -/
theorem none_selected_iff
    (model : Model) (hspec : model.spec ≠ none) (own : Row → Bool) :
    (∀ key row, first key = some row → key.model.spec ≠ none →
      (decide (key.model = model) && own row) = false) ↔
      ∀ id row, first ⟨model, id⟩ = some row → ¬own row := by
  constructor
  · intro hnone id row hrow hown
    have hselected := hnone ⟨model, id⟩ row hrow hspec
    simp [hown] at hselected
  · intro hnone key row hrow _
    by_cases hmodel : key.model = model
    · subst hmodel
      simp [hnone key.id row hrow]
    · simp [hmodel]

theorem spares_of_add
    {doomed : List (Key Text → Row → Bool)} {operation : Operation Text}
    (hadd : operation = .flush ∨ ∃ key row, operation = .add key row) :
    operation.Spares doomed := by
  rcases hadd with rfl | ⟨key, row, rfl⟩
  · exact trivial
  · exact trivial

theorem setReceiverPresets_complete_iff
    {newId : ℕ → Text} {tenantId receiverId : Text} {presetIds : List Text}
    (hrun : runTransaction ctx defaults
      (setReceiverPresets newId tenantId receiverId presetIds) first =
        some session) :
    session.Complete ctx ↔
      ∀ id row, first ⟨.receiverSeverityPreset, id⟩ = some row →
        ¬(uuidCell row "receiver_id" receiverId &&
          uuidCell row "tenant_id" tenantId) := by
  rw [complete_iff_of_deletions [attachedTo tenantId receiverId] hrun]
  · simp only [List.mem_singleton, forall_eq]
    exact none_selected_iff .receiverSeverityPreset (Option.some_ne_none _) _
  · intro operation hmem
    apply spares_of_add
    rcases List.mem_cons.mp hmem with hflush | hmem
    · exact .inl hflush
    · rcases List.mem_append.mp hmem with hattach | hflush
      · obtain ⟨position, hposition, hadd⟩ := List.mem_mapIdx.mp hattach
        exact .inr ⟨_, _, hadd.symm⟩
      · exact .inl (List.mem_singleton.mp hflush)

theorem resetPresetToBuiltin_complete_iff
    {newId : ℕ → Text} {tenantId presetId : Text} {spec : PresetSpec}
    (hrun : runTransaction ctx defaults
      (resetPresetToBuiltin newId tenantId presetId spec) first =
        some session) :
    session.Complete ctx ↔
      ∀ id row, first ⟨.severityPresetRule, id⟩ = some row →
        ¬uuidCell row "preset_id" presetId := by
  rw [complete_iff_of_deletions [ruleOf presetId] hrun]
  · simp only [List.mem_singleton, forall_eq]
    exact none_selected_iff .severityPresetRule (Option.some_ne_none _) _
  · intro operation hmem
    simp only [List.mem_cons, List.mem_append, List.not_mem_nil, or_false]
      at hmem
    rcases hmem with hflush | rfl | rfl | hrule | hflush
    · exact spares_of_add (.inl hflush)
    · exact trivial
    · exact trivial
    · obtain ⟨index, hindex, hadd⟩ := List.mem_mapIdx.mp hrule
      exact spares_of_add (.inr ⟨_, _, hadd.symm⟩)
    · exact spares_of_add (.inl hflush)

theorem deleteChannel_complete_iff
    {tenantId channelId : Text}
    (hrun : runTransaction ctx defaults (deleteChannel tenantId channelId)
      first = some session) :
    session.Complete ctx ↔
      ∀ model ∈ [Model.groupChannelBinding, .receiverChannelOverride],
        ∀ id row, first ⟨model, id⟩ = some row →
          ¬(uuidCell row "channel_id" channelId &&
            uuidCell row "tenant_id" tenantId) := by
  rw [complete_iff_of_deletions (usersOfChannel tenantId channelId) hrun]
  · have hspec : ∀ model ∈ [Model.groupChannelBinding,
        .receiverChannelOverride], model.spec ≠ none := by
      intro model hmodel
      simp only [List.mem_cons, List.not_mem_nil, or_false] at hmodel
      rcases hmodel with rfl | rfl
      · exact Option.some_ne_none _
      · exact Option.some_ne_none _
    constructor
    · intro hnone model hmodel
      have hselects := hnone _ (List.mem_map_of_mem
        (List.mem_append_left [Model.delivery] hmodel))
      exact (none_selected_iff _ (hspec model hmodel) _).mp hselects
    · intro hnone selects hselects
      obtain ⟨model, hmodel, rfl⟩ := List.mem_map.mp hselects
      rcases List.mem_append.mp
        (show model ∈ [.groupChannelBinding, .receiverChannelOverride] ++
          [Model.delivery] from hmodel) with haudited | hdelivery
      · exact (none_selected_iff _ (hspec model haudited) _).mpr
          (hnone model haudited)
      · -- Deliveries are not audited.
        obtain rfl := List.mem_singleton.mp hdelivery
        intro key row _ hkey
        have hmodel : key.model ≠ .delivery := by
          intro hmodel
          rw [hmodel] at hkey
          exact hkey rfl
        simp [ofChannel, hmodel]
  · intro operation hmem
    simp only [List.mem_cons, List.not_mem_nil, or_false] at hmem
    rcases hmem with hflush | rfl | hflush
    · exact spares_of_add (.inl hflush)
    · intro selects hselects row
      obtain ⟨model, hmodel, rfl⟩ := List.mem_map.mp hselects
      simp only [List.mem_cons, List.not_mem_nil, or_false] at hmodel
      rcases hmodel with rfl | rfl | rfl
      · rfl
      · rfl
      · rfl
    · exact spares_of_add (.inl hflush)

end Deletions

/-! ## The bulk read -/

section BulkRead

variable {ctx : AuditContext} {defaults : InsertDefaults}
  {first : Database Text} {session : UnitOfWork Text}
  {tenantId userId : Text} {filters : Key Text → Row → Bool} {now : Datetime}
  {markedIds : List Text}

/-- The write of the statement of a bulk read. -/
def readWrite (tenantId userId : Text) (filters : Key Text → Row → Bool)
    (now : Datetime) (first : Database Text) : Write Text :=
  ⟨.statement, first,
    UnitOfWork.affect (unreadOf tenantId filters)
      (fun row => some (markedReadBy userId now row)) first, []⟩

theorem markedReadBy_verified (row : Row) :
    markedReadBy userId now row verifiedColumn = row verifiedColumn := by
  rw [markedReadBy, Function.update_of_ne (by decide),
    Function.update_of_ne (by decide), Function.update_of_ne (by decide)]

/-- A bulk read changes the status of the notifications which it selects. -/
theorem readWrite_does
    {key : Key Text} {deed : Deed} (hspec : key.model.spec ≠ none)
    (hdoes : (readWrite tenantId userId filters now first).Does key deed) :
    key.model = .notification ∧ deed = .changed statusColumn ∧
      ∃ row, first key = some row ∧ unreadOf tenantId filters key row := by
  obtain ⟨row, hrow, hselected⟩ :
      ∃ row, first key = some row ∧ unreadOf tenantId filters key row := by
    by_contra hnone
    apply hdoes.changes
    cases hrow : first key with
    | none => simp [readWrite, UnitOfWork.affect, hrow]
    | some row =>
        have hleft : unreadOf tenantId filters key row = false := by
          rw [← Bool.not_eq_true]
          exact fun hselected => hnone ⟨row, hrow, hselected⟩
        simp [readWrite, UnitOfWork.affect, hrow, hleft]
  have hafter : (readWrite tenantId userId filters now first).after key =
      some (markedReadBy userId now row) := by
    simp [readWrite, UnitOfWork.affect, hrow, hselected]
  have hmodel : key.model = .notification := by
    rw [unreadOf, Bool.and_eq_true] at hselected
    simpa using hselected.1
  refine ⟨hmodel, ?_, row, hrow, hselected⟩
  cases deed with
  | inserted => exact absurd hmodel hdoes.1
  | changed column =>
      obtain ⟨old, new, hold, hnew, hdiffer, hfield⟩ := hdoes
      obtain rfl := Option.some.inj (hrow.symm.trans hold)
      obtain rfl := Option.some.inj (hafter.symm.trans hnew)
      obtain ⟨spec, hsome⟩ := Option.ne_none_iff_exists'.mp hspec
      have hcolumn := hfield spec hsome
      rw [hmodel] at hsome hcolumn
      rcases notification_field hsome hcolumn with rfl | rfl
      · rfl
      · exact absurd (markedReadBy_verified row).symm hdiffer
  | deleted =>
      rw [Write.Does, hafter] at hdoes
      cases hdoes.2

theorem bulkMarkRead_complete
    (hreturned : ∀ id, id ∈ markedIds ↔
      ∃ row, first ⟨.notification, id⟩ = some row ∧
        unreadOf tenantId filters ⟨.notification, id⟩ row)
    (hrun : runTransaction ctx defaults
      (bulkMarkRead tenantId userId filters now markedIds) first =
        some session) :
    session.Complete ctx := by
  apply complete_of_statements (UnitOfWork.sound_of_runTransaction hrun)
  obtain ⟨last, hlast, rfl⟩ := Option.map_eq_some_iff.mp hrun
  rw [bulkMarkRead, runOperations, List.foldlM_cons] at hlast
  obtain ⟨middle, hmiddle, hrest⟩ := Option.bind_eq_some_iff.mp hlast
  obtain rfl := Option.some.inj hmiddle
  intro write hwrite horigin key deed hspec hdoes
  have hread : write = readWrite tenantId userId filters now first := by
    rcases List.mem_append.mp hwrite with hold | hnew
    · have hplain := origin_of_plain ?_ hrest write hold
      · rcases hplain with hfirst | hother
        · rcases List.mem_append.mp hfirst with hflush | hstatement
          · obtain rfl := List.mem_singleton.mp hflush
            cases horigin
          · obtain rfl := List.mem_singleton.mp hstatement
            have hflushed : (UnitOfWork.initial first).flushed defaults = first :=
              flushed_of_untouched rfl
            simp only [readWrite, UnitOfWork.flush, UnitOfWork.write, hflushed]
        · exact absurd horigin hother
      · intro operation hoperation
        split at hoperation
        · cases hoperation
        · obtain rfl := List.mem_singleton.mp hoperation
          exact trivial
    · obtain rfl := List.mem_singleton.mp hnew
      cases horigin
  subst hread
  obtain ⟨hmodel, rfl, row, hrow, hselected⟩ := readWrite_does hspec hdoes
  have hkey : key = ⟨.notification, key.id⟩ := by
    rw [← hmodel]
  have hmarked : key.id ∈ markedIds := by
    rw [hreturned, ← hkey]
    exact ⟨row, hrow, hselected⟩
  rw [if_neg (List.ne_nil_of_mem hmarked)] at hrest
  obtain rfl := Option.some.inj hrest
  refine ⟨_, List.mem_append_right _ (List.mem_singleton_self _), .inr
    ⟨hmodel, rfl, rfl, _, _, rfl, ?_⟩⟩
  intro ids hids
  split at hids
  · obtain rfl := Option.some.inj hids
    exact hmarked
  · cases hids

end BulkRead

/-! ## All requests -/

/-- In every transaction which an authenticated request commits, every row of an
audited class which a statement of the request inserts, deletes or changes in
an audited field has its event, exactly if the request deletes none of these
rows by a statement on a set of rows. -/
theorem audit_complete_iff
    {ctx : AuditContext} {defaults : InsertDefaults} {request : ApiRequest}
    {first : Database Text} {session : UnitOfWork Text}
    (hreturned : request.Returned first)
    (hrun : runTransaction ctx defaults request.operations first =
      some session) :
    session.Complete ctx ↔ request.Traced first := by
  cases request with
  | unitOfWork work =>
      refine iff_of_true ?_ trivial
      apply complete_of_statements (UnitOfWork.sound_of_runTransaction hrun)
      obtain ⟨last, hlast, rfl⟩ := Option.map_eq_some_iff.mp hrun
      intro write hwrite horigin
      exfalso
      rcases List.mem_append.mp hwrite with hold | hnew
      · rcases origin_of_plain work.plain hlast write hold with hnone | hother
        · cases hnone
        · exact hother horigin
      · obtain rfl := List.mem_singleton.mp hnew
        cases horigin
  | setReceiverPresets newId tenantId receiverId presetIds =>
      have hiff := setReceiverPresets_complete_iff hrun
      simpa only [ApiRequest.Traced, Bool.and_eq_true] using hiff
  | resetPreset newId tenantId presetId spec =>
      exact resetPresetToBuiltin_complete_iff hrun
  | deleteChannel tenantId channelId =>
      have hiff := deleteChannel_complete_iff hrun
      simpa only [ApiRequest.Traced, Bool.and_eq_true] using hiff
  | bulkMarkRead tenantId userId filters now markedIds =>
      exact iff_of_true (bulkMarkRead_complete hreturned hrun) trivial

/-- A channel which nothing uses. -/
def unusedChannel : Database Text := fun key =>
  if key = ⟨.deliveryChannel, "c".toList⟩ then
    some (newRow
      [("id", .uuid "c".toList), ("tenant_id", .uuid "t".toList),
        ("name", .text "ops".toList), ("enabled", .bool true)])
  else none

theorem audit_complete_iff_deleteChannel :
    ∃ session : UnitOfWork Text,
      runTransaction admin noDefaults
        (ApiRequest.deleteChannel "t".toList "c".toList).operations
        unusedChannel = some session ∧
      session.Complete admin := by
  obtain ⟨session, hrun⟩ : ∃ session : UnitOfWork Text,
      runTransaction admin noDefaults
        (ApiRequest.deleteChannel "t".toList "c".toList).operations
        unusedChannel = some session := ⟨_, rfl⟩
  have hreturned :
      (ApiRequest.deleteChannel "t".toList "c".toList).Returned unusedChannel :=
    trivial
  refine ⟨session, hrun, (audit_complete_iff hreturned hrun).mpr ?_⟩
  intro model hmodel id row hrow
  have hother : model ≠ .deliveryChannel := by
    rintro rfl
    exact absurd hmodel (by decide)
  rw [unusedChannel, if_neg fun hkey => hother (congrArg Key.model hkey)] at hrow
  cases hrow

/-- A preset is attached to a receiver. -/
def attachedOnce : Database Text := fun key =>
  if key = ⟨.receiverSeverityPreset, "a".toList⟩ then
    some (newRow
      [("id", .uuid "a".toList), ("tenant_id", .uuid "t".toList),
        ("receiver_id", .uuid "r".toList), ("preset_id", .uuid "p".toList),
        ("position", .int 0)])
  else none

/-- Nothing tells that the preset is detached. -/
theorem detach_untold :
    ∃ session : UnitOfWork Text,
      runTransaction admin noDefaults
        (ApiRequest.setReceiverPresets (fun _ => []) "t".toList "r".toList
          []).operations attachedOnce = some session ∧
      (attachedOnce ⟨.receiverSeverityPreset, "a".toList⟩).isSome ∧
      session.database ⟨.receiverSeverityPreset, "a".toList⟩ = none ∧
      session.events admin = [] ∧
      ¬session.Complete admin := by
  obtain ⟨session, hrun, hlast, hevents, write, hwrite, horigin, hbefore,
      hafter⟩ :
      ∃ session : UnitOfWork Text,
        runTransaction admin noDefaults
          (ApiRequest.setReceiverPresets (fun _ => []) "t".toList "r".toList
            []).operations attachedOnce = some session ∧
        session.database ⟨.receiverSeverityPreset, "a".toList⟩ = none ∧
        session.events admin = [] ∧
        ∃ write ∈ session.writes, write.origin = .statement ∧
          (write.before ⟨.receiverSeverityPreset, "a".toList⟩).isSome ∧
          write.after ⟨.receiverSeverityPreset, "a".toList⟩ = none :=
    ⟨_, rfl, rfl, rfl, _, List.mem_cons_of_mem _ List.mem_cons_self, rfl, rfl,
      rfl⟩
  refine ⟨session, hrun, rfl, hlast, hevents, ?_⟩
  intro hcomplete
  have hdoes : write.Does ⟨.receiverSeverityPreset, "a".toList⟩ .deleted :=
    ⟨Option.isSome_iff_ne_none.mp hbefore, hafter⟩
  obtain ⟨event, hevent, -⟩ := hcomplete write hwrite (by rw [horigin]; nofun)
    ⟨.receiverSeverityPreset, "a".toList⟩ .deleted (Option.some_ne_none _) hdoes
  rw [hevents] at hevent
  cases hevent

end NotifyHub.Audit
