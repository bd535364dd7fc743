import NotifyHub.AuditTruth
import Mathlib.Tactic

/-!
# What the audit covers

The hook sees what passes through the unit of work.  Four handlers also send
statements on sets of rows: three delete rows this way and tell nothing, the
bulk read writes its event itself.
-/

namespace NotifyHub.Audit

section Coverage

variable {Id : Type}

/-! ## What has to be told -/

/-- What a write does to a row. -/
inductive Deed
  | inserted
  | changed (column : Column)
  | deleted

/-- The part of a write which the audit has to tell.  Ingestion inserts the
notifications. -/
def Write.Does (write : Write Id) (key : Key Id) : Deed → Prop
  | .inserted =>
      key.model ≠ .notification ∧ write.before key = none ∧
        write.after key ≠ none
  | .changed column =>
      ∃ before after, write.before key = some before ∧
        write.after key = some after ∧ before column ≠ after column ∧
        ∀ spec, key.model.spec = some spec →
          column ∈ auditableFields key.model spec
  | .deleted => write.before key ≠ none ∧ write.after key = none

/-- The event of the row itself. -/
def AuditEvent.Tells (event : AuditEvent Id) (key : Key Id) (deed : Deed) :
    Prop :=
  ∃ spec, key.model.spec = some spec ∧
    event.resourceType = spec.resourceType ∧ event.resourceId = some key.id ∧
    match deed with
    | .inserted => event.action = spec.resourceType ++ ".created".toList
    | .changed column => ∃ change, (column, change) ∈ event.changes
    | .deleted => event.action = spec.resourceType ++ ".deleted".toList

/-- The one event of a bulk read; beyond a number of rows it does not list
them. -/
def AuditEvent.TellsBulk (event : AuditEvent Id) (key : Key Id) (deed : Deed) :
    Prop :=
  key.model = .notification ∧ deed = .changed statusColumn ∧
    event.action = bulkMarkedRead ∧
    ∃ count listed, event.context = .bulkRead count listed ∧
      ∀ ids, listed = some ids → key.id ∈ ids

def AuditEvent.Covers (event : AuditEvent Id) (key : Key Id) (deed : Deed) :
    Prop :=
  event.Tells key deed ∨ event.TellsBulk key deed

/-- The events which the transaction commits. -/
def UnitOfWork.events (ctx : AuditContext) (session : UnitOfWork Id) :
    List (AuditEvent Id) :=
  (session.writes.flatMap fun write => pendingEvents ctx write.pending) ++
    session.recorded

/-- Every row of an audited class which a statement of the request itself
writes is covered. -/
def UnitOfWork.Complete (ctx : AuditContext) (session : UnitOfWork Id) : Prop :=
  ∀ write ∈ session.writes, write.origin ≠ .foreignKey →
    ∀ key deed, key.model.spec ≠ none → write.Does key deed →
      ∃ event ∈ session.events ctx, event.Covers key deed

/-! ## The writes of a flush -/

theorem mem_changesForUpdate_of_ne
    {model : Model} {spec : ResourceSpec} {before after : Row}
    {column : Column} (hfield : column ∈ auditableFields model spec)
    (hdiffer : before column ≠ after column) :
    (column, ⟨masked column (before column), masked column (after column)⟩) ∈
      changesForUpdate model spec before after :=
  List.mem_filterMap.mpr ⟨column, hfield, if_neg hdiffer⟩

/-- A change of one of the two fields of a notification has its action. -/
theorem exists_mem_columnAction
    {changes : Changes} {column : Column} {change : Change}
    (name : Change → Text) (hmem : (column, change) ∈ changes) :
    ∃ action told, (action, column, told) ∈ columnAction changes column name := by
  have hsome : (changes.find? fun entry => entry.1 = column).isSome := by
    rw [List.find?_isSome]
    exact ⟨(column, change), hmem, by simp⟩
  obtain ⟨entry, hentry⟩ := Option.isSome_iff_exists.mp hsome
  refine ⟨name entry.2, entry.2, List.mem_map.mpr ⟨entry, ?_, rfl⟩⟩
  exact Option.mem_toList.mpr hentry

theorem notification_field
    {spec : ResourceSpec} {column : Column}
    (hspec : Model.notification.spec = some spec)
    (hfield : column ∈ auditableFields .notification spec) :
    column = statusColumn ∨ column = verifiedColumn := by
  have hfields : spec.fields = some [statusColumn, verifiedColumn] := by
    rw [Model.spec] at hspec
    rw [← Option.some.inj hspec]
    rfl
  rw [auditableFields, hfields] at hfield
  have hlisted := (List.mem_filter.mp hfield).2
  simpa only [decide_eq_true_eq, List.mem_cons, List.not_mem_nil, or_false]
    using hlisted

theorem exists_mem_notificationActions
    {changes : Changes} {column : Column} {change : Change}
    (hmem : (column, change) ∈ changes)
    (hcolumn : column = statusColumn ∨ column = verifiedColumn) :
    ∃ action told, (action, column, told) ∈ notificationActions changes := by
  rcases hcolumn with rfl | rfl
  · obtain ⟨action, told, haction⟩ := exists_mem_columnAction _ hmem
    exact ⟨action, told, List.mem_append_left _ haction⟩
  · obtain ⟨action, told, haction⟩ := exists_mem_columnAction _ hmem
    exact ⟨action, told, List.mem_append_right _ haction⟩

/-- The hook tells what the write does to the row of an object. -/
theorem exists_event_of_describes
    {ctx : AuditContext} {defaults : InsertDefaults} {write : Write Id}
    {pending : Pending Id} {deed : Deed} {spec : ResourceSpec}
    (hdescribes : pending.Describes defaults write.before write.after)
    (hspec : pending.key.model.spec = some spec)
    (hdoes : write.Does pending.key deed) :
    ∃ event ∈ collect ctx pending, event.Tells pending.key deed := by
  cases pending with
  | created key row =>
      obtain ⟨hbefore, hafter⟩ := hdescribes
      cases deed with
      | inserted =>
          simp only [Pending.key] at hspec hdoes
          refine ⟨plainEvent ctx spec key row "created"
            (changesForInsert key.model spec row), ?_, spec, hspec, rfl, rfl,
            rfl⟩
          simp [collect, hspec, hdoes.1]
      | changed column =>
          obtain ⟨old, -, hold, -⟩ := hdoes
          rw [Pending.key, hbefore] at hold
          cases hold
      | deleted => exact absurd hbefore hdoes.1
  | updated key old new =>
      obtain ⟨hbefore, hafter⟩ := hdescribes
      cases deed with
      | inserted =>
          rw [Write.Does, Pending.key, hbefore] at hdoes
          cases hdoes.2.1
      | changed column =>
          obtain ⟨before, after, hold, hnew, hdiffer, hfield⟩ := hdoes
          obtain rfl := Option.some.inj (hbefore.symm.trans hold)
          obtain rfl := Option.some.inj (hafter.symm.trans hnew)
          have hmem := mem_changesForUpdate_of_ne (hfield spec hspec) hdiffer
          simp only [Pending.key] at hspec hmem hfield ⊢
          have hsome : changesForUpdate key.model spec old new ≠ [] :=
            List.ne_nil_of_mem hmem
          by_cases hmodel : key.model = .notification
          · have hcolumn : column = statusColumn ∨ column = verifiedColumn := by
              rw [hmodel] at hspec
              exact notification_field hspec (hmodel ▸ hfield spec (hmodel ▸ hspec))
            obtain ⟨action, told, haction⟩ :=
              exists_mem_notificationActions hmem hcolumn
            refine ⟨recordEvent ctx (tenantOf ctx new) action spec.resourceType
              (some key.id) (labelFor spec new) [(column, told)] .none, ?_,
              spec, hspec, rfl, rfl, told, List.mem_singleton_self _⟩
            simp only [collect, hspec, if_neg hsome, if_pos hmodel]
            exact List.mem_map.mpr ⟨(action, column, told), haction, rfl⟩
          · refine ⟨plainEvent ctx spec key new "updated"
              (changesForUpdate key.model spec old new), ?_, spec, hspec, rfl,
              rfl, _, hmem⟩
            simp only [collect, hspec, if_neg hsome, if_neg hmodel]
            exact List.mem_singleton_self _
      | deleted =>
          rw [Write.Does, Pending.key, hafter] at hdoes
          cases hdoes.2
  | deleted key row =>
      obtain ⟨hbefore, hafter⟩ := hdescribes
      cases deed with
      | inserted =>
          rw [Write.Does, Pending.key, hbefore] at hdoes
          cases hdoes.2.1
      | changed column =>
          obtain ⟨-, new, -, hnew, -⟩ := hdoes
          rw [Pending.key, hafter] at hnew
          cases hnew
      | deleted =>
          simp only [Pending.key] at hspec
          by_cases hmodel : key.model = .notification
          · refine ⟨recordEvent ctx (tenantOf ctx row) notificationDeleted
              spec.resourceType (some key.id) none [] .none, ?_, spec, hspec,
              rfl, rfl, ?_⟩
            · simp only [collect, hspec, if_pos hmodel]
              exact List.mem_singleton_self _
            · rw [hmodel] at hspec
              obtain rfl := Option.some.inj hspec
              rfl
          · refine ⟨plainEvent ctx spec key row "deleted" [], ?_, spec, hspec,
              rfl, rfl, rfl⟩
            simp only [collect, hspec, if_neg hmodel]
            exact List.mem_singleton_self _

theorem Write.Does.changes
    {write : Write Id} {key : Key Id} {deed : Deed}
    (hdoes : write.Does key deed) : write.before key ≠ write.after key := by
  intro hsame
  cases deed with
  | inserted => exact hdoes.2.2 (hsame ▸ hdoes.2.1)
  | changed column =>
      obtain ⟨before, after, hbefore, hafter, hdiffer, -⟩ := hdoes
      rw [hsame, hafter] at hbefore
      exact hdiffer (by rw [Option.some.inj hbefore])
  | deleted => exact hdoes.1 (hsame ▸ hdoes.2)

/-- A flush leaves nothing untold. -/
theorem Write.Faithful.covered
    {ctx : AuditContext} {defaults : InsertDefaults} {write : Write Id}
    {key : Key Id} {deed : Deed} (hfaithful : write.Faithful defaults)
    (hflush : write.origin = .flush) (hspec : key.model.spec ≠ none)
    (hdoes : write.Does key deed) :
    ∃ event ∈ pendingEvents ctx write.pending, event.Covers key deed := by
  obtain ⟨pending, hpending, rfl⟩ := hfaithful.complete hflush key hdoes.changes
  obtain ⟨spec, hsome⟩ := Option.ne_none_iff_exists'.mp hspec
  have htold : ∃ event ∈ collect ctx pending, event.Tells pending.key deed :=
    exists_event_of_describes (hfaithful.describes pending hpending) hsome hdoes
  obtain ⟨event, hevent, htells⟩ := htold
  exact ⟨event, List.mem_flatMap.mpr ⟨pending, hpending, hevent⟩, .inl htells⟩

/-! ## Events of deletions -/

/-- The name of a resource is the name of one class. -/
theorem model_eq_of_resourceType
    {first second : Model} {spec other : ResourceSpec}
    (hfirst : first.spec = some spec) (hsecond : second.spec = some other)
    (hname : spec.resourceType = other.resourceType) : first = second := by
  have hnames : first.spec.map ResourceSpec.resourceType =
      second.spec.map ResourceSpec.resourceType := by
    rw [hfirst, hsecond, Option.map_some, Option.map_some, hname]
  have hsome : (first.spec.map ResourceSpec.resourceType).isSome := by
    rw [hfirst]
    rfl
  clear hfirst hsecond hname
  revert hnames hsome
  cases first <;> cases second <;> decide

/-- What the events of an object are about. -/
theorem collect_resource
    {ctx : AuditContext} {pending : Pending Id} {event : AuditEvent Id}
    (hevent : event ∈ collect ctx pending) :
    ∃ spec, pending.key.model.spec = some spec ∧
      event.resourceType = spec.resourceType ∧
      event.resourceId = some pending.key.id := by
  cases pending with
  | created key row =>
      simp only [collect] at hevent
      split at hevent
      · cases hevent
      next spec hspec =>
        split at hevent
        · cases hevent
        · obtain rfl := List.mem_singleton.mp hevent
          exact ⟨spec, hspec, rfl, rfl⟩
  | updated key before after =>
      simp only [collect] at hevent
      split at hevent
      · cases hevent
      next spec hspec =>
        split at hevent
        · cases hevent
        · split at hevent
          · obtain ⟨told, -, rfl⟩ := List.mem_map.mp hevent
            exact ⟨spec, hspec, rfl, rfl⟩
          · obtain rfl := List.mem_singleton.mp hevent
            exact ⟨spec, hspec, rfl, rfl⟩
  | deleted key row =>
      simp only [collect] at hevent
      split at hevent
      · cases hevent
      next spec hspec =>
        split at hevent
        · obtain rfl := List.mem_singleton.mp hevent
          exact ⟨spec, hspec, rfl, rfl⟩
        · obtain rfl := List.mem_singleton.mp hevent
          exact ⟨spec, hspec, rfl, rfl⟩

theorem columnAction_action
    {changes : Changes} {wanted : Column} {name : Change → Text}
    {told : Text × Column × Change}
    (htold : told ∈ columnAction changes wanted name) :
    ∃ change, told.1 = name change := by
  obtain ⟨entry, -, rfl⟩ := List.mem_map.mp htold
  exact ⟨entry.2, rfl⟩

theorem notificationActions_action
    {changes : Changes} {told : Text × Column × Change}
    (htold : told ∈ notificationActions changes) :
    told.1 ∈ [markedRead, markedUnread, markedVerified, markedUnverified] := by
  rcases List.mem_append.mp htold with hstatus | hverified
  · obtain ⟨change, hname⟩ := columnAction_action hstatus
    rw [hname]
    split
    · decide
    · decide
  · obtain ⟨change, hname⟩ := columnAction_action hverified
    rw [hname]
    split
    · decide
    · decide

/-- Only an object which is deleted has an event of a deletion. -/
theorem eq_deleted_of_tells
    {ctx : AuditContext} {pending : Pending Id} {event : AuditEvent Id}
    {key : Key Id} (hevent : event ∈ collect ctx pending)
    (htells : event.Tells key .deleted) :
    ∃ row, pending = .deleted key row := by
  obtain ⟨spec, hspec, htype, hid, haction⟩ := htells
  obtain ⟨own, hown, hownType, hownId⟩ := collect_resource hevent
  have hkey : pending.key = key := by
    have hmodel := model_eq_of_resourceType hown hspec
      (hownType.symm.trans htype)
    have hsame := Option.some.inj (hownId.symm.trans hid)
    cases hpending : pending.key
    cases key
    simp_all
  rw [← htype, hownType] at haction
  cases pending with
  | created created row =>
      exfalso
      simp only [collect, show created.model.spec = some own from hown]
        at hevent
      split at hevent
      · cases hevent
      · obtain rfl := List.mem_singleton.mp hevent
        have hsuffix := List.append_cancel_left haction
        exact absurd hsuffix (by decide)
  | updated updated before after =>
      exfalso
      simp only [collect, show updated.model.spec = some own from hown]
        at hevent
      split at hevent
      · cases hevent
      · split at hevent
        next hmodel =>
          obtain ⟨told, htold, rfl⟩ := List.mem_map.mp hevent
          have hname : own.resourceType = "notification".toList := by
            have hnotification : updated.model.spec = some own := hown
            rw [hmodel] at hnotification
            rw [← Option.some.inj hnotification]
          have hlisted := notificationActions_action htold
          rw [show told.1 = own.resourceType ++ ".deleted".toList from haction,
            hname] at hlisted
          exact absurd hlisted (by decide)
        · obtain rfl := List.mem_singleton.mp hevent
          have hsuffix := List.append_cancel_left haction
          exact absurd hsuffix (by decide)
  | deleted deleted row => exact ⟨row, by rw [← hkey]; rfl⟩

/-! ## The writes of a run -/

section Run

variable [DecidableEq Id] {ctx : AuditContext} {defaults : InsertDefaults}
  {operations : List (Operation Id)} {session last : UnitOfWork Id}

/-- What every operation keeps, a run keeps. -/
theorem runOperations_keeps
    (Keeps : UnitOfWork Id → Prop)
    (hkeeps : ∀ operation ∈ operations, ∀ before after : UnitOfWork Id,
      operation.apply ctx defaults before = some after →
        Keeps before → Keeps after)
    (hrun : runOperations ctx defaults operations session = some last)
    (hstart : Keeps session) : Keeps last := by
  induction operations generalizing session with
  | nil =>
      obtain rfl := Option.some.inj hrun
      exact hstart
  | cons operation rest ih =>
      rw [runOperations, List.foldlM_cons] at hrun
      obtain ⟨next, hnext, hrest⟩ := Option.bind_eq_some_iff.mp hrun
      apply ih (fun later hlater => hkeeps later (by simp [hlater])) hrest
      exact hkeeps operation (by simp) session next hnext hstart

theorem runOperations_append
    {first second : List (Operation Id)} :
    runOperations ctx defaults (first ++ second) session =
      (runOperations ctx defaults first session).bind
        (runOperations ctx defaults second) := by
  simp only [runOperations, List.foldlM_append]
  rfl

omit [DecidableEq Id] in
/-- An operation which sends no statement on a set of rows. -/
def Operation.Plain : Operation Id → Prop
  | .execute _ => False
  | _ => True

omit [DecidableEq Id] in
def Operation.Records : Operation Id → Prop
  | .record .. => True
  | _ => False

/-- What an operation can do. -/
theorem apply_cases
    {operation : Operation Id} {next : UnitOfWork Id}
    (happly : operation.apply ctx defaults session = some next) :
    (∃ key object, next = session.touch key object ∧
      (object = none → operation = .delete key)) ∨
    next = session.flush defaults ∨
    (∃ origin database,
      next = (session.flush defaults).write origin database [] ∧
        (operation.Plain → origin ≠ .statement)) ∨
    (operation.Records ∧ ∃ event,
      next = { session with recorded := session.recorded ++ [event] }) := by
  cases operation with
  | add key row =>
      simp only [Operation.apply] at happly
      split at happly
      · exact .inl ⟨key, some row, (Option.some.inj happly).symm, by rintro ⟨⟩⟩
      · cases happly
  | assign key column value =>
      obtain ⟨row, -, rfl⟩ := Option.map_eq_some_iff.mp happly
      exact .inl ⟨key, _, rfl, by rintro ⟨⟩⟩
  | delete key =>
      simp only [Operation.apply] at happly
      split at happly
      · exact .inl ⟨key, none, (Option.some.inj happly).symm, fun _ => rfl⟩
      · cases happly
  | flush => exact .inr (.inl (Option.some.inj happly).symm)
  | execute statement =>
      exact .inr (.inr (.inl
        ⟨.statement, _, (Option.some.inj happly).symm, by rintro ⟨⟩⟩))
  | cascade selects =>
      exact .inr (.inr (.inl
        ⟨.foreignKey, _, (Option.some.inj happly).symm, by rintro ⟨⟩ ⟨⟩⟩))
  | record action resourceType resourceId context =>
      exact .inr (.inr (.inr
        ⟨trivial, _, (Option.some.inj happly).symm⟩))

theorem writes_subset_of_run
    (hrun : runOperations ctx defaults operations session = some last) :
    session.writes ⊆ last.writes := by
  refine runOperations_keeps
    (fun later => session.writes ⊆ later.writes) ?_ hrun (List.Subset.refl _)
  intro operation _ before after happly hsubset
  rcases apply_cases happly with ⟨key, object, rfl, -⟩ | rfl |
    ⟨origin, database, rfl, -⟩ | ⟨-, event, rfl⟩
  · exact hsubset
  · exact List.subset_append_of_subset_left _ hsubset
  · exact List.subset_append_of_subset_left _
      (List.subset_append_of_subset_left _ hsubset)
  · exact hsubset

/-- A run of the unit of work sends no statement on a set of rows. -/
theorem origin_of_plain
    (hplain : ∀ operation ∈ operations, operation.Plain)
    (hrun : runOperations ctx defaults operations session = some last) :
    ∀ write ∈ last.writes,
      write ∈ session.writes ∨ write.origin ≠ .statement := by
  have hwrite : ∀ (later : UnitOfWork Id) origin database pending,
      (∀ write ∈ later.writes,
        write ∈ session.writes ∨ write.origin ≠ .statement) →
      origin ≠ .statement →
      ∀ write ∈ (later.write origin database pending).writes,
        write ∈ session.writes ∨ write.origin ≠ .statement := by
    intro later origin database pending hlater horigin write hmem
    rcases List.mem_append.mp hmem with hold | hnew
    · exact hlater write hold
    · obtain rfl := List.mem_singleton.mp hnew
      exact .inr horigin
  refine runOperations_keeps
    (fun later => ∀ write ∈ later.writes,
      write ∈ session.writes ∨ write.origin ≠ .statement) ?_ hrun
    fun _ => .inl
  intro operation hoperation before after happly hbefore
  rcases apply_cases happly with ⟨key, object, rfl, -⟩ | rfl |
    ⟨origin, database, rfl, horigin⟩ | ⟨-, event, rfl⟩
  · exact hbefore
  · exact hwrite _ _ _ _ hbefore nofun
  · apply hwrite
    · exact hwrite _ _ _ _ hbefore nofun
    · exact horigin (hplain operation hoperation)
  · exact hbefore

theorem recorded_of_silent
    (hsilent : ∀ operation ∈ operations, ¬operation.Records)
    (hrun : runOperations ctx defaults operations session = some last) :
    last.recorded = session.recorded := by
  refine runOperations_keeps
    (fun later => later.recorded = session.recorded) ?_ hrun rfl
  intro operation hoperation before after happly hrecorded
  rcases apply_cases happly with ⟨key, object, rfl, -⟩ | rfl |
    ⟨origin, database, rfl, -⟩ | ⟨hrecords, event, rfl⟩
  · exact hrecorded
  · exact hrecorded
  · exact hrecorded
  · exact absurd hrecords (hsilent operation hoperation)

omit [DecidableEq Id] in
/-- Only some rows are deleted through the unit of work. -/
structure UnitOfWork.DeletesOnly (deleted : Key Id → Prop)
    (session : UnitOfWork Id) : Prop where
  objects : ∀ key ∈ session.touched, session.objects key = none → deleted key
  writes : ∀ write ∈ session.writes, ∀ key row,
    .deleted key row ∈ write.pending → deleted key

omit [DecidableEq Id] in
theorem UnitOfWork.DeletesOnly.write
    {deleted : Key Id → Prop} {origin : WriteOrigin} {database : Database Id}
    {pending : List (Pending Id)} (honly : session.DeletesOnly deleted)
    (hpending : ∀ key row, .deleted key row ∈ pending → deleted key) :
    (session.write origin database pending).DeletesOnly deleted where
  objects := nofun
  writes write hwrite key row hdeleted := by
    rcases List.mem_append.mp hwrite with hold | hnew
    · exact honly.writes write hold key row hdeleted
    · obtain rfl := List.mem_singleton.mp hnew
      exact hpending key row hdeleted

theorem UnitOfWork.DeletesOnly.flush
    {deleted : Key Id → Prop} (honly : session.DeletesOnly deleted) :
    (session.flush defaults).DeletesOnly deleted := by
  apply honly.write
  intro key row hdeleted
  obtain ⟨touched, htouched, hpending⟩ := UnitOfWork.mem_pending.mp hdeleted
  obtain rfl := UnitOfWork.pendingOf_key hpending
  apply honly.objects _ htouched
  unfold UnitOfWork.pendingOf at hpending
  split at hpending
  · cases hpending
  · cases hpending
  · assumption
  · cases hpending

theorem UnitOfWork.DeletesOnly.touch
    {deleted : Key Id → Prop} {key : Key Id} {object : Option Row}
    (honly : session.DeletesOnly deleted)
    (hobject : object = none → deleted key) :
    (session.touch key object).DeletesOnly deleted where
  objects touched htouched hnone := by
    simp only [UnitOfWork.touch] at htouched hnone
    by_cases hkey : touched = key
    · subst hkey
      rw [Function.update_self] at hnone
      exact hobject hnone
    · rw [Function.update_of_ne hkey] at hnone
      have hold : touched ∈ session.touched := by simpa [hkey] using htouched
      exact honly.objects touched hold hnone
  writes := honly.writes

/-- The hook tells a deletion only of what the handler deletes. -/
theorem deletesOnly_of_run
    {database : Database Id}
    (hrun : runOperations ctx defaults operations (.initial database) =
      some last) :
    last.DeletesOnly fun key => .delete key ∈ operations := by
  refine runOperations_keeps _ ?_ hrun ⟨nofun, nofun⟩
  intro operation hoperation before after happly honly
  rcases apply_cases happly with ⟨key, object, rfl, hobject⟩ | rfl |
    ⟨origin, database, rfl, -⟩ | ⟨-, event, rfl⟩
  · apply honly.touch
    intro hnone
    rw [← hobject hnone]
    exact hoperation
  · exact honly.flush
  · apply UnitOfWork.DeletesOnly.write
    · exact honly.flush
    · exact nofun
  · exact ⟨honly.objects, honly.writes⟩

/-! ## Statements on sets of rows -/

omit [DecidableEq Id] in
/-- `DELETE … WHERE`. -/
def deletion (selects : Key Id → Row → Bool) : Statement Id :=
  ⟨selects, fun _ => none⟩

/-- Nothing is pending, and no audited row has been written. -/
structure UnitOfWork.Quiet (first : Database Id) (session : UnitOfWork Id) :
    Prop where
  touched : session.touched = []
  same : ∀ key, key.model.spec ≠ none → session.database key = first key
  still : ∀ write ∈ session.writes, ∀ key, key.model.spec ≠ none →
    write.before key = write.after key

theorem flushed_of_untouched (hnone : session.touched = []) :
    session.flushed defaults = session.database := by
  funext key
  simp [UnitOfWork.flushed, hnone]

omit [DecidableEq Id] in
theorem UnitOfWork.Quiet.write
    {first database : Database Id} {origin : WriteOrigin}
    {pending : List (Pending Id)} (hquiet : session.Quiet first)
    (hsame : ∀ key, key.model.spec ≠ none →
      database key = session.database key) :
    (session.write origin database pending).Quiet first where
  touched := rfl
  same key hspec := (hsame key hspec).trans (hquiet.same key hspec)
  still write hwrite key hspec := by
    rcases List.mem_append.mp hwrite with hold | hnew
    · exact hquiet.still write hold key hspec
    · obtain rfl := List.mem_singleton.mp hnew
      exact (hsame key hspec).symm

theorem UnitOfWork.Quiet.flush
    {first : Database Id} (hquiet : session.Quiet first) :
    (session.flush defaults).Quiet first := by
  apply hquiet.write
  intro key _
  rw [flushed_of_untouched hquiet.touched]

/-- Statements which select no audited row write none. -/
theorem quiet_of_deletions
    {first : Database Id} {doomed : List (Key Id → Row → Bool)}
    (hnone : ∀ selects ∈ doomed, ∀ key row, first key = some row →
      key.model.spec ≠ none → selects key row = false)
    (hrun : runOperations ctx defaults
      (doomed.map fun selects => .execute (deletion selects))
      (.initial first) = some last) :
    last.Quiet first := by
  refine runOperations_keeps _ ?_ hrun ⟨rfl, fun _ _ => rfl, nofun⟩
  intro operation hoperation before after happly hquiet
  obtain ⟨selects, hselects, rfl⟩ := List.mem_map.mp hoperation
  obtain rfl := Option.some.inj happly
  have hflush : (before.flush defaults).Quiet first := hquiet.flush
  apply hflush.write
  intro key hspec
  rw [hflush.same key hspec, UnitOfWork.affect, hflush.same key hspec]
  cases hrow : first key with
  | none => rfl
  | some row => simp [deletion, hnone selects hselects key row hrow hspec]

/-- A row which a statement selects is deleted by a write the hook does not
see. -/
theorem exists_write_of_deletions
    {doomed : List (Key Id → Row → Bool)} {selects : Key Id → Row → Bool}
    {key : Key Id} {row : Row} (huntouched : session.touched = [])
    (hrow : session.database key = some row) (hmem : selects ∈ doomed)
    (hselects : selects key row = true)
    (hrun : runOperations ctx defaults
      (doomed.map fun selects => .execute (deletion selects)) session =
        some last) :
    ∃ write ∈ last.writes, write.origin = .statement ∧
      write.Does key .deleted := by
  induction doomed generalizing session with
  | nil => cases hmem
  | cons head rest ih =>
      rw [List.map_cons, runOperations, List.foldlM_cons] at hrun
      obtain ⟨next, hnext, hrest⟩ := Option.bind_eq_some_iff.mp hrun
      obtain rfl := Option.some.inj hnext
      have hflushed : (session.flush defaults).database key = some row :=
        (congrFun (flushed_of_untouched huntouched) key).trans hrow
      by_cases hhead : head key row
      · refine ⟨_, writes_subset_of_run hrest
          (List.mem_append_right _ (List.mem_singleton_self _)), rfl, ?_, ?_⟩
        · simp only [hflushed]
          rintro ⟨⟩
        · simp [UnitOfWork.affect, hflushed, deletion, hhead]
      · have hlater : selects ∈ rest := by
          rcases List.mem_cons.mp hmem with rfl | hlater
          · exact absurd hselects hhead
          · exact hlater
        apply ih rfl ?_ hlater hrest
        simp [UnitOfWork.write, UnitOfWork.affect, hflushed, deletion, hhead]

omit [DecidableEq Id] in
/-- A transaction is complete if what its statements do is covered. -/
theorem complete_of_statements
    {first : Database Id} (hsound : UnitOfWork.Sound defaults first session)
    (hcovered : ∀ write ∈ session.writes, write.origin = .statement →
      ∀ key deed, key.model.spec ≠ none → write.Does key deed →
        ∃ event ∈ session.events ctx, event.Covers key deed) :
    session.Complete ctx := by
  intro write hwrite horigin key deed hspec hdoes
  cases hcase : write.origin with
  | flush =>
      have hcovered : ∃ event ∈ pendingEvents ctx write.pending,
          event.Covers key deed :=
        (hsound.faithful write hwrite).covered hcase hspec hdoes
      obtain ⟨event, hevent, hcovers⟩ := hcovered
      refine ⟨event, List.mem_append_left _ ?_, hcovers⟩
      exact List.mem_flatMap.mpr ⟨write, hwrite, hevent⟩
  | statement => exact hcovered write hwrite hcase key deed hspec hdoes
  | foreignKey => exact absurd hcase horigin

omit [DecidableEq Id] in
/-- Work of the unit of work which deletes none of some rows. -/
def Operation.Spares (doomed : List (Key Id → Row → Bool)) :
    Operation Id → Prop
  | .add _ _ => True
  | .assign _ _ _ => True
  | .flush => True
  | .delete key => ∀ selects ∈ doomed, ∀ row, selects key row = false
  | _ => False

/-- Statements which delete sets of rows, followed by work of the unit of work
which spares these rows. -/
theorem complete_iff_of_deletions
    {first : Database Id} (doomed : List (Key Id → Row → Bool))
    (hrun : runTransaction ctx defaults
      ((doomed.map fun selects => .execute (deletion selects)) ++ operations)
      first = some session)
    (hspares : ∀ operation ∈ operations, operation.Spares doomed) :
    session.Complete ctx ↔
      ∀ selects ∈ doomed, ∀ key row, first key = some row →
        key.model.spec ≠ none → selects key row = false := by
  have hplain : ∀ operation ∈ operations, operation.Plain := by
    intro operation hoperation
    have hspared := hspares operation hoperation
    cases operation with
    | execute statement => exact hspared
    | _ => exact trivial
  have hsilent : ∀ operation ∈ operations, ¬operation.Records := by
    intro operation hoperation
    have hspared := hspares operation hoperation
    cases operation with
    | record => exact absurd hspared not_false
    | _ => exact not_false
  have hsound := UnitOfWork.sound_of_runTransaction hrun
  obtain ⟨last, hlast, rfl⟩ := Option.map_eq_some_iff.mp hrun
  have hdeletes : (last.flush defaults).DeletesOnly fun key =>
      .delete key ∈ (doomed.map fun selects => .execute (deletion selects)) ++
        operations :=
    (deletesOnly_of_run hlast).flush
  rw [runOperations_append] at hlast
  obtain ⟨middle, hmiddle, hlast⟩ := Option.bind_eq_some_iff.mp hlast
  constructor
  · intro hcomplete selects hselects key row hrow hspec
    by_contra hselected
    rw [Bool.not_eq_false] at hselected
    obtain ⟨write, hwrite, horigin, hdoes⟩ :=
      exists_write_of_deletions rfl hrow hselects hselected hmiddle
    have hcommitted : write ∈ (last.flush defaults).writes :=
      List.mem_append_left _ (writes_subset_of_run hlast hwrite)
    obtain ⟨event, hevent, hcovers⟩ := hcomplete write hcommitted
      (by rw [horigin]; nofun) key .deleted hspec hdoes
    rcases hcovers with htells | ⟨-, hdeed, -⟩
    · rcases List.mem_append.mp hevent with hhook | hrecorded
      · obtain ⟨teller, hteller, hpending⟩ := List.mem_flatMap.mp hhook
        obtain ⟨pending, hmem, hcollect⟩ := List.mem_flatMap.mp hpending
        obtain ⟨deleted, rfl⟩ := eq_deleted_of_tells hcollect htells
        have hoperation := hdeletes.writes teller hteller key deleted hmem
        rcases List.mem_append.mp hoperation with hstatement | hdelete
        · obtain ⟨_, -, hexecute⟩ := List.mem_map.mp hstatement
          cases hexecute
        · have hspared := hspares _ hdelete selects hselects row
          rw [hselected] at hspared
          cases hspared
      · have hmiddleRecorded : middle.recorded = [] := by
          apply recorded_of_silent ?_ hmiddle
          intro operation hoperation
          obtain ⟨_, -, rfl⟩ := List.mem_map.mp hoperation
          exact not_false
        have hnone : last.recorded = [] :=
          (recorded_of_silent hsilent hlast).trans hmiddleRecorded
        have hempty : event ∈ last.recorded := hrecorded
        rw [hnone] at hempty
        cases hempty
    · cases hdeed
  · intro hnone
    have hquiet := quiet_of_deletions hnone hmiddle
    apply complete_of_statements hsound
    intro write hwrite horigin key deed hspec hdoes
    rcases List.mem_append.mp hwrite with hold | hnew
    · rcases origin_of_plain hplain hlast write hold with hstatement | hother
      · exact absurd (hquiet.still write hstatement key hspec) hdoes.changes
      · exact absurd horigin hother
    · obtain rfl := List.mem_singleton.mp hnew
      cases horigin

end Run

end Coverage

end NotifyHub.Audit
