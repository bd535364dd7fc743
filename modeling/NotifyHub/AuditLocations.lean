import NotifyHub.ChunkedLookup
import NotifyHub.CursorText
import Mathlib.Tactic

/-!
# The locations of audit events

`app.services.audit_location`.  The events of a page are resolved together:
their references are collected by type, and the tables are read level by level
in chunks.  Each event gets the location which its own references lead to.
-/

namespace NotifyHub.AuditLocation

/-! ## Events and tables -/

/-- A value of Python, as far as the module looks into it. -/
inductive PyValue
  | uuid (id : Uuid)
  | text (text : Text)
  | dict (items : List (Text × PyValue))
  | other

structure Event where
  id : Uuid
  resourceType : Text
  resourceId : PyValue
  context : PyValue

/-- The tables in which a resource leads to its receiver or its group. -/
inductive Model
  | notification
  | severityRule
  | receiverSeverityPreset
  | receiverChannelOverride
  | groupChannelBinding

structure ReceiverRow where
  name : Text
  groupId : Uuid

/-- The tables, with the column `receiver_id` or `group_id` of a model. -/
structure Database where
  parents : Model → Table Uuid Uuid
  receivers : Table Uuid ReceiverRow
  groups : Table Uuid Text

/-- `RECEIVER_SOURCES`; without a model the resource is the receiver. -/
def receiverSources : List (Text × Option Model) :=
  [("receiver".toList, none),
    ("notification".toList, some .notification),
    ("severity_rule".toList, some .severityRule),
    ("receiver_severity_preset".toList, some .receiverSeverityPreset),
    ("receiver_channel_override".toList, some .receiverChannelOverride)]

/-- `GROUP_SOURCES`. -/
def groupSources : List (Text × Option Model) :=
  [("group".toList, none),
    ("group_channel_binding".toList, some .groupChannelBinding)]

/-- `Location`; what is missing is null. -/
structure Location where
  groupId : Option Text
  groupName : Option Text
  receiverId : Option Text
  receiverName : Option Text
  deriving DecidableEq

/-! ## References -/

section References

-- `uuid.UUID` of a text, with no value for a `ValueError`
variable (readUuid : Text → Option Uuid)

/-- `_as_uuid`. -/
def asUuid : PyValue → Option Uuid
  | .uuid id => some id
  | .text text => readUuid text
  | _ => none

/-- `items.get(key)`. -/
def get (items : List (Text × PyValue)) (key : Text) : PyValue :=
  (items.lookup key).getD .other

/-- `_filter_scope`. -/
def filterScope (event : Event) : Option Uuid × Option Uuid :=
  match event.context with
  | .dict context =>
      match get context "filters".toList with
      | .dict filters =>
          (asUuid readUuid (get filters "receiver_id".toList),
            asUuid readUuid (get filters "group_id".toList))
      | _ => (none, none)
  | _ => (none, none)

/-! ## The first pass -/

/-- What the loop over the events has collected. -/
structure Collected where
  daRisolvere : Dict Text (Finset Uuid)
  receiverDiretti : Dict Uuid Uuid
  gruppoDiretti : Dict Uuid Uuid
  indiretti : Dict Uuid (Text × Uuid)

def Collected.empty : Collected :=
  ⟨∅, ∅, ∅, ∅⟩

/-- `da_risolvere.setdefault(resource_type, set()).add(resource_id)`, with the
entry of the event in `indiretti`. -/
def Collected.addIndirect
    (collected : Collected) (event : Event) (resourceId : Uuid) : Collected :=
  let ids := (collected.daRisolvere.lookup event.resourceType).getD ∅
  { collected with
    indiretti :=
      collected.indiretti.insert event.id (event.resourceType, resourceId)
    daRisolvere := collected.daRisolvere.insert event.resourceType
      (insert resourceId ids) }

/-- One turn of the loop over the events. -/
def Collected.add (collected : Collected) (event : Event) : Collected :=
  match asUuid readUuid event.resourceId with
  | none =>
      match filterScope readUuid event with
      | (some receiverId, _) =>
          { collected with
            receiverDiretti :=
              collected.receiverDiretti.insert event.id receiverId }
      | (none, some groupId) =>
          { collected with
            gruppoDiretti := collected.gruppoDiretti.insert event.id groupId }
      | (none, none) => collected
  | some resourceId =>
      match receiverSources.lookup event.resourceType with
      | some none =>
          { collected with
            receiverDiretti :=
              collected.receiverDiretti.insert event.id resourceId }
      | some (some _) => collected.addIndirect event resourceId
      | none =>
          match groupSources.lookup event.resourceType with
          | some none =>
              { collected with
                gruppoDiretti :=
                  collected.gruppoDiretti.insert event.id resourceId }
          | some (some _) => collected.addIndirect event resourceId
          | none => collected

def collect (events : List Event) : Collected :=
  events.foldl (Collected.add readUuid) .empty

end References

/-! ## The queries -/

/-- The model of a type in `da_risolvere`. -/
def modelOf (resourceType : Text) : Option Model :=
  match receiverSources.lookup resourceType with
  | some model => model
  | none => (groupSources.lookup resourceType).join

/-- `padri`: one `_lookup` for each type. -/
def loadParents
    (db : Database) (chunk : ℕ+) (daRisolvere : Dict Text (Finset Uuid)) :
    Dict Text (Dict Uuid Uuid) :=
  .fill (fun resourceType ids =>
    (modelOf resourceType).map fun model => (db.parents model).load chunk ids)
    daRisolvere ∅

def parentIn
    (padri : Dict Text (Dict Uuid Uuid)) (resource : Text × Uuid) :
    Option Uuid :=
  (padri.lookup resource.1).bind fun parents => parents.lookup resource.2

def isReceiverSource (resourceType : Text) : Bool :=
  (receiverSources.lookup resourceType).isSome

/-- The parents of the indirect events, as receivers or as groups. -/
def addParents
    (padri : Dict Text (Dict Uuid Uuid)) (collected : Collected) :
    Collected :=
  { collected with
    receiverDiretti := .fill (fun _ resource =>
      if isReceiverSource resource.1 then parentIn padri resource else none)
      collected.indiretti collected.receiverDiretti
    gruppoDiretti := .fill (fun _ resource =>
      if isReceiverSource resource.1 then none else parentIn padri resource)
      collected.indiretti collected.gruppoDiretti }

/-- The location of a receiver which is still there. -/
def receiverLocation
    (gruppi : Dict Uuid Text) (receiverId : Uuid) (row : ReceiverRow) :
    Location where
  groupId := some (uuidText row.groupId)
  groupName := gruppi.lookup row.groupId
  receiverId := some (uuidText receiverId)
  receiverName := some row.name

def groupLocation (groupId : Uuid) (groupName : Text) : Location where
  groupId := some (uuidText groupId)
  groupName := some groupName
  receiverId := none
  receiverName := none

/-- The receivers and groups by name, and a location for each event. -/
def place (db : Database) (chunk : ℕ+) (collected : Collected) :
    Dict Uuid Location :=
  let receivers := db.receivers.load chunk collected.receiverDiretti.values
  let groupIds := collected.gruppoDiretti.values ∪
    (receivers.entries.map fun item => item.2.groupId).toFinset
  let gruppi := db.groups.load chunk groupIds
  let posizioni : Dict Uuid Location := .fill (fun _ receiverId =>
    (receivers.lookup receiverId).map (receiverLocation gruppi receiverId))
    collected.receiverDiretti ∅
  .fill (fun _ groupId => (gruppi.lookup groupId).map (groupLocation groupId))
    collected.gruppoDiretti posizioni

/-- `resolve_locations` with chunks of a given size. -/
def resolveInChunks
    (readUuid : Text → Option Uuid) (db : Database) (chunk : ℕ+)
    (events : List Event) : Dict Uuid Location :=
  let collected := collect readUuid events
  place db chunk
    (addParents (loadParents db chunk collected.daRisolvere) collected)

/-- `CHUNK`. -/
def chunkSize : ℕ+ := 1000

def resolveLocations
    (readUuid : Text → Option Uuid) (db : Database) (events : List Event) :
    Dict Uuid Location :=
  resolveInChunks readUuid db chunkSize events

/-! ## One event alone -/

/-- Where the walk from an event starts. -/
inductive Target
  | receiver (id : Uuid)
  | group (id : Uuid)
  | through (resource : Text × Uuid)

section Walk

variable (readUuid : Text → Option Uuid)

def target (event : Event) : Option Target :=
  match asUuid readUuid event.resourceId with
  | none =>
      match filterScope readUuid event with
      | (some receiverId, _) => some (.receiver receiverId)
      | (none, some groupId) => some (.group groupId)
      | (none, none) => none
  | some resourceId =>
      match receiverSources.lookup event.resourceType with
      | some none => some (.receiver resourceId)
      | some (some _) => some (.through (event.resourceType, resourceId))
      | none =>
          match groupSources.lookup event.resourceType with
          | some none => some (.group resourceId)
          | some (some _) => some (.through (event.resourceType, resourceId))
          | none => none

/-- The receiver or group of a resource which is still there. -/
def parentOf (db : Database) (resource : Text × Uuid) : Option Uuid :=
  (modelOf resource.1).bind fun model => (db.parents model).find resource.2

/-- The receiver which the walk reaches. -/
def receiverReached (db : Database) (event : Event) : Option Uuid :=
  match target readUuid event with
  | some (.receiver id) => some id
  | some (.through resource) =>
      if isReceiverSource resource.1 then parentOf db resource else none
  | _ => none

/-- The group which the walk reaches without a receiver. -/
def groupReached (db : Database) (event : Event) : Option Uuid :=
  match target readUuid event with
  | some (.group id) => some id
  | some (.through resource) =>
      if isReceiverSource resource.1 then none else parentOf db resource
  | _ => none

def locateReceiver (db : Database) (receiverId : Uuid) : Option Location :=
  (db.receivers.find receiverId).map fun row =>
    { groupId := some (uuidText row.groupId)
      groupName := db.groups.find row.groupId
      receiverId := some (uuidText receiverId)
      receiverName := some row.name }

def locateGroup (db : Database) (groupId : Uuid) : Option Location :=
  (db.groups.find groupId).map (groupLocation groupId)

/-- The location of one event by its own references. -/
def locate (db : Database) (event : Event) : Option Location :=
  match groupReached readUuid db event with
  | some groupId => locateGroup db groupId
  | none => (receiverReached readUuid db event).bind (locateReceiver db)

/-- The event leads to a receiver or to a group, not to both. -/
theorem receiverReached_of_groupReached
    {db : Database} {event : Event} {groupId : Uuid}
    (hgroup : groupReached readUuid db event = some groupId) :
    receiverReached readUuid db event = none := by
  unfold groupReached at hgroup
  unfold receiverReached
  cases htarget : target readUuid event with
  | none => rfl
  | some found =>
      rw [htarget] at hgroup
      cases found with
      | receiver id => cases hgroup
      | group id => rfl
      | through resource =>
          by_cases hsource : isReceiverSource resource.1 = true
          · simp [hsource] at hgroup
          · simp [hsource]

end Walk

/-! ## What the first pass collects -/

section Collected

variable {readUuid : Text → Option Uuid} {done events : List Event}
variable {event : Event} {Value : Type}

/-- The dictionary has the values of these events under their ids. -/
def Records
    (dict : Dict Uuid Value) (events : List Event)
    (value : Event → Option Value) : Prop :=
  ∀ key found, dict.lookup key = some found ↔
    ∃ event ∈ events, event.id = key ∧ value event = some found

theorem Records.insert
    {dict : Dict Uuid Value} {value : Event → Option Value}
    (hrecords : Records dict done value)
    (hfresh : event.id ∉ done.map Event.id) {new : Value}
    (hnew : value event = some new) :
    Records (dict.insert event.id new) (done ++ [event]) value := by
  intro key found
  rw [Dict.lookup_insert_eq]
  by_cases hkey : key = event.id
  · subst hkey
    rw [if_pos rfl]
    constructor
    · rintro ⟨⟩
      exact ⟨event, by simp, rfl, hnew⟩
    · rintro ⟨other, hother, hid, hvalue⟩
      rcases List.mem_append.mp hother with hdone | hlast
      · exact absurd (hid ▸ List.mem_map_of_mem hdone) hfresh
      · rw [List.mem_singleton.mp hlast, hnew] at hvalue
        exact hvalue
  · rw [if_neg hkey, hrecords key found]
    constructor
    · rintro ⟨other, hother, hid, hvalue⟩
      exact ⟨other, List.mem_append_left _ hother, hid, hvalue⟩
    · rintro ⟨other, hother, hid, hvalue⟩
      rcases List.mem_append.mp hother with hdone | hlast
      · exact ⟨other, hdone, hid, hvalue⟩
      · rw [List.mem_singleton.mp hlast] at hid
        exact absurd hid.symm hkey

theorem Records.skip
    {dict : Dict Uuid Value} {value : Event → Option Value}
    (hrecords : Records dict done value) (hnone : value event = none) :
    Records dict (done ++ [event]) value := by
  intro key found
  rw [hrecords key found]
  constructor
  · rintro ⟨other, hother, hid, hvalue⟩
    exact ⟨other, List.mem_append_left _ hother, hid, hvalue⟩
  · rintro ⟨other, hother, hid, hvalue⟩
    rcases List.mem_append.mp hother with hdone | hlast
    · exact ⟨other, hdone, hid, hvalue⟩
    · rw [List.mem_singleton.mp hlast, hnone] at hvalue
      cases hvalue

/-- Events with distinct ids do not share an entry. -/
theorem Records.lookup_eq
    {dict : Dict Uuid Value} {value : Event → Option Value}
    (hrecords : Records dict events value)
    (hdistinct : (events.map Event.id).Nodup) (hevent : event ∈ events) :
    dict.lookup event.id = value event := by
  refine Option.ext fun found => (hrecords event.id found).trans ?_
  constructor
  · rintro ⟨other, hother, hid, hvalue⟩
    rwa [List.inj_on_of_nodup_map hdistinct hother hevent hid] at hvalue
  · intro hvalue
    exact ⟨event, hevent, rfl, hvalue⟩

variable (readUuid)

def directReceiver (event : Event) : Option Uuid :=
  match target readUuid event with
  | some (.receiver id) => some id
  | _ => none

def directGroup (event : Event) : Option Uuid :=
  match target readUuid event with
  | some (.group id) => some id
  | _ => none

def indirect (event : Event) : Option (Text × Uuid) :=
  match target readUuid event with
  | some (.through resource) => some resource
  | _ => none

/-- Every event is recorded by its target, and the resources which have to be
looked up are pending. -/
structure Collected.Holds (collected : Collected) (events : List Event) :
    Prop where
  receiver : Records collected.receiverDiretti events (directReceiver readUuid)
  group : Records collected.gruppoDiretti events (directGroup readUuid)
  through : Records collected.indiretti events (indirect readUuid)
  pending : ∀ event ∈ events, ∀ resource,
    indirect readUuid event = some resource →
      ∃ ids, collected.daRisolvere.lookup resource.1 = some ids ∧
        resource.2 ∈ ids

/-- A turn of the loop adds the event by its target. -/
theorem Collected.add_eq (collected : Collected) (event : Event) :
    collected.add readUuid event =
      match target readUuid event with
      | some (.receiver id) =>
          { collected with
            receiverDiretti := collected.receiverDiretti.insert event.id id }
      | some (.group id) =>
          { collected with
            gruppoDiretti := collected.gruppoDiretti.insert event.id id }
      | some (.through resource) => collected.addIndirect event resource.2
      | none => collected := by
  unfold Collected.add target
  cases asUuid readUuid event.resourceId with
  | none =>
      rcases filterScope readUuid event with ⟨_ | receiverId, _ | groupId⟩
      all_goals rfl
  | some resourceId =>
      cases receiverSources.lookup event.resourceType with
      | some model => cases model <;> rfl
      | none =>
          cases groupSources.lookup event.resourceType with
          | some model => cases model <;> rfl
          | none => rfl

theorem resourceType_of_through
    {event : Event} {resource : Text × Uuid}
    (htarget : target readUuid event = some (.through resource)) :
    resource.1 = event.resourceType := by
  unfold target at htarget
  split at htarget
  · split at htarget <;> cases htarget
  · split at htarget
    · cases htarget
    · cases htarget
      rfl
    · split at htarget
      · cases htarget
      · cases htarget
        rfl
      · cases htarget

theorem Collected.holds_empty : Collected.empty.Holds readUuid [] := by
  constructor <;> simp [Records, Collected.empty]

variable {readUuid} {collected : Collected}

theorem Collected.Holds.pending_step
    (hholds : collected.Holds readUuid done) {next : Dict Text (Finset Uuid)}
    (hkept : ∀ type ids, collected.daRisolvere.lookup type = some ids →
      ∃ more, next.lookup type = some more ∧ ids ⊆ more)
    (hnew : ∀ resource, indirect readUuid event = some resource →
      ∃ ids, next.lookup resource.1 = some ids ∧ resource.2 ∈ ids) :
    ∀ other ∈ done ++ [event], ∀ resource,
      indirect readUuid other = some resource →
        ∃ ids, next.lookup resource.1 = some ids ∧ resource.2 ∈ ids := by
  intro other hother resource hindirect
  rcases List.mem_append.mp hother with hdone | hlast
  · obtain ⟨ids, hids, hmem⟩ :=
      hholds.pending other hdone resource hindirect
    obtain ⟨more, hmore, hsubset⟩ := hkept resource.1 ids hids
    exact ⟨more, hmore, hsubset hmem⟩
  · rw [List.mem_singleton.mp hlast] at hindirect
    exact hnew resource hindirect

theorem Collected.Holds.pending_same
    (hholds : collected.Holds readUuid done)
    (hnone : indirect readUuid event = none) :
    ∀ other ∈ done ++ [event], ∀ resource,
      indirect readUuid other = some resource →
        ∃ ids, collected.daRisolvere.lookup resource.1 = some ids ∧
          resource.2 ∈ ids := by
  refine hholds.pending_step (fun _ ids hids => ⟨ids, hids, subset_rfl⟩) ?_
  intro resource hindirect
  rw [hnone] at hindirect
  cases hindirect

/-- The id set of a type grows, and the others stay. -/
theorem Collected.addIndirect_daRisolvere
    (collected : Collected) (event : Event) (resourceId : Uuid) :
    (∀ type ids, collected.daRisolvere.lookup type = some ids →
      ∃ more, (collected.addIndirect event resourceId).daRisolvere.lookup
        type = some more ∧ ids ⊆ more) ∧
    ∃ ids, (collected.addIndirect event resourceId).daRisolvere.lookup
      event.resourceType = some ids ∧ resourceId ∈ ids := by
  simp only [Collected.addIndirect, Dict.lookup_insert_eq]
  constructor
  · intro type ids hids
    by_cases htype : type = event.resourceType
    · subst htype
      exact ⟨_, if_pos rfl, by simp [hids]⟩
    · exact ⟨ids, by rw [if_neg htype, hids], subset_rfl⟩
  · exact ⟨_, if_pos trivial, Finset.mem_insert_self _ _⟩

theorem Collected.Holds.step
    (hholds : collected.Holds readUuid done)
    (hfresh : event.id ∉ done.map Event.id) :
    (collected.add readUuid event).Holds readUuid (done ++ [event]) := by
  rw [Collected.add_eq]
  cases htarget : target readUuid event with
  | none =>
      exact
        { receiver := hholds.receiver.skip (by simp [directReceiver, htarget])
          group := hholds.group.skip (by simp [directGroup, htarget])
          through := hholds.through.skip (by simp [indirect, htarget])
          pending := hholds.pending_same (by simp [indirect, htarget]) }
  | some found =>
      cases found with
      | receiver id =>
          exact
            { receiver :=
                hholds.receiver.insert hfresh (by simp [directReceiver, htarget])
              group := hholds.group.skip (by simp [directGroup, htarget])
              through := hholds.through.skip (by simp [indirect, htarget])
              pending := hholds.pending_same (by simp [indirect, htarget]) }
      | group id =>
          exact
            { receiver :=
                hholds.receiver.skip (by simp [directReceiver, htarget])
              group :=
                hholds.group.insert hfresh (by simp [directGroup, htarget])
              through := hholds.through.skip (by simp [indirect, htarget])
              pending := hholds.pending_same (by simp [indirect, htarget]) }
      | through resource =>
          have htype := resourceType_of_through readUuid htarget
          obtain ⟨hkept, hnew⟩ :=
            collected.addIndirect_daRisolvere event resource.2
          refine
            { receiver :=
                hholds.receiver.skip (by simp [directReceiver, htarget])
              group := hholds.group.skip (by simp [directGroup, htarget])
              through := hholds.through.insert hfresh
                (by simp [indirect, htarget, ← htype])
              pending := hholds.pending_step hkept ?_ }
          intro other hother
          obtain rfl : resource = other := by
            simpa [indirect, htarget] using hother
          rw [htype]
          exact hnew

theorem Collected.Holds.run
    (hholds : collected.Holds readUuid done)
    (hdistinct : ((done ++ events).map Event.id).Nodup) :
    (events.foldl (Collected.add readUuid) collected).Holds readUuid
      (done ++ events) := by
  induction events generalizing collected done with
  | nil => rwa [List.append_nil]
  | cons event rest ih =>
      have hfresh : event.id ∉ done.map Event.id := by
        rw [List.map_append, List.map_cons] at hdistinct
        intro hmem
        exact List.disjoint_of_nodup_append hdistinct hmem List.mem_cons_self
      have hsplit : done ++ event :: rest = (done ++ [event]) ++ rest := by simp
      rw [hsplit] at hdistinct ⊢
      exact ih (hholds.step hfresh) hdistinct

theorem collect_holds (hdistinct : (events.map Event.id).Nodup) :
    (collect readUuid events).Holds readUuid events :=
  (Collected.holds_empty readUuid).run hdistinct

end Collected

/-! ## What the queries find -/

section Queries

variable {readUuid : Text → Option Uuid} {events : List Event}
variable {event : Event} {collected : Collected}

theorem parentIn_loadParents
    (db : Database) (chunk : ℕ+) {daRisolvere : Dict Text (Finset Uuid)}
    {resource : Text × Uuid} {ids : Finset Uuid}
    (hids : daRisolvere.lookup resource.1 = some ids)
    (hmem : resource.2 ∈ ids) :
    parentIn (loadParents db chunk daRisolvere) resource =
      parentOf db resource := by
  rw [parentIn, loadParents, Dict.lookup_fill, hids, AList.lookup_empty,
    Option.or_none, Option.bind_some, parentOf]
  cases modelOf resource.1 with
  | none => rfl
  | some model =>
      rw [Option.map_some, Option.bind_some, Option.bind_some,
        Table.lookup_load, if_pos hmem]

/-- The containers of an event are those which its own walk reaches. -/
theorem addParents_lookup
    (db : Database) (chunk : ℕ+)
    (hholds : collected.Holds readUuid events)
    (hdistinct : (events.map Event.id).Nodup) (hevent : event ∈ events) :
    let resolved := addParents (loadParents db chunk collected.daRisolvere)
      collected
    resolved.receiverDiretti.lookup event.id =
        receiverReached readUuid db event ∧
      resolved.gruppoDiretti.lookup event.id =
        groupReached readUuid db event := by
  intro resolved
  have hparent : ∀ resource, indirect readUuid event = some resource →
      parentIn (loadParents db chunk collected.daRisolvere) resource =
        parentOf db resource := by
    intro resource hindirect
    obtain ⟨ids, hids, hmem⟩ := hholds.pending event hevent resource hindirect
    exact parentIn_loadParents db chunk hids hmem
  simp only [resolved, addParents, Dict.lookup_fill,
    hholds.receiver.lookup_eq hdistinct hevent,
    hholds.group.lookup_eq hdistinct hevent,
    hholds.through.lookup_eq hdistinct hevent]
  unfold receiverReached groupReached directReceiver directGroup
  unfold indirect at hparent ⊢
  cases htarget : target readUuid event with
  | none => simp
  | some found =>
      cases found with
      | receiver id => simp
      | group id => simp
      | through resource =>
          have hfound := hparent resource (by rw [htarget])
          simp [hfound]

/-- The location under a key depends on the container under that key. -/
theorem place_lookup
    (db : Database) (chunk : ℕ+) (collected : Collected) (key : Uuid) :
    (place db chunk collected).lookup key =
      ((collected.gruppoDiretti.lookup key).bind (locateGroup db)).or
        ((collected.receiverDiretti.lookup key).bind (locateReceiver db)) := by
  have hreceivers : ∀ receiverId,
      collected.receiverDiretti.lookup key = some receiverId →
        (db.receivers.load chunk collected.receiverDiretti.values).lookup
          receiverId = db.receivers.find receiverId := by
    intro receiverId hlookup
    rw [Table.lookup_load, if_pos (Dict.mem_values.mpr ⟨key, hlookup⟩)]
  rw [place, Dict.lookup_fill, Dict.lookup_fill, AList.lookup_empty,
    Option.or_none]
  congr 1
  · cases hgroup : collected.gruppoDiretti.lookup key with
    | none => rfl
    | some groupId =>
        have hmem := Dict.mem_values.mpr ⟨key, hgroup⟩
        rw [Option.bind_some, Option.bind_some, Table.lookup_load,
          if_pos (Finset.mem_union_left _ hmem), locateGroup]
  · cases hreceiver : collected.receiverDiretti.lookup key with
    | none => rfl
    | some receiverId =>
        have hload := hreceivers receiverId hreceiver
        rw [Option.bind_some, Option.bind_some, hload, locateReceiver]
        cases hfind : db.receivers.find receiverId with
        | none => rfl
        | some row =>
            -- the group of a receiver which was read is asked for as well
            have hmem : row.groupId ∈
                ((db.receivers.load chunk
                  collected.receiverDiretti.values).entries.map fun item =>
                    item.2.groupId).toFinset := by
              rw [hfind] at hload
              have hentry := AList.mem_lookup_iff.mp hload
              exact List.mem_toFinset.mpr (List.mem_map.mpr ⟨_, hentry, rfl⟩)
            rw [Option.map_some, Option.map_some, receiverLocation,
              Table.lookup_load, if_pos (Finset.mem_union_right _ hmem)]

end Queries

/-! ## Batches -/

/-- Every event of a batch gets the location to which its own references
lead. -/
theorem resolveInChunks_eq_locate
    (readUuid : Text → Option Uuid) (db : Database) (chunk : ℕ+)
    {events : List Event} (hdistinct : (events.map Event.id).Nodup) :
    ∀ event ∈ events, (resolveInChunks readUuid db chunk events).lookup event.id =
      locate readUuid db event := by
  intro event hevent
  have hholds : (collect readUuid events).Holds readUuid events :=
    collect_holds hdistinct
  obtain ⟨hreceiver, hgroup⟩ :=
    addParents_lookup db chunk hholds hdistinct hevent
  rw [resolveInChunks, place_lookup, hreceiver, hgroup, locate]
  cases hreached : groupReached readUuid db event with
  | none => rfl
  | some groupId =>
      simp [receiverReached_of_groupReached readUuid hreached]

/-- The location of an event is the one of the walk from it, whatever else is
in the batch, in whatever order, and wherever the chunks end. -/
theorem location_independent_of_batch
    (readUuid : Text → Option Uuid) (db : Database) {events : List Event}
    (hdistinct : (events.map Event.id).Nodup) {event : Event}
    (hevent : event ∈ events) :
    (resolveLocations readUuid db events).lookup event.id =
        locate readUuid db event ∧
      ∀ (chunk : ℕ+) (others : List Event), (others.map Event.id).Nodup →
        event ∈ others →
          (resolveInChunks readUuid db chunk others).lookup event.id =
            (resolveLocations readUuid db events).lookup event.id := by
  have halone :=
    resolveInChunks_eq_locate readUuid db chunkSize hdistinct event hevent
  refine ⟨halone, fun chunk others hothers hmem => ?_⟩
  exact (resolveInChunks_eq_locate readUuid db chunk hothers event hmem).trans
    halone.symm

/-- Notification 5 of receiver 6 in group 7; nothing else is left. -/
def remainingRows : Database where
  parents
    | .notification => ⟨{5}, fun _ => 6⟩
    | _ => ⟨∅, fun _ => 0⟩
  receivers := ⟨{6}, fun _ => ⟨"Backup".toList, 7⟩⟩
  groups := ⟨{7}, fun _ => "Ops".toList⟩

def notificationEvent : Event :=
  ⟨1, "notification".toList, .uuid 5, .other⟩

/-- A rule with the id of the notification, and a bulk-read of the group. -/
def otherEvents : List Event :=
  [⟨2, "severity_rule".toList, .uuid 5, .other⟩,
    ⟨3, "notification".toList, .other, .dict [("filters".toList,
      .dict [("group_id".toList, .uuid 7)])]⟩]

theorem location_independent_of_batch_page :
    (resolveLocations uuidOfText remainingRows
        (notificationEvent :: otherEvents)).lookup 1 =
      some ⟨some (uuidText 7), some "Ops".toList, some (uuidText 6),
        some "Backup".toList⟩ := by
  have hdistinct :
      ((notificationEvent :: otherEvents).map Event.id).Nodup := by decide
  have hbatch := (location_independent_of_batch uuidOfText remainingRows
    hdistinct List.mem_cons_self).1
  exact hbatch.trans (by rfl)

end NotifyHub.AuditLocation
