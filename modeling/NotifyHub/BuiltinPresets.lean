import NotifyHub.BuiltinCatalogue
import NotifyHub.RulePriorities
import Mathlib.Tactic

/-!
# Builtin presets

The requests on the presets of the tenants, one after the other: sync, reset,
creations, renames, edits of the rules and deletions.  The database checks its
constraints after every statement, and what fails is rolled back.
-/

namespace NotifyHub.Presets

/-- A row of `severity_presets`. -/
structure SeverityPreset (Id : Type) where
  id : Id
  tenantId : Id
  builtinKey : Option Text
  name : Text
  description : Text
  deriving DecidableEq

/-- A row of `receiver_severity_presets`. -/
structure ReceiverSeverityPreset (Id : Type) where
  id : Id
  receiverId : Id
  presetId : Id
  position : ℤ
  deriving DecidableEq

/-- A rule and an association have the tenant of their preset. -/
structure PresetTables (Id : Type) where
  presets : List (SeverityPreset Id)
  rules : List (StoredRule Id)
  associations : List (ReceiverSeverityPreset Id)
  deriving DecidableEq

/-- The `uuid4` of a copy and those of its rules. -/
structure NewIds (Id : Type) where
  preset : Id
  rule : ℕ → Id

abbrev NameField := { text : TextField 120 // 1 ≤ text.val.length }

structure SeverityPresetCreate where
  name : NameField
  description : TextField 500

structure SeverityPresetUpdate where
  name : Option NameField
  description : Option (TextField 500)

structure SyncBuiltinPresetsOut where
  installed : List Text
  alreadyPresent : List Text
  skipped : List Text
  deriving DecidableEq

structure SeverityPresetDetailOut (Id : Type) where
  preset : SeverityPreset Id
  receiversCount : ℕ
  rules : List (StoredRule Id)
  deriving DecidableEq

inductive PresetAnswer (Id : Type)
  | synced (out : SyncBuiltinPresetsOut)
  | detail (out : SeverityPresetDetailOut Id)
  | deleted
  | rule (answer : PriorityAnswer)
  | refused (problem : Problem)
  | outOfRange
  deriving DecidableEq

section Handlers

variable {Id : Type} [DecidableEq Id]

/-! ## Statements -/

def SeverityPreset.FitsColumns (preset : SeverityPreset Id) : Prop :=
  FitsColumn 64 (preset.builtinKey.getD []) ∧ FitsColumn 120 preset.name ∧
    FitsColumn 500 preset.description

instance (preset : SeverityPreset Id) : Decidable preset.FitsColumns :=
  inferInstanceAs (Decidable (_ ∧ _ ∧ _))

/-- The columns of `uq_severity_presets_tenant_id_name`. -/
def SeverityPreset.nameKey (preset : SeverityPreset Id) : Id × Text :=
  (preset.tenantId, preset.name)

/-- The columns of `uq_severity_presets_tenant_id_builtin_key`; NULL is distinct
from itself. -/
def SeverityPreset.catalogueKey (preset : SeverityPreset Id) :
    Option (Id × Text) :=
  preset.builtinKey.map fun key => (preset.tenantId, key)

structure PresetsUnique (presets : List (SeverityPreset Id)) : Prop where
  ids : (presets.map SeverityPreset.id).Nodup
  names : (presets.map SeverityPreset.nameKey).Nodup
  keys : (presets.filterMap SeverityPreset.catalogueKey).Nodup

instance (presets : List (SeverityPreset Id)) :
    Decidable (PresetsUnique presets) :=
  decidable_of_iff
    ((presets.map SeverityPreset.id).Nodup ∧
      (presets.map SeverityPreset.nameKey).Nodup ∧
      (presets.filterMap SeverityPreset.catalogueKey).Nodup)
    ⟨fun h => ⟨h.1, h.2.1, h.2.2⟩, fun h => ⟨h.ids, h.names, h.keys⟩⟩

def insertPreset (presets : List (SeverityPreset Id))
    (preset : SeverityPreset Id) :
    Except RuleRefusal (List (SeverityPreset Id)) :=
  if ¬preset.FitsColumns then .error .outOfRange
  else if ¬PresetsUnique (presets ++ [preset]) then .error .uniqueViolation
  else .ok (presets ++ [preset])

def replacePreset (presets : List (SeverityPreset Id))
    (preset : SeverityPreset Id) : List (SeverityPreset Id) :=
  presets.map fun other => if other.id = preset.id then preset else other

/-- The UPDATE of one preset. -/
def flushPreset (presets : List (SeverityPreset Id))
    (preset : SeverityPreset Id) :
    Except RuleRefusal (List (SeverityPreset Id)) :=
  if ¬preset.FitsColumns then .error .outOfRange
  else if ¬PresetsUnique (replacePreset presets preset) then
    .error .uniqueViolation
  else .ok (replacePreset presets preset)

def insertPresetRule (rows : List (StoredRule Id)) (row : StoredRule Id) :
    Except RuleRefusal (List (StoredRule Id)) :=
  if ¬FitsColumn 200 row.rule.pattern then .error .outOfRange
  else insertRule rows row

/-- The rules which `_add_rules` adds. -/
def newRules (newIds : NewIds Id) (spec : PresetSpec) : List (StoredRule Id) :=
  (spec.rules.zipIdx 1).map fun entry =>
    { id := newIds.rule entry.2
      rule := {
        ownerId := newIds.preset
        priority := entry.2 * priorityStep
        pattern := entry.1.pattern
        caseInsensitive := entry.1.caseInsensitive
        severity := entry.1.severity
        enabled := true } }

def addRules (rows : List (StoredRule Id)) (newIds : NewIds Id)
    (spec : PresetSpec) : Except RuleRefusal (List (StoredRule Id)) :=
  (newRules newIds spec).foldlM insertPresetRule rows

/-! ## Sync -/

def newPreset (newIds : NewIds Id) (tenantId : Id) (spec : PresetSpec) :
    SeverityPreset Id where
  id := newIds.preset
  tenantId := tenantId
  builtinKey := some spec.key
  name := spec.name
  description := spec.description

def installBuiltinPreset (newIds : NewIds Id) (tables : PresetTables Id)
    (tenantId : Id) (spec : PresetSpec) :
    Except RuleRefusal (PresetTables Id) := do
  let presets ← insertPreset tables.presets (newPreset newIds tenantId spec)
  let rules ← addRules tables.rules newIds spec
  return { tables with presets := presets, rules := rules }

/-- `_chiavi_e_nomi_del_tenant`. -/
def chiaviENomiDelTenant (tables : PresetTables Id) (tenantId : Id) :
    List Text × List Text :=
  let righe := tables.presets.filter fun preset => preset.tenantId = tenantId
  (righe.filterMap SeverityPreset.builtinKey, righe.map SeverityPreset.name)

def builtinKeysConNomeOccupato (catalogue : Catalogue)
    (tables : PresetTables Id) (tenantId : Id) : List Text :=
  let chiaviENomi := chiaviENomiDelTenant tables tenantId
  (catalogue.specs.filter fun spec =>
    spec.key ∉ chiaviENomi.1 ∧ spec.name ∈ chiaviENomi.2).map PresetSpec.key

/-- The loop of `sync_builtin_presets`. -/
def installMissing (newIds : Text → NewIds Id) (tenantId : Id)
    (chiaviENomi : List Text × List Text) :
    List PresetSpec → PresetTables Id →
      Except RuleRefusal (PresetTables Id × List Text)
  | [], tables => .ok (tables, [])
  | spec :: specs, tables =>
      if spec.key ∈ chiaviENomi.1 ∨ spec.name ∈ chiaviENomi.2 then
        installMissing newIds tenantId chiaviENomi specs tables
      else do
        let stored ←
          installBuiltinPreset (newIds spec.key) tables tenantId spec
        let result ← installMissing newIds tenantId chiaviENomi specs stored
        return (result.1, spec.key :: result.2)

/-- The lock of the tenant orders syncs which overlap. -/
def syncBuiltinPresets (catalogue : Catalogue) (newIds : Text → NewIds Id)
    (tables : PresetTables Id) (tenantId : Id) :
    Except RuleRefusal (PresetTables Id × List Text) :=
  installMissing newIds tenantId (chiaviENomiDelTenant tables tenantId)
    catalogue.specs tables

def refusalAnswer : RuleRefusal → PresetAnswer Id
  | .outOfRange => .outOfRange
  | .uniqueViolation => .refused integrityConflict

def syncBuiltin (catalogue : Catalogue) (newIds : Text → NewIds Id)
    (tables : PresetTables Id) (tenantId : Id) :
    PresetTables Id × PresetAnswer Id :=
  let saltati := builtinKeysConNomeOccupato catalogue tables tenantId
  match syncBuiltinPresets catalogue newIds tables tenantId with
  | .error refusal => (tables, refusalAnswer refusal)
  | .ok (stored, installed) =>
      (stored, .synced {
        installed := installed
        alreadyPresent := ((catalogue.specs.map PresetSpec.key).filter
          fun key => key ∉ installed ∧ key ∉ saltati).insertionSort (· ≤ ·)
        skipped := saltati })

/-! ## The other handlers -/

/-- `_get_preset_or_404`. -/
def getPresetOr404 (tables : PresetTables Id) (tenantId presetId : Id) :
    Except Problem (SeverityPreset Id) :=
  match tables.presets.find? fun preset =>
    preset.id = presetId ∧ preset.tenantId = tenantId with
  | some preset => .ok preset
  | none => .error (notFound "Severity preset not found.".toList)

def nameTaken (name : Text) : Problem :=
  conflict ("A preset named '".toList ++ name ++ "' already exists.".toList)

/-- A preset of the tenant has the name, other than the excluded one. -/
def NameUsed (tables : PresetTables Id) (tenantId : Id)
    (excludePresetId : Option Id) (name : Text) : Prop :=
  ∃ preset ∈ tables.presets, preset.tenantId = tenantId ∧ preset.name = name ∧
    some preset.id ≠ excludePresetId

instance (tables : PresetTables Id) (tenantId : Id)
    (excludePresetId : Option Id) (name : Text) :
    Decidable (NameUsed tables tenantId excludePresetId name) :=
  inferInstanceAs (Decidable (∃ _ ∈ _, _))

/-- `_assert_name_free`. -/
def assertNameFree (tables : PresetTables Id) (tenantId : Id)
    (excludePresetId : Option Id) (name : Text) : Except Problem Unit :=
  if NameUsed tables tenantId excludePresetId name then .error (nameTaken name)
  else .ok ()

/-- `_detail`. -/
def detail (tables : PresetTables Id) (preset : SeverityPreset Id) :
    SeverityPresetDetailOut Id where
  preset := preset
  receiversCount := (tables.associations.filter fun association =>
    association.presetId = preset.id).length
  rules := (ownedBy tables.rules preset.id).insertionSort fun row other =>
    row.rule.priority ≤ other.rule.priority

/-- The tables after the flushes of a request about the preset. -/
def answered (tables : PresetTables Id) (preset : SeverityPreset Id) :
    Except RuleRefusal (PresetTables Id) → PresetTables Id × PresetAnswer Id
  | .ok stored => (stored, .detail (detail stored preset))
  | .error refusal => (tables, refusalAnswer refusal)

def createPreset (tables : PresetTables Id) (tenantId newId : Id)
    (body : SeverityPresetCreate) : PresetTables Id × PresetAnswer Id :=
  match assertNameFree tables tenantId none body.name.val.val with
  | .error problem => (tables, .refused problem)
  | .ok _ =>
      let preset : SeverityPreset Id := {
        id := newId
        tenantId := tenantId
        builtinKey := none
        name := body.name.val.val
        description := body.description.val }
      answered tables preset ((insertPreset tables.presets preset).map
        fun presets => { tables with presets := presets })

/-- Only a new name has to be free. -/
def checkName (tables : PresetTables Id) (preset : SeverityPreset Id)
    (body : SeverityPresetUpdate) : Except Problem Unit :=
  match body.name with
  | some name =>
      if name.val.val = preset.name then .ok ()
      else assertNameFree tables preset.tenantId (some preset.id) name.val.val
  | none => .ok ()

def SeverityPresetUpdate.apply (body : SeverityPresetUpdate)
    (preset : SeverityPreset Id) : SeverityPreset Id :=
  { preset with
    name := (body.name.map fun name => name.val.val).getD preset.name
    description := (body.description.map Subtype.val).getD preset.description }

def updatePreset (tables : PresetTables Id) (tenantId presetId : Id)
    (body : SeverityPresetUpdate) : PresetTables Id × PresetAnswer Id :=
  match getPresetOr404 tables tenantId presetId with
  | .error problem => (tables, .refused problem)
  | .ok preset =>
      match checkName tables preset body with
      | .error problem => (tables, .refused problem)
      | .ok _ =>
          answered tables (body.apply preset)
            ((flushPreset tables.presets (body.apply preset)).map
              fun presets => { tables with presets := presets })

def withoutRules (rows : List (StoredRule Id)) (presetId : Id) :
    List (StoredRule Id) :=
  rows.filter fun row => row.rule.ownerId ≠ presetId

/-- The rules and the associations are deleted in cascade. -/
def deletePreset (tables : PresetTables Id) (tenantId presetId : Id) :
    PresetTables Id × PresetAnswer Id :=
  match getPresetOr404 tables tenantId presetId with
  | .error problem => (tables, .refused problem)
  | .ok preset =>
      ({ presets := tables.presets.filter fun other => other.id ≠ preset.id
         rules := withoutRules tables.rules preset.id
         associations := tables.associations.filter fun association =>
           association.presetId ≠ preset.id }, .deleted)

inductive ResetError
  | notBuiltin
  | builtinRetired (key : Text)
  | builtinNameTaken (name : Text)
  deriving DecidableEq

/-- The checks of `reset_preset_to_builtin`. -/
def resetSpec (catalogue : Catalogue) (tables : PresetTables Id)
    (preset : SeverityPreset Id) : Except ResetError PresetSpec :=
  match preset.builtinKey with
  | none => .error .notBuiltin
  | some key =>
      match catalogue.byKey key with
      | none => .error (.builtinRetired key)
      | some spec =>
          if NameUsed tables preset.tenantId (some preset.id) spec.name then
            .error (.builtinNameTaken spec.name)
          else .ok spec

def restored (preset : SeverityPreset Id) (spec : PresetSpec) :
    SeverityPreset Id :=
  { preset with name := spec.name, description := spec.description }

/-- The two flushes of `reset_preset_to_builtin`: the DELETE goes first. -/
def resetFlushes (newRule : ℕ → Id) (tables : PresetTables Id)
    (preset : SeverityPreset Id) (spec : PresetSpec) :
    Except RuleRefusal (PresetTables Id) := do
  let presets ← flushPreset tables.presets (restored preset spec)
  let rules ← addRules (withoutRules tables.rules preset.id)
    ⟨preset.id, newRule⟩ spec
  return { tables with presets := presets, rules := rules }

def resetProblem : ResetError → Problem
  | .notBuiltin =>
      conflict ("This preset was not created from a builtin one: ".toList
        ++ "there is nothing to restore.".toList)
  | .builtinRetired key =>
      conflict ("The builtin preset '".toList ++ key
        ++ "' is no longer in the catalog: ".toList
        ++ "there is nothing to restore.".toList)
  | .builtinNameTaken name => nameTaken name

def resetPreset (catalogue : Catalogue) (newRule : ℕ → Id)
    (tables : PresetTables Id) (tenantId presetId : Id) :
    PresetTables Id × PresetAnswer Id :=
  match getPresetOr404 tables tenantId presetId with
  | .error problem => (tables, .refused problem)
  | .ok preset =>
      match resetSpec catalogue tables preset with
      | .error error => (tables, .refused (resetProblem error))
      | .ok spec =>
          answered tables (restored preset spec)
            (resetFlushes newRule tables preset spec)

/-- The lookup of the preset in the requests which name one. -/
def presetLookup (tables : PresetTables Id) (tenantId presetId : Id) :
    Except Problem Unit :=
  (getPresetOr404 tables tenantId presetId).map fun _ => ()

/-- The rule is one of the tenant. -/
def RuleVisible (tables : PresetTables Id) (tenantId ruleId : Id) : Prop :=
  ∃ row ∈ tables.rules, row.id = ruleId ∧ ∃ preset ∈ tables.presets,
    preset.id = row.rule.ownerId ∧ preset.tenantId = tenantId

instance (tables : PresetTables Id) (tenantId ruleId : Id) :
    Decidable (RuleVisible tables tenantId ruleId) :=
  inferInstanceAs (Decidable (∃ _ ∈ _, _ ∧ ∃ _ ∈ _, _))

def editRule (re2 : Re2) (tables : PresetTables Id) (ruleId : Id)
    (call : PriorityCall Id) (lookups : Except Problem Unit) :
    PresetTables Id × PresetAnswer Id :=
  let request : PriorityRequest Id :=
    ⟨.severityPresetRules, ruleId, call, lookups⟩
  let result := request.handle re2 tables.rules
  ({ tables with rules := result.1 }, .rule result.2)

/-- The four requests on the rules of a preset. -/
def handleRule (re2 : Re2) (tables : PresetTables Id) (tenantId ruleId : Id)
    (call : PriorityCall Id) : PresetTables Id × PresetAnswer Id :=
  match call with
  | .create presetId _ | .reorder presetId _ =>
      editRule re2 tables ruleId call (presetLookup tables tenantId presetId)
  | .update _ | .delete =>
      if RuleVisible tables tenantId ruleId then
        editRule re2 tables ruleId call (.ok ())
      else (tables, .refused (notFound presetRuleTexts.notFound))

/-! ## Requests -/

inductive PresetCall (Id : Type)
  | syncBuiltin (newIds : Text → NewIds Id)
  | createPreset (newId : Id) (body : SeverityPresetCreate)
  | updatePreset (presetId : Id) (body : SeverityPresetUpdate)
  | deletePreset (presetId : Id)
  | resetPreset (presetId : Id) (newRule : ℕ → Id)
  | rule (ruleId : Id) (call : PriorityCall Id)

structure PresetRequest (Id : Type) where
  tenantId : Id
  call : PresetCall Id

def PresetRequest.handle (catalogue : Catalogue) (re2 : Re2)
    (tables : PresetTables Id) (request : PresetRequest Id) :
    PresetTables Id × PresetAnswer Id :=
  match request.call with
  | .syncBuiltin newIds =>
      syncBuiltin catalogue newIds tables request.tenantId
  | .createPreset newId body => createPreset tables request.tenantId newId body
  | .updatePreset presetId body =>
      updatePreset tables request.tenantId presetId body
  | .deletePreset presetId => deletePreset tables request.tenantId presetId
  | .resetPreset presetId newRule =>
      resetPreset catalogue newRule tables request.tenantId presetId
  | .rule ruleId call => handleRule re2 tables request.tenantId ruleId call

/-! ## The constraints of the tables -/

/-- The ids and the priorities of rules are unique. -/
structure RulesUnique (rows : List (StoredRule Id)) : Prop where
  ids : (rows.map StoredRule.id).Nodup
  priorities : PrioritiesUnique rows

/-- The constraints of the three tables, with the foreign keys to presets. -/
structure PresetTables.Consistent (tables : PresetTables Id) : Prop where
  presets : PresetsUnique tables.presets
  fits : ∀ preset ∈ tables.presets, preset.FitsColumns
  rules : RulesUnique tables.rules
  owners : ∀ row ∈ tables.rules,
    row.rule.ownerId ∈ tables.presets.map SeverityPreset.id
  associated : ∀ association ∈ tables.associations,
    association.presetId ∈ tables.presets.map SeverityPreset.id

/-! ## What the statements do -/

section Statements

variable {presets storedPresets : List (SeverityPreset Id)}
  {preset : SeverityPreset Id} {rows stored new : List (StoredRule Id)}
  {row : StoredRule Id}

theorem insertPreset_eq_ok :
    insertPreset presets preset = .ok storedPresets ↔
      preset.FitsColumns ∧ PresetsUnique (presets ++ [preset]) ∧
        presets ++ [preset] = storedPresets := by
  rw [insertPreset]
  by_cases hfits : preset.FitsColumns
  · by_cases hunique : PresetsUnique (presets ++ [preset])
    · simp [hfits, hunique]
    · simp [hfits, hunique]
  · simp [hfits]

theorem flushPreset_eq_ok :
    flushPreset presets preset = .ok storedPresets ↔
      preset.FitsColumns ∧ PresetsUnique (replacePreset presets preset) ∧
        replacePreset presets preset = storedPresets := by
  rw [flushPreset]
  by_cases hfits : preset.FitsColumns
  · by_cases hunique : PresetsUnique (replacePreset presets preset)
    · simp [hfits, hunique]
    · simp [hfits, hunique]
  · simp [hfits]

theorem insertRule_eq_ok :
    insertRule rows row = .ok stored ↔
      FitsInt4 row.rule.priority ∧ row.id ∉ rows.map StoredRule.id ∧
        PrioritiesUnique (rows ++ [row]) ∧ rows ++ [row] = stored := by
  rw [insertRule]
  by_cases hfits : FitsInt4 row.rule.priority
  · by_cases hid : row.id ∈ rows.map StoredRule.id
    · simp [hfits, hid]
    · by_cases hunique : PrioritiesUnique (rows ++ [row])
      · simp only [hfits, hid, hunique, not_true_eq_false, or_self, if_false,
          not_false_eq_true, true_and, Except.ok.injEq]
      · simp only [hfits, hid, hunique, not_true_eq_false, not_false_eq_true,
          or_true, if_true, if_false, false_and, and_false, reduceCtorEq]
  · simp [hfits]

theorem insertPresetRule_eq_ok :
    insertPresetRule rows row = .ok stored ↔
      FitsColumn 200 row.rule.pattern ∧ insertRule rows row = .ok stored := by
  rw [insertPresetRule]
  by_cases hfits : FitsColumn 200 row.rule.pattern
  · simp [hfits]
  · simp [hfits]

omit [DecidableEq Id] in
theorem RulesUnique.sublist (hunique : RulesUnique rows)
    (hsublist : stored.Sublist rows) : RulesUnique stored where
  ids := hunique.ids.sublist (hsublist.map _)
  priorities := hunique.priorities.sublist (hsublist.map _)

theorem insertRule_unique (hunique : RulesUnique rows)
    (hinsert : insertRule rows row = .ok stored) : RulesUnique stored := by
  obtain ⟨-, hid, hpriorities, rfl⟩ := insertRule_eq_ok.mp hinsert
  refine ⟨?_, hpriorities⟩
  rw [List.map_append, List.map_singleton]
  exact List.nodup_append_comm.mp (List.nodup_cons.mpr ⟨hid, hunique.ids⟩)

/-- The rules which are added stand behind the others. -/
theorem addRules_ok (hadd : new.foldlM insertPresetRule rows = .ok stored) :
    rows ++ new = stored ∧ (RulesUnique rows → RulesUnique stored) := by
  induction new generalizing rows with
  | nil =>
      obtain rfl := Except.ok.inj hadd
      exact ⟨List.append_nil rows, id⟩
  | cons row new ih =>
      rw [List.foldlM_cons] at hadd
      obtain ⟨between, hinsert, hrest⟩ := Except.bind_eq_ok.mp hadd
      have hrow := (insertPresetRule_eq_ok.mp hinsert).2
      obtain ⟨-, -, -, hbetween⟩ := insertRule_eq_ok.mp hrow
      obtain ⟨hstored, hunique⟩ := ih hrest
      constructor
      · rw [← hstored, ← hbetween, List.append_assoc, List.singleton_append]
      · exact fun hrows => hunique (insertRule_unique hrows hrow)

/-- Rules which meet the constraints are added. -/
theorem addRules_eq
    (hpatterns : ∀ row ∈ new, FitsColumn 200 row.rule.pattern)
    (hpriorities : ∀ row ∈ new, FitsInt4 row.rule.priority)
    (hunique : RulesUnique (rows ++ new)) :
    new.foldlM insertPresetRule rows = .ok (rows ++ new) := by
  induction new generalizing rows with
  | nil =>
      rw [List.append_nil]
      rfl
  | cons row new ih =>
      have hassoc : rows ++ row :: new = rows ++ [row] ++ new := by
        rw [List.append_assoc, List.singleton_append]
      rw [hassoc] at hunique ⊢
      have hfirst : RulesUnique (rows ++ [row]) :=
        hunique.sublist (List.sublist_append_left _ _)
      have hid : row.id ∉ rows.map StoredRule.id := by
        have hids := hfirst.ids
        rw [List.map_append, List.map_singleton] at hids
        exact (List.nodup_cons.mp (List.nodup_append_comm.mp hids)).1
      have hinsert : insertPresetRule rows row = .ok (rows ++ [row]) :=
        insertPresetRule_eq_ok.mpr ⟨hpatterns row List.mem_cons_self,
          insertRule_eq_ok.mpr ⟨hpriorities row List.mem_cons_self, hid,
            hfirst.priorities, rfl⟩⟩
      rw [List.foldlM_cons, hinsert]
      exact ih (fun other hother => hpatterns other (List.mem_cons_of_mem _ hother))
        (fun other hother => hpriorities other (List.mem_cons_of_mem _ hother))
        hunique

end Statements

/-! ## The owners of decided rules -/

section Owners

variable {request : RuleRequest Id} {re2 : Re2} {table : RuleTable}
  {decision : Decision (SeverityRule Id) Problem}
  {existing : Option (SeverityRule Id)}

omit [DecidableEq Id] in
theorem create_owner {ownerId : Id} {body : SeverityRuleCreate}
    (hcall : request.call = createCall ownerId body table)
    (hdecision : request.decide re2 existing = .ok decision) :
    ∀ rule ∈ decision.version,
      request.lookups = .ok () ∧ rule.ownerId = ownerId := by
  obtain ⟨⟨texts, hdecide⟩, -⟩ := decide_create re2 table hcall existing
  rw [hdecide] at hdecision
  obtain ⟨_, hlookups, hvalid⟩ := Except.bind_eq_ok.mp hdecision
  obtain ⟨_, -, hpriority⟩ := Except.bind_eq_ok.mp hvalid
  intro rule hrule
  refine ⟨hlookups, ?_⟩
  cases hbody : body.priority with
  | none =>
      rw [hbody] at hpriority
      obtain rfl := Except.ok.inj hpriority
      obtain rfl := Option.some.inj hrule
      rfl
  | some priority =>
      rw [hbody] at hpriority
      obtain ⟨_, -, hinsert⟩ := Except.bind_eq_ok.mp hpriority
      obtain rfl := Except.ok.inj hinsert
      obtain rfl := Option.some.inj hrule
      rfl

omit [DecidableEq Id] in
theorem update_owner {body : SeverityRuleUpdate} {Owner : Id → Prop}
    (hcall : request.call = updateCall body table)
    (hexisting : ∀ rule ∈ existing, Owner rule.ownerId)
    (hdecision : request.decide re2 existing = .ok decision) :
    ∀ rule ∈ decision.version, Owner rule.ownerId := by
  obtain ⟨texts, lookups, hupdate⟩ := decide_update re2 table hcall existing
  rw [hupdate] at hdecision
  cases existing with
  | none => cases hdecision
  | some rule =>
      obtain ⟨_, -, hcheck⟩ := Except.bind_eq_ok.mp hdecision
      obtain ⟨_, -, hpriority⟩ := Except.bind_eq_ok.mp hcheck
      obtain ⟨_, -, hfinal⟩ := Except.bind_eq_ok.mp hpriority
      obtain rfl := Except.ok.inj hfinal
      intro final hversion
      obtain rfl := Option.some.inj hversion
      exact hexisting rule rfl

omit [DecidableEq Id] in
theorem delete_version (hcall : request.call = deleteCall table)
    (hdecision : request.decide re2 existing = .ok decision) :
    decision.version = none := by
  obtain ⟨texts, lookups, hdelete⟩ := decide_delete re2 table hcall existing
  rw [hdelete] at hdecision
  cases existing with
  | none => cases hdecision
  | some rule =>
      obtain ⟨_, -, hdone⟩ := Except.bind_eq_ok.mp hdecision
      obtain rfl := Except.ok.inj hdone
      rfl

omit [DecidableEq Id] in
/-- The second attempt has another priority only. -/
theorem reconsider_owner {tried again : SeverityRule Id}
    (hagain : request.reconsider tried = .insert again) :
    again.ownerId = tried.ownerId := by
  unfold RuleRequest.reconsider createRuleAgain at hagain
  split at hagain
  · split at hagain
    · obtain rfl := Decision.insert.inj hagain
      rfl
    · cases hagain
  · split at hagain
    · obtain rfl := Decision.insert.inj hagain
      rfl
    · cases hagain
  · cases hagain

end Owners

/-! ## Edits of rules -/

section RuleEdits

/-- The rows meet their constraints, and their owners are among some. -/
structure RulesKept (Owner : Id → Prop) (rows : List (StoredRule Id)) :
    Prop where
  unique : RulesUnique rows
  owners : ∀ row ∈ rows, Owner row.rule.ownerId

variable {Owner : Id → Prop} {rows stored : List (StoredRule Id)}
  {row : StoredRule Id} {re2 : Re2}

theorem RulesKept.insert (hrows : RulesKept Owner rows)
    (howner : Owner row.rule.ownerId)
    (hinsert : insertRule rows row = .ok stored) : RulesKept Owner stored := by
  refine ⟨insertRule_unique hrows.unique hinsert, ?_⟩
  obtain ⟨-, -, -, rfl⟩ := insertRule_eq_ok.mp hinsert
  intro other hother
  rcases List.mem_append.mp hother with hold | hnew
  · exact hrows.owners other hold
  · rw [List.mem_singleton.mp hnew]
    exact howner

theorem RulesKept.replace (hrows : RulesKept Owner rows)
    (howner : Owner row.rule.ownerId)
    (hreplace : replaceRule rows row = .ok stored) : RulesKept Owner stored := by
  simp only [replaceRule] at hreplace
  split at hreplace
  · contradiction
  · split at hreplace
    · contradiction
    next hunique =>
      obtain rfl := Except.ok.inj hreplace
      refine ⟨⟨?_, not_not.mp hunique⟩, ?_⟩
      · have hids : (rows.map fun other =>
            if other.id = row.id then row else other).map StoredRule.id =
              rows.map StoredRule.id := by
          rw [List.map_map]
          apply List.map_congr_left
          intro other _
          simp only [Function.comp_apply]
          split
          next hid => exact hid.symm
          · rfl
        rw [hids]
        exact hrows.unique.ids
      · intro replaced hreplaced
        obtain ⟨other, hother, rfl⟩ := List.mem_map.mp hreplaced
        split
        · exact howner
        · exact hrows.owners other hother

/-- The ids and the owners are all that matters of UPDATEs of priorities. -/
theorem RulesKept.flush (hrows : RulesKept Owner rows)
    {updates : List (Id × ℤ)}
    (hflush : flushPriorities rows updates = .ok stored) :
    RulesKept Owner stored := by
  induction updates generalizing rows with
  | nil =>
      obtain rfl := Except.ok.inj hflush
      exact hrows
  | cons update updates ih =>
      rw [flushPriorities] at hflush
      split at hflush
      · contradiction
      · split at hflush
        · contradiction
        next hunique =>
          refine ih ⟨⟨?_, not_not.mp hunique⟩, ?_⟩ hflush
          · exact (ids_executed rows [update]).symm ▸ hrows.unique.ids
          · intro updated hupdated
            obtain ⟨other, hother, rfl⟩ := List.mem_map.mp hupdated
            split
            · exact hrows.owners other hother
            · exact hrows.owners other hother

omit [DecidableEq Id] in
theorem RulesKept.sublist (hrows : RulesKept Owner rows)
    (hsublist : stored.Sublist rows) : RulesKept Owner stored where
  unique := hrows.unique.sublist hsublist
  owners row hrow := hrows.owners row (hsublist.subset hrow)

omit [DecidableEq Id] in
theorem RulesKept.settled (hrows : RulesKept Owner rows)
    {result : Except RuleRefusal (List (StoredRule Id))}
    (hresult : ∀ stored, result = .ok stored → RulesKept Owner stored) :
    RulesKept Owner (settled rows result).1 := by
  cases result with
  | ok stored => exact hresult stored rfl
  | error refusal =>
      cases refusal with
      | outOfRange => exact hrows
      | uniqueViolation => exact hrows

/-- What is stored of a decision has an owner among them. -/
theorem RulesKept.store (hrows : RulesKept Owner rows)
    {request : RuleRequest Id} {decision : Decision (SeverityRule Id) Problem}
    (hversion : ∀ rule ∈ decision.version, Owner rule.ownerId) :
    RulesKept Owner (storeDecision rows request decision).1 := by
  cases decision with
  | refuse problem => exact hrows
  | insert rule =>
      have howner : Owner rule.ownerId := hversion rule rfl
      have hagain : ∀ again, request.reconsider rule = .insert again →
          Owner again.ownerId := by
        intro again hreconsider
        rw [reconsider_owner hreconsider]
        exact howner
      rw [storeDecision]
      split
      · split
        next again hreconsider =>
          exact hrows.settled fun stored =>
            hrows.insert (hagain again hreconsider)
        · exact hrows
      · exact hrows.settled fun stored => hrows.insert howner
  | update final =>
      exact hrows.settled fun stored => hrows.replace (hversion final rfl)
  | delete => exact hrows.sublist List.filter_sublist

theorem RulesKept.decide (hrows : RulesKept Owner rows)
    {request : RuleRequest Id}
    (hversion : ∀ decision,
      request.decide re2 (findRule rows request.id) = .ok decision →
      ∀ rule ∈ decision.version, Owner rule.ownerId) :
    RulesKept Owner (decideRule re2 rows request).1 := by
  rw [decideRule]
  split
  · exact hrows
  next decision hdecision => exact hrows.store (hversion decision hdecision)

/-- The request on a rule names owners among them only. -/
theorem RulesKept.handle (hrows : RulesKept Owner rows)
    {request : PriorityRequest Id}
    (hcreate : ∀ ownerId body, request.call = .create ownerId body →
      request.lookups = .ok () → Owner ownerId) :
    RulesKept Owner (request.handle re2 rows).1 := by
  have hfound : ∀ id, ∀ rule ∈ findRule rows id, Owner rule.ownerId := by
    intro id rule hrule
    obtain ⟨row, hrow, rfl⟩ := Option.map_eq_some_iff.mp hrule
    exact hrows.owners row (List.mem_of_find?_eq_some hrow)
  rw [PriorityRequest.handle]
  cases hcall : request.call with
  | create ownerId body =>
      apply hrows.decide
      intro decision hdecision rule hrule
      obtain ⟨hlookups, howner⟩ := create_owner rfl hdecision rule hrule
      rw [howner]
      exact hcreate ownerId body hcall hlookups
  | update body =>
      simp only
      split
      · apply hrows.decide
        intro decision
        exact update_owner rfl (hfound _)
      · apply hrows.decide
        intro decision
        exact update_owner rfl (hfound _)
  | delete =>
      apply hrows.decide
      intro decision hdecision rule hrule
      rw [delete_version rfl hdecision] at hrule
      cases hrule
  | reorder ownerId body =>
      simp only
      split
      · exact hrows
      · apply hrows.settled
        intro stored hstored
        obtain ⟨between, hfirst, hsecond⟩ := Except.bind_eq_ok.mp hstored
        exact (hrows.flush hfirst).flush hsecond

end RuleEdits

/-! ## Requests keep the constraints -/

section Consistency

variable {catalogue : Catalogue} {re2 : Re2}
  {tables stored : PresetTables Id} {preset : SeverityPreset Id}
  {tenantId presetId : Id} {newIds : NewIds Id} {spec : PresetSpec}

theorem getPresetOr404_eq_ok
    (hget : getPresetOr404 tables tenantId presetId = .ok preset) :
    preset ∈ tables.presets ∧ preset.id = presetId ∧
      preset.tenantId = tenantId := by
  rw [getPresetOr404] at hget
  split at hget
  next found hfind =>
    obtain rfl := Except.ok.inj hget
    have hcondition := List.find?_some hfind
    simp only [decide_eq_true_eq] at hcondition
    exact ⟨List.mem_of_find?_eq_some hfind, hcondition⟩
  · contradiction

theorem ids_replacePreset (presets : List (SeverityPreset Id))
    (preset : SeverityPreset Id) :
    (replacePreset presets preset).map SeverityPreset.id =
      presets.map SeverityPreset.id := by
  rw [replacePreset, List.map_map]
  apply List.map_congr_left
  intro other _
  simp only [Function.comp_apply]
  split
  next hid => exact hid.symm
  · rfl

theorem mem_replacePreset {presets : List (SeverityPreset Id)}
    {other : SeverityPreset Id} (hother : other ∈ replacePreset presets preset) :
    other = preset ∨ other ∈ presets := by
  obtain ⟨before, hbefore, rfl⟩ := List.mem_map.mp hother
  split
  · exact Or.inl rfl
  · exact Or.inr hbefore

omit [DecidableEq Id] in
theorem owner_newRules {row : StoredRule Id}
    (hrow : row ∈ newRules newIds spec) : row.rule.ownerId = newIds.preset := by
  obtain ⟨entry, -, rfl⟩ := List.mem_map.mp hrow
  rfl

/-- A new preset. -/
theorem PresetTables.Consistent.insert (hconsistent : tables.Consistent)
    {presets : List (SeverityPreset Id)}
    (hinsert : insertPreset tables.presets preset = .ok presets) :
    { tables with presets := presets }.Consistent := by
  obtain ⟨hfits, hunique, rfl⟩ := insertPreset_eq_ok.mp hinsert
  refine ⟨hunique, ?_, hconsistent.rules, ?_, ?_⟩
  · intro other hother
    rcases List.mem_append.mp hother with hold | hnew
    · exact hconsistent.fits other hold
    · rw [List.mem_singleton.mp hnew]
      exact hfits
  · intro row hrow
    rw [List.map_append]
    exact List.mem_append_left _ (hconsistent.owners row hrow)
  · intro association hassociation
    rw [List.map_append]
    exact List.mem_append_left _
      (hconsistent.associated association hassociation)

/-- An UPDATE of a preset. -/
theorem PresetTables.Consistent.flush (hconsistent : tables.Consistent)
    {presets : List (SeverityPreset Id)}
    (hflush : flushPreset tables.presets preset = .ok presets) :
    { tables with presets := presets }.Consistent := by
  obtain ⟨hfits, hunique, rfl⟩ := flushPreset_eq_ok.mp hflush
  refine ⟨hunique, ?_, hconsistent.rules, ?_, ?_⟩
  · intro other hother
    rcases mem_replacePreset hother with hnew | hold
    · rw [hnew]
      exact hfits
    · exact hconsistent.fits other hold
  · rw [ids_replacePreset]
    exact hconsistent.owners
  · rw [ids_replacePreset]
    exact hconsistent.associated

/-- New rules of a preset of the tables. -/
theorem PresetTables.Consistent.addRules (hconsistent : tables.Consistent)
    (hpreset : newIds.preset ∈ tables.presets.map SeverityPreset.id)
    {rows : List (StoredRule Id)}
    (hadd : Presets.addRules tables.rules newIds spec = .ok rows) :
    { tables with rules := rows }.Consistent := by
  obtain ⟨rfl, hunique⟩ := addRules_ok hadd
  refine ⟨hconsistent.presets, hconsistent.fits, hunique hconsistent.rules, ?_,
    hconsistent.associated⟩
  intro row hrow
  rcases List.mem_append.mp hrow with hold | hnew
  · exact hconsistent.owners row hold
  · rw [owner_newRules hnew]
    exact hpreset

theorem PresetTables.Consistent.withoutRules
    (hconsistent : tables.Consistent) (presetId : Id) :
    { tables with
      rules := Presets.withoutRules tables.rules presetId }.Consistent where
  presets := hconsistent.presets
  fits := hconsistent.fits
  rules := hconsistent.rules.sublist List.filter_sublist
  owners row hrow := hconsistent.owners row (List.mem_of_mem_filter hrow)
  associated := hconsistent.associated

theorem PresetTables.Consistent.install (hconsistent : tables.Consistent)
    (hinstall : installBuiltinPreset newIds tables tenantId spec =
      .ok stored) : stored.Consistent := by
  obtain ⟨presets, hpreset, hrest⟩ := Except.bind_eq_ok.mp hinstall
  obtain ⟨rules, hrules, hdone⟩ := Except.bind_eq_ok.mp hrest
  obtain rfl := Except.ok.inj hdone
  have hnew : newIds.preset ∈ presets.map SeverityPreset.id := by
    obtain ⟨-, -, rfl⟩ := insertPreset_eq_ok.mp hpreset
    rw [List.map_append]
    exact List.mem_append_right _ (List.mem_singleton.mpr rfl)
  exact (hconsistent.insert hpreset).addRules hnew hrules

/-- A sync, one entry of the catalogue after the other. -/
theorem PresetTables.Consistent.installMissing
    {newIds : Text → NewIds Id} {chiaviENomi : List Text × List Text}
    {specs : List PresetSpec} {installed : List Text}
    (hconsistent : tables.Consistent)
    (hinstall : Presets.installMissing newIds tenantId chiaviENomi specs tables =
      .ok (stored, installed)) : stored.Consistent := by
  induction specs generalizing tables installed with
  | nil =>
      obtain ⟨rfl, -⟩ := Prod.mk.inj (Except.ok.inj hinstall)
      exact hconsistent
  | cons spec specs ih =>
      rw [Presets.installMissing] at hinstall
      split at hinstall
      · exact ih hconsistent hinstall
      · obtain ⟨between, hfirst, hrest⟩ := Except.bind_eq_ok.mp hinstall
        obtain ⟨result, hresult, hdone⟩ := Except.bind_eq_ok.mp hrest
        obtain ⟨rfl, -⟩ := Prod.mk.inj (Except.ok.inj hdone)
        exact ih (hconsistent.install hfirst) hresult

theorem PresetTables.Consistent.resetFlushes {newRule : ℕ → Id}
    (hconsistent : tables.Consistent) (hpreset : preset ∈ tables.presets)
    (hreset : Presets.resetFlushes newRule tables preset spec = .ok stored) :
    stored.Consistent := by
  obtain ⟨presets, hflush, hrest⟩ := Except.bind_eq_ok.mp hreset
  obtain ⟨rules, hrules, hdone⟩ := Except.bind_eq_ok.mp hrest
  obtain rfl := Except.ok.inj hdone
  have hid : preset.id ∈ presets.map SeverityPreset.id := by
    obtain ⟨-, -, rfl⟩ := flushPreset_eq_ok.mp hflush
    rw [ids_replacePreset]
    exact List.mem_map_of_mem hpreset
  exact ((hconsistent.flush hflush).withoutRules preset.id).addRules hid hrules

/-- What is answered is stored, or nothing is. -/
theorem PresetTables.Consistent.answered (hconsistent : tables.Consistent)
    {result : Except RuleRefusal (PresetTables Id)}
    (hresult : ∀ stored, result = .ok stored → stored.Consistent) :
    (Presets.answered tables preset result).1.Consistent := by
  cases result with
  | ok stored => exact hresult stored rfl
  | error refusal => exact hconsistent

theorem PresetTables.Consistent.delete (hconsistent : tables.Consistent)
    (presetId : Id) :
    PresetTables.Consistent {
      presets := tables.presets.filter fun other => other.id ≠ presetId
      rules := Presets.withoutRules tables.rules presetId
      associations := tables.associations.filter fun association =>
        association.presetId ≠ presetId } := by
  have hkept : ∀ id ∈ tables.presets.map SeverityPreset.id, id ≠ presetId →
      id ∈ (tables.presets.filter fun other => other.id ≠ presetId).map
        SeverityPreset.id := by
    intro id hid hne
    obtain ⟨other, hother, rfl⟩ := List.mem_map.mp hid
    exact List.mem_map_of_mem
      (List.mem_filter.mpr ⟨hother, decide_eq_true hne⟩)
  have hsublist : (tables.presets.filter fun other =>
      other.id ≠ presetId).Sublist tables.presets := List.filter_sublist
  refine ⟨⟨?_, ?_, ?_⟩, ?_, ?_, ?_, ?_⟩
  · exact hconsistent.presets.ids.sublist (hsublist.map _)
  · exact hconsistent.presets.names.sublist (hsublist.map _)
  · exact hconsistent.presets.keys.sublist (hsublist.filterMap _)
  · exact fun other hother =>
      hconsistent.fits other (List.mem_of_mem_filter hother)
  · exact hconsistent.rules.sublist List.filter_sublist
  · intro row hrow
    obtain ⟨hold, hne⟩ := List.mem_filter.mp hrow
    exact hkept _ (hconsistent.owners row hold) (of_decide_eq_true hne)
  · intro association hassociation
    obtain ⟨hold, hne⟩ := List.mem_filter.mp hassociation
    exact hkept _ (hconsistent.associated association hold)
      (of_decide_eq_true hne)

theorem PresetTables.Consistent.editRule (hconsistent : tables.Consistent)
    {ruleId : Id} {call : PriorityCall Id} {lookups : Except Problem Unit}
    (hcreate : ∀ ownerId body, call = .create ownerId body →
      lookups = .ok () → ownerId ∈ tables.presets.map SeverityPreset.id) :
    (Presets.editRule re2 tables ruleId call lookups).1.Consistent := by
  have hrows : RulesKept (· ∈ tables.presets.map SeverityPreset.id)
      tables.rules := ⟨hconsistent.rules, hconsistent.owners⟩
  have hkept : RulesKept (· ∈ tables.presets.map SeverityPreset.id)
      (PriorityRequest.handle re2 tables.rules
        ⟨.severityPresetRules, ruleId, call, lookups⟩).1 :=
    hrows.handle hcreate
  exact ⟨hconsistent.presets, hconsistent.fits, hkept.unique, hkept.owners,
    hconsistent.associated⟩

theorem presetLookup_eq_ok
    (hlookup : presetLookup tables tenantId presetId = .ok ()) :
    presetId ∈ tables.presets.map SeverityPreset.id := by
  obtain ⟨preset, hget, -⟩ := Except.map_eq_ok.mp hlookup
  obtain ⟨hpreset, rfl, -⟩ := getPresetOr404_eq_ok hget
  exact List.mem_map_of_mem hpreset

theorem PresetTables.Consistent.handleRule (hconsistent : tables.Consistent)
    (ruleId : Id) (call : PriorityCall Id) :
    (Presets.handleRule re2 tables tenantId ruleId call).1.Consistent := by
  cases call with
  | create presetId body =>
      apply hconsistent.editRule
      intro ownerId sent hcall hlookup
      obtain ⟨rfl, -⟩ := PriorityCall.create.inj hcall
      exact presetLookup_eq_ok hlookup
  | reorder presetId body =>
      apply hconsistent.editRule
      intro ownerId sent hcall
      cases hcall
  | update body =>
      rw [Presets.handleRule]
      split
      · apply hconsistent.editRule
        intro ownerId sent hcall
        cases hcall
      · exact hconsistent
  | delete =>
      rw [Presets.handleRule]
      split
      · apply hconsistent.editRule
        intro ownerId sent hcall
        cases hcall
      · exact hconsistent

/-- Every request keeps the constraints. -/
theorem PresetTables.Consistent.handle (hconsistent : tables.Consistent)
    (request : PresetRequest Id) :
    (request.handle catalogue re2 tables).1.Consistent := by
  rw [PresetRequest.handle]
  cases request.call with
  | syncBuiltin newIds =>
      simp only [syncBuiltin]
      split
      · exact hconsistent
      next stored installed hsync => exact hconsistent.installMissing hsync
  | createPreset newId body =>
      simp only [createPreset]
      split
      · exact hconsistent
      · apply hconsistent.answered
        intro stored hstored
        obtain ⟨presets, hinsert, rfl⟩ := Except.map_eq_ok.mp hstored
        exact hconsistent.insert hinsert
  | updatePreset presetId body =>
      simp only [updatePreset]
      split
      · exact hconsistent
      · split
        · exact hconsistent
        · apply hconsistent.answered
          intro stored hstored
          obtain ⟨presets, hflush, rfl⟩ := Except.map_eq_ok.mp hstored
          exact hconsistent.flush hflush
  | deletePreset presetId =>
      simp only [deletePreset]
      split
      · exact hconsistent
      · exact hconsistent.delete _
  | resetPreset presetId newRule =>
      simp only [resetPreset]
      split
      · exact hconsistent
      next preset hget =>
        split
        · exact hconsistent
        · exact hconsistent.answered fun stored =>
            hconsistent.resetFlushes (getPresetOr404_eq_ok hget).1
  | rule ruleId call => exact hconsistent.handleRule ruleId call

end Consistency

end Handlers

/-- Requests one after the other, from any tables which meet their
constraints: a key may have left the catalogue, and names are arbitrary. -/
def presetMachine (catalogue : Catalogue) (re2 : Re2) (Id : Type)
    [DecidableEq Id] : Machine (PresetTables Id) (PresetRequest Id) where
  Initial := PresetTables.Consistent
  step tables request := some (request.handle catalogue re2 tables).1

end NotifyHub.Presets
