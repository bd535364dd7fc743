import NotifyHub.BuiltinPresets
import Mathlib.Tactic

/-!
# Copies of the catalogue

What a sync installs, and what a reset restores, in every state which requests
on presets and rules can lead to.
-/

namespace NotifyHub.Presets

section Copies

variable {Id : Type} [DecidableEq Id]

/-! ## The purpose of a sync and of a reset -/

/-- The rules which the catalogue prescribes for a preset. -/
def factoryRules (presetId : Id) (spec : PresetSpec) : List (SeverityRule Id) :=
  spec.rules.mapIdx fun index rule =>
    { ownerId := presetId
      priority := 10 * (index + 1)
      pattern := rule.pattern
      caseInsensitive := rule.caseInsensitive
      severity := rule.severity
      enabled := true }

/-- The preset and its rules are as the catalogue has them. -/
structure IsFactory (tables : PresetTables Id) (preset : SeverityPreset Id)
    (spec : PresetSpec) : Prop where
  stored : preset ∈ tables.presets
  key : preset.builtinKey = some spec.key
  name : preset.name = spec.name
  description : preset.description = spec.description
  rules : (ownedBy tables.rules preset.id).map StoredRule.rule =
    factoryRules preset.id spec

/-- No preset of the tenant has the key or the name of the entry. -/
def Missing (tables : PresetTables Id) (tenantId : Id) (spec : PresetSpec) :
    Prop :=
  ∀ preset ∈ tables.presets, preset.tenantId = tenantId →
    preset.builtinKey ≠ some spec.key ∧ preset.name ≠ spec.name

instance (tables : PresetTables Id) (tenantId : Id) (spec : PresetSpec) :
    Decidable (Missing tables tenantId spec) :=
  inferInstanceAs (Decidable (∀ _ ∈ _, _ → _ ∧ _))

def missingSpecs (catalogue : Catalogue) (tables : PresetTables Id)
    (tenantId : Id) : List PresetSpec :=
  catalogue.specs.filter fun spec => Missing tables tenantId spec

/-- The `uuid4`s of new presets and of their rules are new. -/
structure FreshIds (newIds : Text → NewIds Id) (tables : PresetTables Id)
    (specs : List PresetSpec) : Prop where
  presets : (tables.presets.map SeverityPreset.id ++
    specs.map fun spec => (newIds spec.key).preset).Nodup
  rules : (tables.rules.map StoredRule.id ++ specs.flatMap fun spec =>
    (newRules (newIds spec.key) spec).map StoredRule.id).Nodup

/-- The copies of the entries are added, and nothing else changes. -/
structure Installs (newIds : Text → NewIds Id) (tenantId : Id)
    (specs : List PresetSpec) (tables after : PresetTables Id) : Prop where
  presets : after.presets = tables.presets ++
    specs.map fun spec => newPreset (newIds spec.key) tenantId spec
  rules : after.rules = tables.rules ++
    specs.flatMap fun spec => newRules (newIds spec.key) spec
  associations : after.associations = tables.associations
  factory : ∀ spec ∈ specs,
    IsFactory after (newPreset (newIds spec.key) tenantId spec) spec

/-- The preset is restored, and nothing else changes. -/
structure Restores (preset : SeverityPreset Id) (spec : PresetSpec)
    (tables after : PresetTables Id) : Prop where
  presets : after.presets = tables.presets.map fun other =>
    if other.id = preset.id then restored preset spec else other
  rules : withoutRules after.rules preset.id =
    withoutRules tables.rules preset.id
  associations : after.associations = tables.associations
  factory : IsFactory after (restored preset spec) spec

/-- The preset is a copy of an entry whose name no other preset has. -/
def Restorable (catalogue : Catalogue) (tables : PresetTables Id)
    (tenantId presetId : Id) : Prop :=
  ∃ preset ∈ tables.presets, preset.id = presetId ∧
    preset.tenantId = tenantId ∧ ∃ spec ∈ catalogue.specs,
      preset.builtinKey = some spec.key ∧
        ∀ other ∈ tables.presets, other.tenantId = tenantId →
          other.name = spec.name → other.id = presetId

/-! ## New rules -/

section NewRules

variable {newIds : NewIds Id} {spec : PresetSpec} {rows : List (StoredRule Id)}

omit [DecidableEq Id] in
theorem map_rule_newRules (newIds : NewIds Id) (spec : PresetSpec) :
    (newRules newIds spec).map StoredRule.rule =
      factoryRules newIds.preset spec := by
  apply List.ext_getElem
  · simp [newRules, factoryRules]
  · intro index _ _
    simp [newRules, factoryRules, priorityStep, mul_comm, add_comm]

omit [DecidableEq Id] in
theorem newRules_priorities (newIds : NewIds Id) (spec : PresetSpec) :
    PrioritiesUnique (newRules newIds spec) := by
  have hindices : ((spec.rules.zipIdx 1).map Prod.snd).Nodup := by
    rw [List.zipIdx_map_snd]
    exact List.nodup_range' _
  have hinj : Function.Injective fun index : ℕ =>
      (newIds.preset, (index : ℤ) * priorityStep) := by
    intro index other heq
    have hproduct : (index : ℤ) * priorityStep = other * priorityStep :=
      (Prod.mk.inj heq).2
    simp only [priorityStep] at hproduct
    omega
  have hmap := hindices.map hinj
  rw [List.map_map] at hmap
  rw [PrioritiesUnique, newRules, List.map_map]
  exact hmap

omit [DecidableEq Id] in
theorem newRules_fit (hfits : spec.FitsColumns) :
    ∀ row ∈ newRules newIds spec,
      FitsColumn 200 row.rule.pattern ∧ FitsInt4 row.rule.priority := by
  intro row hrow
  obtain ⟨entry, hentry, rfl⟩ := List.mem_map.mp hrow
  have hrule : entry.1 ∈ spec.rules := by
    have hmem := List.mem_map_of_mem (f := Prod.fst) hentry
    rwa [List.zipIdx_map_fst] at hmem
  have hindex := List.snd_lt_of_mem_zipIdx hentry
  have hpriorities := hfits.priorities
  refine ⟨hfits.patterns entry.1 hrule, ?_⟩
  simp only [FitsInt4, Ingestion.int32Min, int4Max, priorityStep]
  omega

/-- The rules of a preset without rules. -/
theorem addRules_newRules (hrows : RulesUnique rows) (hfits : spec.FitsColumns)
    (howner : ∀ row ∈ rows, row.rule.ownerId ≠ newIds.preset)
    (hids : (rows.map StoredRule.id ++
      (newRules newIds spec).map StoredRule.id).Nodup) :
    addRules rows newIds spec = .ok (rows ++ newRules newIds spec) := by
  apply addRules_eq (fun row hrow => (newRules_fit hfits row hrow).1)
    (fun row hrow => (newRules_fit hfits row hrow).2)
  refine ⟨?_, ?_⟩
  · rw [List.map_append]
    exact hids
  · rw [PrioritiesUnique, List.map_append]
    refine List.nodup_append.mpr
      ⟨hrows.priorities, newRules_priorities newIds spec, ?_⟩
    intro first hfirst second hsecond heq
    obtain ⟨row, hrow, rfl⟩ := List.mem_map.mp hfirst
    obtain ⟨new, hnew, rfl⟩ := List.mem_map.mp hsecond
    apply howner row hrow
    rw [(Prod.mk.inj heq).1, owner_newRules hnew]

theorem ownedBy_newRules (newIds : NewIds Id) (spec : PresetSpec) :
    ownedBy (newRules newIds spec) newIds.preset = newRules newIds spec := by
  apply List.filter_eq_self.mpr
  intro row hrow
  simpa using owner_newRules hrow

theorem ownedBy_eq_nil {ownerId : Id}
    (howner : ∀ row ∈ rows, row.rule.ownerId ≠ ownerId) :
    ownedBy rows ownerId = [] := by
  apply List.filter_eq_nil_iff.mpr
  intro row hrow
  simpa using howner row hrow

theorem ownedBy_append (rows others : List (StoredRule Id)) (ownerId : Id) :
    ownedBy (rows ++ others) ownerId =
      ownedBy rows ownerId ++ ownedBy others ownerId :=
  List.filter_append rows others

end NewRules

/-! ## Sync -/

section Sync

variable {catalogue : Catalogue} {tables : PresetTables Id} {tenantId : Id}
  {newIds : Text → NewIds Id} {spec : PresetSpec} {specs : List PresetSpec}

theorem missing_iff :
    Missing tables tenantId spec ↔
      ¬(spec.key ∈ (chiaviENomiDelTenant tables tenantId).1 ∨
        spec.name ∈ (chiaviENomiDelTenant tables tenantId).2) := by
  simp only [Missing, chiaviENomiDelTenant, List.mem_filterMap, List.mem_map,
    List.mem_filter, decide_eq_true_eq, not_or, not_exists, not_and]
  constructor
  · intro hmissing
    exact ⟨fun preset hpreset => (hmissing preset hpreset.1 hpreset.2).1,
      fun preset hpreset => (hmissing preset hpreset.1 hpreset.2).2⟩
  · intro hneither preset hpreset htenant
    exact ⟨hneither.1 preset ⟨hpreset, htenant⟩,
      hneither.2 preset ⟨hpreset, htenant⟩⟩

def installed (newIds : Text → NewIds Id) (tenantId : Id)
    (tables : PresetTables Id) (specs : List PresetSpec) : PresetTables Id where
  presets := tables.presets ++
    specs.map fun spec => newPreset (newIds spec.key) tenantId spec
  rules := tables.rules ++
    specs.flatMap fun spec => newRules (newIds spec.key) spec
  associations := tables.associations

/-- Entries whose copies violate no constraint. -/
structure Installable (newIds : Text → NewIds Id) (tenantId : Id)
    (tables : PresetTables Id) (specs : List PresetSpec) : Prop where
  fits : ∀ spec ∈ specs, spec.FitsColumns
  ids : FreshIds newIds tables specs
  names : (tables.presets.map SeverityPreset.nameKey ++
    specs.map fun spec => (tenantId, spec.name)).Nodup
  keys : (tables.presets.filterMap SeverityPreset.catalogueKey ++
    specs.map fun spec => (tenantId, spec.key)).Nodup

omit [DecidableEq Id] in
theorem installed_nil : installed newIds tenantId tables [] = tables := by
  simp [installed]

omit [DecidableEq Id] in
theorem installed_cons :
    installed newIds tenantId tables (spec :: specs) =
      installed newIds tenantId (installed newIds tenantId tables [spec])
        specs := by
  simp [installed]

omit [DecidableEq Id] in
/-- After the first copy the others can be installed. -/
theorem Installable.rest
    (hready : Installable newIds tenantId tables (spec :: specs)) :
    Installable newIds tenantId (installed newIds tenantId tables [spec])
      specs where
  fits other hother := hready.fits other (List.mem_cons_of_mem _ hother)
  ids := by
    refine ⟨?_, ?_⟩
    · simpa [installed, newPreset] using hready.ids.presets
    · simpa [installed] using hready.ids.rules
  names := by
    simpa [installed, newPreset, SeverityPreset.nameKey] using hready.names
  keys := by
    simpa [installed, newPreset, SeverityPreset.catalogueKey] using hready.keys

theorem Installable.first (hconsistent : tables.Consistent)
    (hready : Installable newIds tenantId tables (spec :: specs)) :
    installBuiltinPreset (newIds spec.key) tables tenantId spec =
      .ok (installed newIds tenantId tables [spec]) := by
  have hfits := hready.fits spec List.mem_cons_self
  have hone : ∀ {α : Type} (old : List α) (new : α) (rest : List α),
      (old ++ [new]).Sublist (old ++ new :: rest) := by
    intro α old new rest
    exact (List.singleton_sublist.mpr List.mem_cons_self).append_left old
  have hinsert : insertPreset tables.presets
      (newPreset (newIds spec.key) tenantId spec) =
        .ok (tables.presets ++
          [newPreset (newIds spec.key) tenantId spec]) := by
    refine insertPreset_eq_ok.mpr
      ⟨⟨hfits.key, hfits.name, hfits.description⟩, ⟨?_, ?_, ?_⟩, rfl⟩
    · rw [List.map_append]
      exact hready.ids.presets.sublist (hone _ _ _)
    · rw [List.map_append]
      exact hready.names.sublist (hone _ _ _)
    · rw [List.filterMap_append]
      exact hready.keys.sublist (hone _ _ _)
  have hpreset : (newIds spec.key).preset ∉
      tables.presets.map SeverityPreset.id := by
    intro hmem
    exact (List.nodup_append.mp hready.ids.presets).2.2 _ hmem _
      List.mem_cons_self rfl
  have hadd : addRules tables.rules (newIds spec.key) spec =
      .ok (tables.rules ++ newRules (newIds spec.key) spec) := by
    apply addRules_newRules hconsistent.rules hfits
    · intro row hrow heq
      exact hpreset (heq ▸ hconsistent.owners row hrow)
    · have hids := hready.ids.rules
      rw [List.flatMap_cons, ← List.append_assoc] at hids
      exact hids.of_append_left
  rw [installBuiltinPreset, hinsert]
  change (addRules tables.rules (newIds spec.key) spec >>= _) = _
  rw [hadd]
  simp [installed, bind, Except.bind, pure, Except.pure]

/-- The loop installs the entries with a free key and a free name. -/
theorem installMissing_eq {chiaviENomi : List Text × List Text}
    {free : PresetSpec → Bool}
    (hfree : ∀ spec, free spec = true ↔
      ¬(spec.key ∈ chiaviENomi.1 ∨ spec.name ∈ chiaviENomi.2))
    (hconsistent : tables.Consistent)
    (hready : Installable newIds tenantId tables (specs.filter free)) :
    installMissing newIds tenantId chiaviENomi specs tables =
      .ok (installed newIds tenantId tables (specs.filter free),
        (specs.filter free).map PresetSpec.key) := by
  induction specs generalizing tables with
  | nil => simp [installMissing, installed]
  | cons spec specs ih =>
      rw [installMissing]
      by_cases hused : spec.key ∈ chiaviENomi.1 ∨ spec.name ∈ chiaviENomi.2
      · have hskip : ¬free spec = true := by
          rw [hfree, not_not]
          exact hused
        rw [List.filter_cons_of_neg hskip] at hready ⊢
        rw [if_pos hused]
        exact ih hconsistent hready
      · rw [List.filter_cons_of_pos ((hfree spec).mpr hused)] at hready ⊢
        have hfirst := hready.first hconsistent
        rw [if_neg hused, hfirst]
        change (installMissing newIds tenantId chiaviENomi specs
          (installed newIds tenantId tables [spec]) >>= _) = _
        rw [ih (hconsistent.install hfirst) hready.rest, ← installed_cons]
        rfl

/-- The missing entries of a catalogue can be installed. -/
theorem installable_missing (hconsistent : tables.Consistent)
    (hfresh : FreshIds newIds tables
      (missingSpecs catalogue tables tenantId)) :
    Installable newIds tenantId tables
      (missingSpecs catalogue tables tenantId) := by
  have hsublist : (missingSpecs catalogue tables tenantId).Sublist
      catalogue.specs := List.filter_sublist
  have hmissing : ∀ spec ∈ missingSpecs catalogue tables tenantId,
      Missing tables tenantId spec :=
    fun spec hspec => of_decide_eq_true (List.mem_filter.mp hspec).2
  have hpair : Function.Injective fun text : Text => (tenantId, text) :=
    fun text other heq => (Prod.mk.inj heq).2
  refine ⟨fun spec hspec => catalogue.fits spec (hsublist.subset hspec), hfresh,
    ?_, ?_⟩
  · refine List.nodup_append.mpr ⟨hconsistent.presets.names, ?_, ?_⟩
    · have hnames := (catalogue.names_nodup.sublist (hsublist.map _)).map hpair
      rwa [List.map_map] at hnames
    · intro first hfirst second hsecond heq
      obtain ⟨preset, hpreset, rfl⟩ := List.mem_map.mp hfirst
      obtain ⟨spec, hspec, rfl⟩ := List.mem_map.mp hsecond
      obtain ⟨htenant, hname⟩ := Prod.mk.inj heq
      exact (hmissing spec hspec preset hpreset htenant).2 hname
  · refine List.nodup_append.mpr ⟨hconsistent.presets.keys, ?_, ?_⟩
    · have hkeys := (catalogue.keys_nodup.sublist (hsublist.map _)).map hpair
      rwa [List.map_map] at hkeys
    · intro first hfirst second hsecond heq
      obtain ⟨preset, hpreset, hkey⟩ := List.mem_filterMap.mp hfirst
      obtain ⟨spec, hspec, rfl⟩ := List.mem_map.mp hsecond
      obtain ⟨key, hbuiltin, rfl⟩ := Option.map_eq_some_iff.mp hkey
      obtain ⟨htenant, rfl⟩ := Prod.mk.inj heq
      exact (hmissing spec hspec preset hpreset htenant).1 hbuiltin

/-- The rules of a copy are the ones which came with it. -/
theorem ownedBy_installed (hconsistent : tables.Consistent)
    (hids : (tables.presets.map SeverityPreset.id ++
      specs.map fun spec => (newIds spec.key).preset).Nodup)
    (hspec : spec ∈ specs) :
    ownedBy (installed newIds tenantId tables specs).rules
        (newIds spec.key).preset = newRules (newIds spec.key) spec := by
  obtain ⟨before, after, rfl⟩ := List.append_of_mem hspec
  obtain ⟨-, hnew, hdisjoint⟩ := List.nodup_append.mp hids
  have hold : ∀ row ∈ tables.rules,
      row.rule.ownerId ≠ (newIds spec.key).preset :=
    fun row hrow => hdisjoint _ (hconsistent.owners row hrow) _
      (List.mem_map_of_mem hspec)
  rw [List.map_append, List.map_cons] at hnew
  obtain ⟨-, hcons, hbefore⟩ := List.nodup_append.mp hnew
  have hothers : ∀ others : List PresetSpec,
      (∀ other ∈ others, (newIds other.key).preset ≠
        (newIds spec.key).preset) →
      ownedBy (others.flatMap fun other => newRules (newIds other.key) other)
        (newIds spec.key).preset = [] := by
    intro others hne
    apply ownedBy_eq_nil
    intro row hrow
    obtain ⟨other, hother, hrule⟩ := List.mem_flatMap.mp hrow
    rw [owner_newRules hrule]
    exact hne other hother
  have hfirst := hothers before fun other hother =>
    hbefore _ (List.mem_map_of_mem hother) _ List.mem_cons_self
  have hlast := hothers after fun other hother heq =>
    (List.nodup_cons.mp hcons).1 (heq ▸ List.mem_map_of_mem hother)
  simp only [installed, List.flatMap_append, List.flatMap_cons,
    ownedBy_append, ownedBy_eq_nil hold, hfirst, hlast, ownedBy_newRules,
    List.nil_append, List.append_nil]

theorem installed_installs (hconsistent : tables.Consistent)
    (hids : (tables.presets.map SeverityPreset.id ++
      specs.map fun spec => (newIds spec.key).preset).Nodup) :
    Installs newIds tenantId specs tables
      (installed newIds tenantId tables specs) where
  presets := rfl
  rules := rfl
  associations := rfl
  factory := by
    intro spec hspec
    refine ⟨?_, rfl, rfl, rfl, ?_⟩
    · exact List.mem_append_right _ (List.mem_map_of_mem hspec)
    · change (ownedBy _ (newIds spec.key).preset).map StoredRule.rule = _
      rw [ownedBy_installed hconsistent hids hspec, map_rule_newRules]
      rfl

/-- A sync installs the missing entries. -/
theorem syncBuiltin_eq (hconsistent : tables.Consistent)
    (hfresh : FreshIds newIds tables
      (missingSpecs catalogue tables tenantId)) :
    ∃ out, syncBuiltin catalogue newIds tables tenantId =
        (installed newIds tenantId tables
          (missingSpecs catalogue tables tenantId), .synced out) ∧
      out.installed =
        (missingSpecs catalogue tables tenantId).map PresetSpec.key ∧
      out.skipped = builtinKeysConNomeOccupato catalogue tables tenantId := by
  have hsync : syncBuiltinPresets catalogue newIds tables tenantId =
      .ok (installed newIds tenantId tables
          (missingSpecs catalogue tables tenantId),
        (missingSpecs catalogue tables tenantId).map PresetSpec.key) := by
    apply installMissing_eq _ hconsistent
      (installable_missing hconsistent hfresh)
    intro spec
    rw [decide_eq_true_eq]
    exact missing_iff
  rw [syncBuiltin, hsync]
  exact ⟨_, rfl, rfl, rfl⟩

/-- After a sync no entry is missing. -/
theorem missingSpecs_installed :
    missingSpecs catalogue (installed newIds tenantId tables
      (missingSpecs catalogue tables tenantId)) tenantId = [] := by
  apply List.filter_eq_nil_iff.mpr
  intro spec hspec hstill
  have hafter := of_decide_eq_true hstill
  have hbefore : Missing tables tenantId spec :=
    fun preset hpreset => hafter preset (List.mem_append_left _ hpreset)
  have hcopy : newPreset (newIds spec.key) tenantId spec ∈
      (installed newIds tenantId tables
        (missingSpecs catalogue tables tenantId)).presets :=
    List.mem_append_right _ (List.mem_map_of_mem
      (List.mem_filter.mpr ⟨hspec, decide_eq_true hbefore⟩))
  exact (hafter _ hcopy rfl).1 rfl

end Sync

/-! ## Reset -/

section Reset

variable {catalogue : Catalogue} {tables stored : PresetTables Id}
  {tenantId presetId : Id} {newRule : ℕ → Id} {preset : SeverityPreset Id}
  {spec : PresetSpec}

theorem byKey_eq_some {key : Text} :
    catalogue.byKey key = some spec ↔
      spec ∈ catalogue.specs ∧ spec.key = key := by
  constructor
  · intro hfind
    exact ⟨List.mem_of_find?_eq_some hfind, by simpa using List.find?_some hfind⟩
  · rintro ⟨hspec, rfl⟩
    cases hfind : catalogue.byKey spec.key with
    | none =>
        have hnone := List.find?_eq_none.mp hfind spec hspec
        exact absurd (decide_eq_true rfl) hnone
    | some found =>
        have hfound := List.mem_of_find?_eq_some hfind
        have hkey : found.key = spec.key := by simpa using List.find?_some hfind
        rw [List.inj_on_of_nodup_map catalogue.keys_nodup hfound hspec hkey]

/-- The checks let through what can be restored. -/
theorem resetSpec_eq_ok :
    resetSpec catalogue tables preset = .ok spec ↔
      spec ∈ catalogue.specs ∧ preset.builtinKey = some spec.key ∧
        ¬NameUsed tables preset.tenantId (some preset.id) spec.name := by
  rw [resetSpec]
  cases hkey : preset.builtinKey with
  | none => simp
  | some key =>
      simp only
      split
      next hfind =>
        constructor
        · intro herror
          cases herror
        · rintro ⟨hspec, heq, -⟩
          have hsome := byKey_eq_some.mpr ⟨hspec, (Option.some.inj heq).symm⟩
          rw [hfind] at hsome
          cases hsome
      next found hfind =>
        have hfound := byKey_eq_some.mp hfind
        split
        next hused =>
          constructor
          · intro herror
            cases herror
          · rintro ⟨hspec, heq, hfree⟩
            have hsome := byKey_eq_some.mpr ⟨hspec, (Option.some.inj heq).symm⟩
            obtain rfl := Option.some.inj (hfind.symm.trans hsome)
            exact absurd hused hfree
        next hfree =>
          constructor
          · intro hok
            obtain rfl := Except.ok.inj hok
            exact ⟨hfound.1, congrArg some hfound.2.symm, hfree⟩
          · rintro ⟨hspec, heq, -⟩
            have hsome := byKey_eq_some.mpr ⟨hspec, (Option.some.inj heq).symm⟩
            rw [Option.some.inj (hfind.symm.trans hsome)]

theorem withoutRules_append_newRules (rows : List (StoredRule Id))
    (newIds : NewIds Id) (spec : PresetSpec) :
    withoutRules (withoutRules rows newIds.preset ++ newRules newIds spec)
      newIds.preset = withoutRules rows newIds.preset := by
  have hnew : withoutRules (newRules newIds spec) newIds.preset = [] := by
    apply List.filter_eq_nil_iff.mpr
    intro row hrow
    simpa using owner_newRules hrow
  have happend : ∀ others : List (StoredRule Id),
      withoutRules (withoutRules rows newIds.preset ++ others) newIds.preset =
        withoutRules (withoutRules rows newIds.preset) newIds.preset ++
          withoutRules others newIds.preset :=
    fun others => List.filter_append _ _
  rw [happend, hnew, List.append_nil]
  apply List.filter_eq_self.mpr
  intro row hrow
  exact (List.mem_filter.mp hrow).2

theorem owner_withoutRules {rows : List (StoredRule Id)} :
    ∀ row ∈ withoutRules rows presetId, row.rule.ownerId ≠ presetId :=
  fun _ hrow => of_decide_eq_true (List.mem_filter.mp hrow).2

/-- What the flushes of a reset leave. -/
theorem resetFlushes_restores (hpreset : preset ∈ tables.presets)
    (hkey : preset.builtinKey = some spec.key)
    (hreset : resetFlushes newRule tables preset spec = .ok stored) :
    Restores preset spec tables stored := by
  obtain ⟨presets, hflush, hrest⟩ := Except.bind_eq_ok.mp hreset
  obtain ⟨rules, hadd, hdone⟩ := Except.bind_eq_ok.mp hrest
  obtain rfl := Except.ok.inj hdone
  obtain ⟨-, -, rfl⟩ := flushPreset_eq_ok.mp hflush
  obtain ⟨rfl, -⟩ := addRules_ok hadd
  refine ⟨rfl, withoutRules_append_newRules tables.rules ⟨preset.id, newRule⟩ spec,
    rfl, ?_, hkey, rfl, rfl, ?_⟩
  · exact List.mem_map.mpr ⟨preset, hpreset, if_pos rfl⟩
  · change (ownedBy _ preset.id).map StoredRule.rule = factoryRules preset.id spec
    rw [ownedBy_append, ownedBy_eq_nil owner_withoutRules, List.nil_append]
    have hown := ownedBy_newRules ⟨preset.id, newRule⟩ spec
    rw [hown, map_rule_newRules]

/-- The checks refuse a reset, or its flushes decide. -/
theorem resetPreset_cases (catalogue : Catalogue) (newRule : ℕ → Id)
    (tables : PresetTables Id) (tenantId presetId : Id) :
    (∃ problem, resetPreset catalogue newRule tables tenantId presetId =
        (tables, .refused problem) ∧
      ∀ preset spec, getPresetOr404 tables tenantId presetId = .ok preset →
        resetSpec catalogue tables preset ≠ .ok spec) ∨
    ∃ preset spec, getPresetOr404 tables tenantId presetId = .ok preset ∧
      resetSpec catalogue tables preset = .ok spec ∧
      resetPreset catalogue newRule tables tenantId presetId =
        answered tables (restored preset spec)
          (resetFlushes newRule tables preset spec) := by
  rw [resetPreset]
  cases hget : getPresetOr404 tables tenantId presetId with
  | error problem =>
      refine Or.inl ⟨problem, rfl, ?_⟩
      intro preset spec hfound
      cases hfound
  | ok preset =>
      cases hspec : resetSpec catalogue tables preset with
      | error error =>
          refine Or.inl ⟨resetProblem error, ?_, ?_⟩
          · simp only [hspec]
          · intro found spec hfound
            obtain rfl := Except.ok.inj hfound
            rw [hspec]
            intro hok
            cases hok
      | ok spec =>
          refine Or.inr ⟨preset, spec, rfl, hspec, ?_⟩
          simp only [hspec]

/-- An answer with the preset says that it is restored. -/
theorem resetPreset_detail {out : SeverityPresetDetailOut Id}
    (hdetail : (resetPreset catalogue newRule tables tenantId presetId).2 =
      .detail out) :
    ∃ preset spec, getPresetOr404 tables tenantId presetId = .ok preset ∧
      resetSpec catalogue tables preset = .ok spec ∧
      Restores preset spec tables
        (resetPreset catalogue newRule tables tenantId presetId).1 := by
  rcases resetPreset_cases catalogue newRule tables tenantId presetId with
    ⟨problem, hrefused, -⟩ | ⟨preset, spec, hget, hspec, hanswer⟩
  · rw [hrefused] at hdetail
    cases hdetail
  · refine ⟨preset, spec, hget, hspec, ?_⟩
    rw [hanswer] at hdetail ⊢
    cases hflushes : resetFlushes newRule tables preset spec with
    | ok stored =>
        exact resetFlushes_restores (getPresetOr404_eq_ok hget).1
          (resetSpec_eq_ok.mp hspec).2.1 hflushes
    | error refusal =>
        rw [hflushes] at hdetail
        cases refusal with
        | outOfRange => cases hdetail
        | uniqueViolation => cases hdetail

/-- Every other answer leaves the tables as they were. -/
theorem resetPreset_refused
    (hrefused : ∀ out, (resetPreset catalogue newRule tables tenantId
      presetId).2 ≠ .detail out) :
    (resetPreset catalogue newRule tables tenantId presetId).1 = tables := by
  rcases resetPreset_cases catalogue newRule tables tenantId presetId with
    ⟨problem, hproblem, -⟩ | ⟨preset, spec, -, -, hanswer⟩
  · rw [hproblem]
  · rw [hanswer] at hrefused ⊢
    cases hflushes : resetFlushes newRule tables preset spec with
    | ok stored =>
        rw [hflushes] at hrefused
        exact absurd rfl (hrefused _)
    | error refusal => rfl

/-- A preset takes its factory name where no other one has it. -/
theorem presetsUnique_restored (hunique : PresetsUnique tables.presets)
    (hpreset : preset ∈ tables.presets)
    (hfree : ¬NameUsed tables preset.tenantId (some preset.id) spec.name) :
    PresetsUnique (replacePreset tables.presets (restored preset spec)) := by
  have hsame : ∀ other ∈ tables.presets,
      other.id = (restored preset spec).id → other = preset :=
    fun other hother hid =>
      List.inj_on_of_nodup_map hunique.ids hother hpreset hid
  have hapart : ∀ other ∈ tables.presets,
      other.id ≠ (restored preset spec).id →
      other.nameKey ≠ (restored preset spec).nameKey := by
    intro other hother hid hname
    obtain ⟨htenant, hname⟩ := Prod.mk.inj hname
    apply hfree
    exact ⟨other, hother, htenant, hname, fun heq => hid (Option.some.inj heq)⟩
  refine ⟨?_, ?_, ?_⟩
  · rw [ids_replacePreset]
    exact hunique.ids
  · rw [replacePreset, List.map_map]
    apply List.Nodup.map_on _ hunique.ids.of_map
    intro first hfirst second hsecond heq
    simp only [Function.comp_apply] at heq
    by_cases hone : first.id = (restored preset spec).id
    · by_cases htwo : second.id = (restored preset spec).id
      · rw [hsame first hfirst hone, hsame second hsecond htwo]
      · rw [if_pos hone, if_neg htwo] at heq
        exact absurd heq.symm (hapart second hsecond htwo)
    · by_cases htwo : second.id = (restored preset spec).id
      · rw [if_neg hone, if_pos htwo] at heq
        exact absurd heq (hapart first hfirst hone)
      · rw [if_neg hone, if_neg htwo] at heq
        exact List.inj_on_of_nodup_map hunique.names hfirst hsecond heq
  · have hkeys : (replacePreset tables.presets
        (restored preset spec)).filterMap SeverityPreset.catalogueKey =
          tables.presets.filterMap SeverityPreset.catalogueKey := by
      rw [replacePreset, List.filterMap_map]
      apply List.filterMap_congr
      intro other hother
      simp only [Function.comp_apply]
      split
      next hid =>
        rw [hsame other hother hid]
        rfl
      · rfl
    rw [hkeys]
    exact hunique.keys

/-- What passes the checks is restored. -/
theorem resetFlushes_eq (hconsistent : tables.Consistent)
    (hpreset : preset ∈ tables.presets)
    (hspec : resetSpec catalogue tables preset = .ok spec)
    (hfresh : ((withoutRules tables.rules preset.id).map StoredRule.id ++
      (newRules ⟨preset.id, newRule⟩ spec).map StoredRule.id).Nodup) :
    ∃ stored, resetFlushes newRule tables preset spec = .ok stored := by
  obtain ⟨hmem, -, hfree⟩ := resetSpec_eq_ok.mp hspec
  have hfits := catalogue.fits spec hmem
  have hflush : flushPreset tables.presets (restored preset spec) =
      .ok (replacePreset tables.presets (restored preset spec)) :=
    flushPreset_eq_ok.mpr
      ⟨⟨(hconsistent.fits preset hpreset).1, hfits.name, hfits.description⟩,
        presetsUnique_restored hconsistent.presets hpreset hfree, rfl⟩
  have hadd : addRules (withoutRules tables.rules preset.id)
      ⟨preset.id, newRule⟩ spec = .ok (withoutRules tables.rules preset.id ++
        newRules ⟨preset.id, newRule⟩ spec) :=
    addRules_newRules (hconsistent.rules.sublist List.filter_sublist) hfits
      owner_withoutRules hfresh
  rw [resetFlushes, hflush]
  change ∃ stored, (addRules (withoutRules tables.rules preset.id)
    ⟨preset.id, newRule⟩ spec >>= _) = .ok stored
  rw [hadd]
  exact ⟨_, rfl⟩

theorem getPresetOr404_eq (hconsistent : tables.Consistent)
    (hpreset : preset ∈ tables.presets) :
    getPresetOr404 tables preset.tenantId preset.id = .ok preset := by
  rw [getPresetOr404]
  split
  next found hfind =>
    have hcondition := List.find?_some hfind
    simp only [decide_eq_true_eq] at hcondition
    rw [List.inj_on_of_nodup_map hconsistent.presets.ids
      (List.mem_of_find?_eq_some hfind) hpreset hcondition.1]
  next hnone =>
    have hfalse := List.find?_eq_none.mp hnone preset hpreset
    exact absurd (decide_eq_true ⟨rfl, rfl⟩) hfalse

/-- The presets which a reset restores. -/
theorem restorable_iff (hconsistent : tables.Consistent) :
    Restorable catalogue tables tenantId presetId ↔
      ∃ preset spec, getPresetOr404 tables tenantId presetId = .ok preset ∧
        resetSpec catalogue tables preset = .ok spec := by
  constructor
  · rintro ⟨preset, hpreset, rfl, rfl, spec, hspec, hkey, hfree⟩
    refine ⟨preset, spec, getPresetOr404_eq hconsistent hpreset,
      resetSpec_eq_ok.mpr ⟨hspec, hkey, ?_⟩⟩
    rintro ⟨other, hother, htenant, hname, hid⟩
    exact hid (congrArg some (hfree other hother htenant hname))
  · rintro ⟨preset, spec, hget, hok⟩
    obtain ⟨hpreset, rfl, rfl⟩ := getPresetOr404_eq_ok hget
    obtain ⟨hspec, hkey, hfree⟩ := resetSpec_eq_ok.mp hok
    refine ⟨preset, hpreset, rfl, rfl, spec, hspec, hkey, ?_⟩
    intro other hother htenant hname
    by_contra hid
    exact hfree ⟨other, hother, htenant, hname,
      fun heq => hid (Option.some.inj heq)⟩

/-- With new ids a reset succeeds where it is possible. -/
theorem resetPreset_detail_iff (hconsistent : tables.Consistent)
    (hfresh : ∀ spec ∈ catalogue.specs,
      ((withoutRules tables.rules presetId).map StoredRule.id ++
        (newRules ⟨presetId, newRule⟩ spec).map StoredRule.id).Nodup) :
    (∃ out, (resetPreset catalogue newRule tables tenantId presetId).2 =
      .detail out) ↔ Restorable catalogue tables tenantId presetId := by
  rw [restorable_iff hconsistent]
  constructor
  · rintro ⟨out, hdetail⟩
    obtain ⟨preset, spec, hget, hspec, -⟩ := resetPreset_detail hdetail
    exact ⟨preset, spec, hget, hspec⟩
  · rintro ⟨preset, spec, hget, hspec⟩
    rcases resetPreset_cases catalogue newRule tables tenantId presetId with
      ⟨problem, -, hnever⟩ | ⟨found, other, hfound, hother, hanswer⟩
    · exact absurd hspec (hnever preset spec hget)
    · obtain rfl := Except.ok.inj (hfound.symm.trans hget)
      obtain ⟨hpreset, rfl, -⟩ := getPresetOr404_eq_ok hget
      obtain ⟨stored, hflushes⟩ := resetFlushes_eq hconsistent hpreset hother
        (hfresh other (resetSpec_eq_ok.mp hother).1)
      rw [hanswer, hflushes]
      exact ⟨_, rfl⟩

end Reset

end Copies

/-- In every reachable state a sync installs exactly the missing entries whose
name is free, with their factory rules, and one more sync changes nothing.  A
reset which succeeds makes the preset what the catalogue says and changes
nothing else, any other one changes nothing, and with new ids it succeeds
exactly for a copy of an entry whose name no other preset has. -/
theorem builtin_catalogue (catalogue : Catalogue) (re2 : Re2)
    {Id : Type} [DecidableEq Id] {tables : PresetTables Id}
    (hreach : (presetMachine catalogue re2 Id).Reachable tables)
    (tenantId : Id) :
    (∀ newIds,
      let missing := missingSpecs catalogue tables tenantId
      FreshIds newIds tables missing →
      ∃ after out,
        syncBuiltin catalogue newIds tables tenantId = (after, .synced out) ∧
        out.installed = missing.map PresetSpec.key ∧
        Installs newIds tenantId missing tables after ∧
        ∀ again, ∃ out,
          syncBuiltin catalogue again after tenantId = (after, .synced out) ∧
          out.installed = []) ∧
    ∀ presetId newRule,
      let reset := resetPreset catalogue newRule tables tenantId presetId
      (∀ out, reset.2 = .detail out →
        ∃ preset ∈ tables.presets, preset.id = presetId ∧
          preset.tenantId = tenantId ∧ ∃ spec ∈ catalogue.specs,
            preset.builtinKey = some spec.key ∧
            Restores preset spec tables reset.1) ∧
      ((∀ out, reset.2 ≠ .detail out) → reset.1 = tables) ∧
      ((∀ spec ∈ catalogue.specs,
          ((withoutRules tables.rules presetId).map StoredRule.id ++
            (newRules ⟨presetId, newRule⟩ spec).map StoredRule.id).Nodup) →
        ((∃ out, reset.2 = .detail out) ↔
          Restorable catalogue tables tenantId presetId)) := by
  have hconsistent : tables.Consistent := by
    refine hreach.invariant (fun _ hinitial => hinitial) ?_
    intro state request next hstate hstep
    obtain rfl := Option.some.inj hstep
    exact hstate.handle request
  constructor
  · intro newIds missing hfresh
    obtain ⟨out, hsync, hinstalled, -⟩ := syncBuiltin_eq hconsistent hfresh
    refine ⟨_, out, hsync, hinstalled,
      installed_installs hconsistent hfresh.presets, ?_⟩
    intro again
    have hafter : (installed newIds tenantId tables missing).Consistent := by
      have hnext : (PresetRequest.handle catalogue re2 tables
          ⟨tenantId, .syncBuiltin newIds⟩).1.Consistent :=
        hconsistent.handle _
      change (syncBuiltin catalogue newIds tables tenantId).1.Consistent
        at hnext
      rwa [hsync] at hnext
    have hnone : FreshIds again (installed newIds tenantId tables missing)
        (missingSpecs catalogue (installed newIds tenantId tables missing)
          tenantId) := by
      rw [missingSpecs_installed]
      refine ⟨?_, ?_⟩
      · simpa using hafter.presets.ids
      · simpa using hafter.rules.ids
    obtain ⟨second, hsecond, hnothing, -⟩ := syncBuiltin_eq hafter hnone
    rw [missingSpecs_installed] at hsecond hnothing
    refine ⟨second, ?_, hnothing⟩
    rw [hsecond, installed_nil]
  · intro presetId newRule reset
    refine ⟨?_, resetPreset_refused, resetPreset_detail_iff hconsistent⟩
    intro out hdetail
    obtain ⟨preset, spec, hget, hspec, hrestores⟩ := resetPreset_detail hdetail
    obtain ⟨hpreset, hid, htenant⟩ := getPresetOr404_eq_ok hget
    obtain ⟨hmem, hkey, -⟩ := resetSpec_eq_ok.mp hspec
    exact ⟨preset, hpreset, hid, htenant, spec, hmem, hkey, hrestores⟩

/-! ## A preset with a factory name -/

def noPresets : PresetTables ℕ where
  presets := []
  rules := []
  associations := []

/-- A preset of tenant 1 with the name of an entry. -/
def createTar : PresetRequest ℕ where
  tenantId := 1
  call := .createPreset 10
    ⟨⟨⟨"tar".toList, by decide⟩, by decide⟩, ⟨[], by decide⟩⟩

/-- Ids by the lengths of the keys of the catalogue. -/
def idsByLength (key : Text) : NewIds ℕ where
  preset := 100 + key.length
  rule index := 1000 * key.length + index

/-- The entry whose name is taken is left out, and the preset of the tenant has
nothing to be reset to. -/
theorem builtin_catalogue_tar :
    ∃ tables,
      (presetMachine builtinPresets smallRe2 ℕ).run noPresets [createTar] =
        some tables ∧
      (∃ after out,
        syncBuiltin builtinPresets idsByLength tables 1 =
          (after, .synced out) ∧
        out.installed = ["bash-generic".toList, "postgres".toList,
          "mongodb".toList, "rclone".toList] ∧
        Installs idsByLength 1 (missingSpecs builtinPresets tables 1) tables
          after) ∧
      (resetPreset builtinPresets id tables 1 10).1 = tables := by
  have hempty : noPresets.Consistent := by
    refine ⟨⟨.nil, .nil, .nil⟩, ?_, ⟨.nil, .nil⟩, ?_, ?_⟩
    · exact List.forall_mem_nil _
    · exact List.forall_mem_nil _
    · exact List.forall_mem_nil _
  have hrun : (presetMachine builtinPresets smallRe2 ℕ).run noPresets
      [createTar] = some _ := rfl
  have hreach : (presetMachine builtinPresets smallRe2 ℕ).Reachable _ :=
    Machine.Reachable.run (.initial hempty) hrun
  obtain ⟨hsync, hreset⟩ :=
    builtin_catalogue builtinPresets smallRe2 hreach 1
  refine ⟨_, hrun, ?_, (hreset 10 id).2.1 ?_⟩
  · obtain ⟨after, out, hanswer, hinstalled, hinstalls, -⟩ :=
      hsync idsByLength ⟨by decide +kernel, by decide +kernel⟩
    refine ⟨after, out, hanswer, ?_, hinstalls⟩
    rw [hinstalled]
    decide +kernel
  · intro out hdetail
    cases hdetail

end NotifyHub.Presets
