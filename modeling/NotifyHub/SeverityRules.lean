import NotifyHub.RowEditing
import NotifyHub.SeverityResolution
import Mathlib.Tactic

/-!
# Severity rules of receivers and presets

A rule is stored once its pattern compiles with its flag.  A PATCH compiles the
combination of what it sends with the row it has read, and writes the columns
it has changed: of two overlapping PATCHes one may write the pattern and the
other one the flag.
-/

namespace NotifyHub

/-- A row of `severity_rules` or of `severity_preset_rules`; its owner is a
receiver or a preset. -/
structure SeverityRule (Id : Type) where
  ownerId : Id
  priority : ℤ
  pattern : Text
  caseInsensitive : Bool
  severity : Severity
  enabled : Bool
  deriving DecidableEq

inductive RuleTable
  | severityRules
  | severityPresetRules
  deriving DecidableEq

/-- `Field(min_length=1, max_length=200)`. -/
abbrev PatternField := { text : TextField 200 // 1 ≤ text.val.length }

structure SeverityRuleCreate where
  priority : Option (IntField 0)
  pattern : PatternField
  caseInsensitive : Bool
  severity : Severity
  enabled : Bool

structure SeverityRuleUpdate where
  priority : Option (IntField 0)
  pattern : Option PatternField
  caseInsensitive : Option Bool
  severity : Option Severity
  enabled : Option Bool

inductive RuleCall (Id : Type)
  | createSeverityRule (receiverId : Id) (body : SeverityRuleCreate)
  | updateSeverityRule (body : SeverityRuleUpdate)
  | deleteSeverityRule
  | createPresetRule (presetId : Id) (body : SeverityRuleCreate)
  | updatePresetRule (body : SeverityRuleUpdate)
  | deletePresetRule

/-- A request on the rule `id`, the `uuid4` of a new one.  The other queries of
the request have answered: the lookups of the receiver or the preset and of
the access to it, the next free priority, the same once more after a violated
constraint, and whether a priority sent by the caller is free. -/
structure RuleRequest (Id : Type) where
  id : Id
  call : RuleCall Id
  lookups : Except Problem Unit
  nextPriority : ℤ
  retryPriority : ℤ
  priorityFree : Bool

/-! ## Checks -/

def notCompilable (message : Text) : Problem :=
  validationError ("Pattern not compilable by RE2: ".toList ++ message)

/-- `_validate_pattern`. -/
def validatePattern (re2 : Re2) (pattern : Text) (caseInsensitive : Bool) :
    Except Problem Unit :=
  match compilePattern re2 pattern caseInsensitive with
  | .ok _ => .ok ()
  | .error message => .error (notCompilable message)

/-- The texts in which the handlers of the two tables differ. -/
structure RuleTexts where
  notFound : Text
  samePlace : Text

def receiverRuleTexts : RuleTexts where
  notFound := "Severity rule not found.".toList
  samePlace := "on this receiver".toList

def presetRuleTexts : RuleTexts where
  notFound := "Preset rule not found.".toList
  samePlace := "in this preset".toList

def priorityTaken (texts : RuleTexts) (priority : ℤ) : Problem :=
  conflict ("Priority ".toList ++ (toString priority).toList
    ++ " is already used by another rule ".toList ++ texts.samePlace
    ++ ". Priorities must be unique: the lowest one is evaluated first.".toList)

/-- `_assert_priority_free` and `_assert_rule_priority_free`. -/
def assertPriorityFree (texts : RuleTexts) (priority : ℤ) (free : Bool) :
    Except Problem Unit :=
  if free then .ok () else .error (priorityTaken texts priority)

section Handlers

variable {Id : Type}

/-- `_nuova_regola` and `_nuova_regola_preset`. -/
def newRule (ownerId : Id) (body : SeverityRuleCreate) (priority : ℤ) :
    SeverityRule Id where
  ownerId := ownerId
  priority := priority
  pattern := body.pattern.val.val
  caseInsensitive := body.caseInsensitive
  severity := body.severity
  enabled := body.enabled

def createRule (re2 : Re2) (texts : RuleTexts) (request : RuleRequest Id)
    (ownerId : Id) (body : SeverityRuleCreate) :
    Except Problem (Decision (SeverityRule Id) Problem) := do
  request.lookups
  validatePattern re2 body.pattern.val.val body.caseInsensitive
  match body.priority with
  | none => return .insert (newRule ownerId body request.nextPriority)
  | some priority => do
      assertPriorityFree texts priority.val request.priorityFree
      return .insert (newRule ownerId body priority.val)

/-- After a violated constraint an automatic priority is computed again; one
sent by the caller has no second attempt. -/
def createRuleAgain (request : RuleRequest Id) (body : SeverityRuleCreate)
    (tried : SeverityRule Id) : Decision (SeverityRule Id) Problem :=
  match body.priority with
  | none => .insert { tried with priority := request.retryPriority }
  | some _ => .refuse integrityConflict

/-- The columns of a PATCH. -/
def SeverityRuleUpdate.apply
    (body : SeverityRuleUpdate) (rule : SeverityRule Id) : SeverityRule Id :=
  { rule with
    priority := (body.priority.map Subtype.val).getD rule.priority
    pattern := (body.pattern.map fun text => text.val.val).getD rule.pattern
    caseInsensitive := body.caseInsensitive.getD rule.caseInsensitive
    severity := body.severity.getD rule.severity
    enabled := body.enabled.getD rule.enabled }

/-- The combination is compiled if one of its parts is sent. -/
def checkCombination (re2 : Re2) (body : SeverityRuleUpdate)
    (rule : SeverityRule Id) : Except Problem Unit :=
  if body.pattern.isSome ∨ body.caseInsensitive.isSome then
    validatePattern re2 (body.apply rule).pattern
      (body.apply rule).caseInsensitive
  else .ok ()

/-- Only a new priority has to be free. -/
def checkPriority (texts : RuleTexts) (request : RuleRequest Id)
    (body : SeverityRuleUpdate) (rule : SeverityRule Id) :
    Except Problem Unit :=
  match body.priority with
  | some priority =>
      if priority.val = rule.priority then .ok ()
      else assertPriorityFree texts priority.val request.priorityFree
  | none => .ok ()

def updateRule (re2 : Re2) (texts : RuleTexts) (lookups : Except Problem Unit)
    (request : RuleRequest Id) (body : SeverityRuleUpdate)
    (existing : Option (SeverityRule Id)) :
    Except Problem (Decision (SeverityRule Id) Problem) :=
  match existing with
  | none => throw (notFound texts.notFound)
  | some rule => do
      lookups
      checkCombination re2 body rule
      checkPriority texts request body rule
      return .update (body.apply rule)

def deleteRule (texts : RuleTexts) (lookups : Except Problem Unit)
    (existing : Option (SeverityRule Id)) :
    Except Problem (Decision (SeverityRule Id) Problem) :=
  match existing with
  | none => throw (notFound texts.notFound)
  | some _ => do
      lookups
      return .delete

def createSeverityRule (re2 : Re2) (request : RuleRequest Id) (receiverId : Id)
    (body : SeverityRuleCreate) :
    Except Problem (Decision (SeverityRule Id) Problem) :=
  createRule re2 receiverRuleTexts request receiverId body

def updateSeverityRule (re2 : Re2) (request : RuleRequest Id)
    (body : SeverityRuleUpdate) (existing : Option (SeverityRule Id)) :
    Except Problem (Decision (SeverityRule Id) Problem) :=
  updateRule re2 receiverRuleTexts request.lookups request body existing

def deleteSeverityRule (request : RuleRequest Id)
    (existing : Option (SeverityRule Id)) :
    Except Problem (Decision (SeverityRule Id) Problem) :=
  deleteRule receiverRuleTexts request.lookups existing

def createPresetRule (re2 : Re2) (request : RuleRequest Id) (presetId : Id)
    (body : SeverityRuleCreate) :
    Except Problem (Decision (SeverityRule Id) Problem) :=
  createRule re2 presetRuleTexts request presetId body

/-- The PATCH of a preset rule looks up nothing but the rule. -/
def updatePresetRule (re2 : Re2) (request : RuleRequest Id)
    (body : SeverityRuleUpdate) (existing : Option (SeverityRule Id)) :
    Except Problem (Decision (SeverityRule Id) Problem) :=
  updateRule re2 presetRuleTexts (.ok ()) request body existing

def deletePresetRule (existing : Option (SeverityRule Id)) :
    Except Problem (Decision (SeverityRule Id) Problem) :=
  deleteRule presetRuleTexts (.ok ()) existing

def RuleCall.table : RuleCall Id → RuleTable
  | .createSeverityRule .. | .updateSeverityRule _ | .deleteSeverityRule =>
      .severityRules
  | .createPresetRule .. | .updatePresetRule _ | .deletePresetRule =>
      .severityPresetRules

def RuleRequest.decide (re2 : Re2) (request : RuleRequest Id)
    (existing : Option (SeverityRule Id)) :
    Except Problem (Decision (SeverityRule Id) Problem) :=
  match request.call with
  | .createSeverityRule receiverId body =>
      createSeverityRule re2 request receiverId body
  | .updateSeverityRule body => updateSeverityRule re2 request body existing
  | .deleteSeverityRule => deleteSeverityRule request existing
  | .createPresetRule presetId body =>
      createPresetRule re2 request presetId body
  | .updatePresetRule body => updatePresetRule re2 request body existing
  | .deletePresetRule => deletePresetRule existing

def RuleRequest.reconsider (request : RuleRequest Id)
    (tried : SeverityRule Id) : Decision (SeverityRule Id) Problem :=
  match request.call with
  | .createSeverityRule _ body | .createPresetRule _ body =>
      createRuleAgain request body tried
  | _ => .refuse integrityConflict

/-- The rows by table and id. -/
def ruleHandlers (re2 : Re2) (Id : Type) :
    RowHandlers (RuleTable × Id) (RuleRequest Id) (SeverityRule Id)
      Problem where
  key request := (request.call.table, request.id)
  decide request existing := orRefuse (request.decide re2 existing)
  reconsider request tried _ := request.reconsider tried
  sameRow _ _ := true
  merge loaded final stored :=
    { stored with
      priority := writeBack loaded.priority final.priority stored.priority
      pattern := writeBack loaded.pattern final.pattern stored.pattern
      caseInsensitive :=
        writeBack loaded.caseInsensitive final.caseInsensitive
          stored.caseInsensitive
      severity := writeBack loaded.severity final.severity stored.severity
      enabled := writeBack loaded.enabled final.enabled stored.enabled }

abbrev RuleState (Process Id : Type) :=
  EditState Process (RuleTable × Id) (RuleRequest Id) (SeverityRule Id) Problem

abbrev RuleAction (Process Id : Type) := EditAction Process (RuleRequest Id)

/-! ## The law -/

/-- `compile_pattern` accepts the pattern with its flag. -/
def SeverityRule.Compiles (re2 : Re2) (rule : SeverityRule Id) : Prop :=
  ∃ compiled,
    compilePattern re2 rule.pattern rule.caseInsensitive = .ok compiled

def ruleMachine
    (re2 : Re2) (Process Id : Type) [DecidableEq Process] [DecidableEq Id] :
    Machine (RuleState Process Id) (RuleAction Process Id) :=
  (ruleHandlers re2 Id).machine Process (SeverityRule.Compiles re2)

theorem validatePattern_eq_ok
    {re2 : Re2} {pattern : Text} {caseInsensitive : Bool}
    (hok : validatePattern re2 pattern caseInsensitive = .ok ()) :
    ∃ compiled, compilePattern re2 pattern caseInsensitive = .ok compiled := by
  unfold validatePattern at hok
  split at hok
  next compiled hcompiled => exact ⟨compiled, hcompiled⟩
  · contradiction

/-- The law speaks of the two columns only. -/
theorem SeverityRule.compiles_congr
    {re2 : Re2} {first second : SeverityRule Id}
    (hcolumns : (first.pattern, first.caseInsensitive) =
      (second.pattern, second.caseInsensitive))
    (hcompiles : second.Compiles re2) : first.Compiles re2 := by
  obtain ⟨hpattern, hflag⟩ := Prod.mk.inj hcolumns
  unfold Compiles
  rw [hpattern, hflag]
  exact hcompiles

/-- A PATCH which sends neither part leaves a combination which was stored. -/
theorem checkCombination_compiles
    {re2 : Re2} {body : SeverityRuleUpdate} {rule : SeverityRule Id}
    (hok : checkCombination re2 body rule = .ok ())
    (hrule : rule.Compiles re2) : (body.apply rule).Compiles re2 := by
  unfold checkCombination at hok
  split at hok
  · exact validatePattern_eq_ok hok
  next hneither =>
    simp only [not_or, Bool.not_eq_true, Option.isSome_eq_false_iff,
      Option.isNone_iff_eq_none] at hneither
    refine SeverityRule.compiles_congr ?_ hrule
    simp [SeverityRuleUpdate.apply, hneither.1, hneither.2]

theorem createRule_compiles
    {re2 : Re2} {texts : RuleTexts} {request : RuleRequest Id} {ownerId : Id}
    {body : SeverityRuleCreate} {decision : Decision (SeverityRule Id) Problem}
    (hok : createRule re2 texts request ownerId body = .ok decision) :
    ∀ rule ∈ decision.version, rule.Compiles re2 := by
  obtain ⟨_, -, hok⟩ := Except.bind_eq_ok.mp hok
  obtain ⟨_, hvalid, hok⟩ := Except.bind_eq_ok.mp hok
  intro rule hrule
  cases hpriority : body.priority with
  | none =>
      rw [hpriority] at hok
      obtain rfl := Except.ok.inj hok
      obtain rfl := Option.some.inj hrule
      exact validatePattern_eq_ok hvalid
  | some priority =>
      rw [hpriority] at hok
      obtain ⟨_, -, hok⟩ := Except.bind_eq_ok.mp hok
      obtain rfl := Except.ok.inj hok
      obtain rfl := Option.some.inj hrule
      exact validatePattern_eq_ok hvalid

theorem updateRule_compiles
    {re2 : Re2} {texts : RuleTexts} {lookups : Except Problem Unit}
    {request : RuleRequest Id} {body : SeverityRuleUpdate}
    {existing : Option (SeverityRule Id)}
    {decision : Decision (SeverityRule Id) Problem}
    (hexisting : ∀ rule ∈ existing, rule.Compiles re2)
    (hok : updateRule re2 texts lookups request body existing =
      .ok decision) : ∀ rule ∈ decision.version, rule.Compiles re2 := by
  intro rule hrule
  cases existing with
  | none => contradiction
  | some before =>
      obtain ⟨_, -, hok⟩ := Except.bind_eq_ok.mp hok
      obtain ⟨_, hcombination, hok⟩ := Except.bind_eq_ok.mp hok
      obtain ⟨_, -, hok⟩ := Except.bind_eq_ok.mp hok
      obtain rfl := Except.ok.inj hok
      obtain rfl := Option.some.inj hrule
      exact checkCombination_compiles hcombination (hexisting before rfl)

theorem deleteRule_version
    {texts : RuleTexts} {lookups : Except Problem Unit}
    {existing : Option (SeverityRule Id)}
    {decision : Decision (SeverityRule Id) Problem}
    (hok : deleteRule texts lookups existing = .ok decision) :
    decision.version = none := by
  cases existing with
  | none => contradiction
  | some before =>
      obtain ⟨_, -, hok⟩ := Except.bind_eq_ok.mp hok
      obtain rfl := Except.ok.inj hok
      rfl

theorem createRuleAgain_compiles
    {re2 : Re2} {request : RuleRequest Id} {body : SeverityRuleCreate}
    {tried : SeverityRule Id} (htried : tried.Compiles re2) :
    ∀ rule ∈ (createRuleAgain request body tried).version,
      rule.Compiles re2 := by
  intro rule hrule
  unfold createRuleAgain at hrule
  split at hrule
  · obtain rfl := Option.some.inj hrule
    exact SeverityRule.compiles_congr rfl htried
  · contradiction

/-- An UPDATE of the pattern alone finds the flag as its request has read it,
and the other way round. -/
def SeverityRule.Undisturbed (loaded final stored : SeverityRule Id) : Prop :=
  NotifyHub.Undisturbed (loaded.pattern, loaded.caseInsensitive)
    (final.pattern, final.caseInsensitive)
    (stored.pattern, stored.caseInsensitive)

instance SeverityRule.decidableUndisturbed
    (loaded final stored : SeverityRule Id) :
    Decidable (loaded.Undisturbed final stored) :=
  inferInstanceAs (Decidable (NotifyHub.Undisturbed _ _ _))

theorem ruleHandlers_keeps (re2 : Re2) :
    (ruleHandlers re2 Id).Keeps (SeverityRule.Compiles re2)
      SeverityRule.Undisturbed where
  decide request existing hexisting rule hrule := by
    obtain ⟨decision, hok, hversion⟩ := mem_orRefuse_version hrule
    unfold RuleRequest.decide at hok
    split at hok
    · exact createRule_compiles hok rule hversion
    · exact updateRule_compiles hexisting hok rule hversion
    · rw [deleteRule_version hok] at hversion
      contradiction
    · exact createRule_compiles hok rule hversion
    · exact updateRule_compiles hexisting hok rule hversion
    · rw [deleteRule_version hok] at hversion
      contradiction
  reconsider request tried existing htried _ rule hrule := by
    simp only [ruleHandlers, RuleRequest.reconsider] at hrule
    split at hrule
    · exact createRuleAgain_compiles htried rule hrule
    · exact createRuleAgain_compiles htried rule hrule
    · contradiction
  merge loaded final stored _ hfinal hstored hundisturbed := by
    rcases writeBackPair_of_undisturbed hundisturbed with hpair | hpair
    · exact SeverityRule.compiles_congr hpair hfinal
    · exact SeverityRule.compiles_congr hpair hstored

end Handlers

/-! ## The rules of an ingestion -/

/-- A rule as one of the two SELECTs returns it, with the preset it comes
from. -/
structure SelectedRule (Id : Type) where
  id : Id
  rule : SeverityRule Id
  preset : Option (Id × Text)

def SelectedRule.evaluable {Id : Type} [ToString Id]
    (selected : SelectedRule Id) (position : ℕ) : EvaluableRule where
  pattern := selected.rule.pattern
  severity := selected.rule.severity
  priority := position
  caseInsensitive := selected.rule.caseInsensitive
  enabled := true
  id := (toString selected.id).toList
  presetId := selected.preset.map fun preset => (toString preset.1).toList
  presetName := selected.preset.map Prod.snd

/-- The chain of the enabled rules of a receiver, then those of its presets;
the position in the chain is the priority. -/
def loadEvaluationChain {Id : Type} [ToString Id]
    (own presets : List (SelectedRule Id)) : List EvaluableRule :=
  (own ++ presets).mapIdx fun position selected => selected.evaluable position

/-- The entries of a SELECT are rows of the table. -/
def SelectedFrom {Id : Type}
    (rows : RuleTable × Id → Option (SeverityRule Id)) (table : RuleTable)
    (selected : List (SelectedRule Id)) : Prop :=
  ∀ entry ∈ selected, rows (table, entry.id) = some entry.rule

theorem loadEvaluationChain_compiles
    {re2 : Re2} {Id : Type} [ToString Id] {own presets : List (SelectedRule Id)}
    (hown : ∀ entry ∈ own, entry.rule.Compiles re2)
    (hpresets : ∀ entry ∈ presets, entry.rule.Compiles re2) :
    ∀ rule ∈ loadEvaluationChain own presets, ∃ compiled,
      compilePattern re2 rule.pattern rule.caseInsensitive = .ok compiled := by
  intro rule hrule
  obtain ⟨position, hposition, rfl⟩ := List.mem_mapIdx.mp hrule
  rcases List.mem_append.mp (List.getElem_mem hposition) with hmem | hmem
  · exact hown _ hmem
  · exact hpresets _ hmem

/-- While every UPDATE of one column finds the other one as its request has
read it, every stored rule compiles and no ingestion fails on one; each of the
two SELECTs of an ingestion may see a state of its own. -/
theorem stored_rules_compile
    {re2 : Re2} {Process Id : Type}
    [DecidableEq Process] [DecidableEq Id] [ToString Id]
    {state later : RuleState Process Id}
    (hreach : (ruleMachine re2 Process Id).ReachableWhere
      ((ruleHandlers re2 Id).UpdatesMeet SeverityRule.Undisturbed) state)
    (hlater : (ruleMachine re2 Process Id).ReachableWhere
      ((ruleHandlers re2 Id).UpdatesMeet SeverityRule.Undisturbed) later) :
    (∀ key, ∀ rule ∈ state.rows key, rule.Compiles re2) ∧
      ∀ own presets facts content,
        SelectedFrom state.rows .severityRules own →
        SelectedFrom later.rows .severityPresetRules presets →
          ∃ resolution, resolveSeverity re2 facts
            (loadEvaluationChain own presets) content = .ok resolution := by
  have hstored := ((ruleHandlers_keeps re2).reachable hreach).rows
  have hstoredLater := ((ruleHandlers_keeps re2).reachable hlater).rows
  refine ⟨hstored, fun own presets facts content hown hpresets => ?_⟩
  refine resolveSeverity_ok (loadEvaluationChain_compiles ?_ ?_) facts content
  · exact fun entry hentry => hstored _ entry.rule (hown entry hentry)
  · exact fun entry hentry => hstoredLater _ entry.rule (hpresets entry hentry)

/-! ## Overlapping requests -/

/-- `(kkk…){1000}` with 170 letters. -/
def largePattern : Text :=
  '(' :: List.replicate 170 'k' ++ "){1000}".toList

def tooLarge : Text := "pattern too large - compile failed".toList

/-- RE2 on letters, with or without regard to case, and on the large pattern,
whose program exceeds the memory limit once every letter has two cases. -/
def smallRe2 : Re2 where
  Compiled := Text
  compile text :=
    if text = "(?i)".toList ++ largePattern then .error tooLarge else .ok text
  search compiled content :=
    if "(?i)".toList <+: compiled then
      decide ((compiled.drop 4).map Char.toLower <:+: content.map Char.toLower)
    else decide (compiled <:+: content)

def literalA : PatternField := ⟨⟨['a'], by decide⟩, by decide⟩

def largeField : PatternField :=
  ⟨⟨largePattern, by decide +kernel⟩, by decide +kernel⟩

def postRule : SeverityRuleCreate := ⟨none, literalA, false, .error, true⟩

def patchPattern : SeverityRuleUpdate :=
  ⟨none, some largeField, none, none, none⟩

def patchFlag : SeverityRuleUpdate := ⟨none, none, some true, none, none⟩

/-- A request on rule 5, which belongs to receiver or preset 1. -/
def ruleRequest (call : RuleCall ℕ) : RuleRequest ℕ :=
  ⟨5, call, .ok (), 10, 20, true⟩

def quietFacts : SeverityFacts :=
  ⟨none, none, .info, none, none, none, none, none⟩

theorem initial_noRules (re2 : Re2) :
    (ruleMachine re2 ℕ ℕ).Initial (.atRest fun _ => none) :=
  ⟨fun _ => rfl, fun _ => rfl, nofun⟩

theorem stored_rules_compile_posted :
    ∃ state : RuleState ℕ ℕ,
      (ruleMachine smallRe2 ℕ ℕ).run (.atRest fun _ => none)
        (EditAction.alone 0 (ruleRequest (.createSeverityRule 1 postRule)) ++
          EditAction.alone 1 (ruleRequest (.updateSeverityRule patchPattern))) =
            some state ∧
      (∀ key, ∀ rule ∈ state.rows key, rule.Compiles smallRe2) ∧
        ∀ own presets facts content,
          SelectedFrom state.rows .severityRules own →
          SelectedFrom state.rows .severityPresetRules presets →
            ∃ resolution, resolveSeverity smallRe2 facts
              (loadEvaluationChain own presets) content = .ok resolution := by
  have hallowed : (ruleMachine smallRe2 ℕ ℕ).AllowedAlong
      ((ruleHandlers smallRe2 ℕ).UpdatesMeet SeverityRule.Undisturbed)
      (.atRest fun _ => none)
      (EditAction.alone 0 (ruleRequest (.createSeverityRule 1 postRule)) ++
        EditAction.alone 1 (ruleRequest (.updateSeverityRule patchPattern))) := by
    decide +kernel
  obtain ⟨state, hrun⟩ : ∃ state : RuleState ℕ ℕ,
      (ruleMachine smallRe2 ℕ ℕ).run (.atRest fun _ => none)
        (EditAction.alone 0 (ruleRequest (.createSeverityRule 1 postRule)) ++
          EditAction.alone 1 (ruleRequest (.updateSeverityRule patchPattern))) =
            some state := ⟨_, rfl⟩
  have hreach := Machine.ReachableWhere.run
    (.initial (initial_noRules smallRe2)) hallowed hrun
  exact ⟨state, hrun, stored_rules_compile hreach hreach⟩

/-- The large pattern without regard to case, which nobody has compiled. -/
def mixedRule : SeverityRule ℕ := ⟨1, 10, largePattern, true, .error, true⟩

/-- One PATCH of the pattern meets one of the flag, on a rule of a receiver or
of a preset. -/
theorem stored_rule_rejected :
    (∃ state : RuleState ℕ ℕ,
      (ruleMachine smallRe2 ℕ ℕ).Reachable state ∧
      state.rows (.severityRules, 5) = some mixedRule ∧
      resolveSeverity smallRe2 quietFacts
        (loadEvaluationChain [⟨5, mixedRule, none⟩] []) ['a'] =
          .error (.invalidPattern tooLarge)) ∧
    ∃ state : RuleState ℕ ℕ,
      (ruleMachine smallRe2 ℕ ℕ).Reachable state ∧
      state.rows (.severityPresetRules, 5) = some mixedRule ∧
      resolveSeverity smallRe2 quietFacts
        (loadEvaluationChain [] [⟨5, mixedRule, some (1, ['p'])⟩]) ['a'] =
          .error (.invalidPattern tooLarge) := by
  have hown : ∃ state : RuleState ℕ ℕ,
      (ruleMachine smallRe2 ℕ ℕ).run (.atRest fun _ => none)
        (EditAction.alone 0 (ruleRequest (.createSeverityRule 1 postRule)) ++
          EditAction.overlapping 1 2
            (ruleRequest (.updateSeverityRule patchPattern))
            (ruleRequest (.updateSeverityRule patchFlag))) = some state ∧
      state.rows (.severityRules, 5) = some mixedRule :=
    ⟨_, rfl, by decide +kernel⟩
  have hpreset : ∃ state : RuleState ℕ ℕ,
      (ruleMachine smallRe2 ℕ ℕ).run (.atRest fun _ => none)
        (EditAction.alone 0 (ruleRequest (.createPresetRule 1 postRule)) ++
          EditAction.overlapping 1 2
            (ruleRequest (.updatePresetRule patchPattern))
            (ruleRequest (.updatePresetRule patchFlag))) = some state ∧
      state.rows (.severityPresetRules, 5) = some mixedRule :=
    ⟨_, rfl, by decide +kernel⟩
  obtain ⟨state, hrun, hrow⟩ := hown
  obtain ⟨other, hother, hentry⟩ := hpreset
  exact ⟨⟨state, .run (.initial (initial_noRules smallRe2)) hrun, hrow,
      by decide +kernel⟩,
    other, .run (.initial (initial_noRules smallRe2)) hother, hentry,
      by decide +kernel⟩

end NotifyHub
