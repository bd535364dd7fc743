import NotifyHub.IngestInputs
import NotifyHub.RuleReorder
import NotifyHub.TransitionMachine
import Mathlib.Tactic

/-!
# Automatic priorities

The requests on the rules of receivers and presets, one after the other, with
the queries which their handlers make.  A rule without a priority is put behind
the last one, and the columns of the priorities are signed 32-bit integers.
-/

namespace NotifyHub

/-- The answer to a request; a value which does not fit its column ends in the
handler of unexpected exceptions. -/
inductive PriorityAnswer
  | done
  | refused (problem : Problem)
  | outOfRange
  deriving DecidableEq

inductive PriorityCall (Id : Type)
  | create (ownerId : Id) (body : SeverityRuleCreate)
  | update (body : SeverityRuleUpdate)
  | delete
  | reorder (ownerId : Id) (body : List Id)

/-- A request on the rule `id`, the `uuid4` of a new one, with the lookups of
the receiver or the preset and of the access to it. -/
structure PriorityRequest (Id : Type) where
  table : RuleTable
  id : Id
  call : PriorityCall Id
  lookups : Except Problem Unit

structure PriorityState (Id : Type) where
  rules : RuleTable → List (StoredRule Id)
  answers : List PriorityAnswer

/-- The value fits an `integer` column. -/
def FitsInt4 (value : ℤ) : Prop :=
  Ingestion.int32Min ≤ value ∧ value ≤ int4Max

instance (value : ℤ) : Decidable (FitsInt4 value) :=
  inferInstanceAs (Decidable (_ ∧ _))

section Handlers

variable {Id : Type} [DecidableEq Id]

/-! ## Queries -/

/-- Both queries for the next priority. -/
def nextPriorityBy (step : ℤ) (rows : List (StoredRule Id)) (ownerId : Id) : ℤ :=
  match ((ownedBy rows ownerId).map fun row => row.rule.priority).max? with
  | none => step
  | some currentMax => currentMax + step

/-- `_next_priority`. -/
def nextPriority (rows : List (StoredRule Id)) (receiverId : Id) : ℤ :=
  nextPriorityBy 10 rows receiverId

/-- `_next_rule_priority`. -/
def nextRulePriority (rows : List (StoredRule Id)) (presetId : Id) : ℤ :=
  nextPriorityBy priorityStep rows presetId

def RuleTable.nextPriority : RuleTable → List (StoredRule Id) → Id → ℤ
  | .severityRules => NotifyHub.nextPriority
  | .severityPresetRules => nextRulePriority

/-- No other rule of the owner has the priority. -/
def priorityFree (rows : List (StoredRule Id)) (ownerId : Id)
    (excludeRuleId : Option Id) (priority : ℤ) : Bool :=
  (ownedBy rows ownerId).all fun row =>
    row.rule.priority ≠ priority || excludeRuleId = some row.id

def findRule (rows : List (StoredRule Id)) (id : Id) : Option (SeverityRule Id) :=
  (rows.find? fun row => row.id = id).map StoredRule.rule

def createCall (ownerId : Id) (body : SeverityRuleCreate) :
    RuleTable → RuleCall Id
  | .severityRules => .createSeverityRule ownerId body
  | .severityPresetRules => .createPresetRule ownerId body

def updateCall (body : SeverityRuleUpdate) : RuleTable → RuleCall Id
  | .severityRules => .updateSeverityRule body
  | .severityPresetRules => .updatePresetRule body

def deleteCall : RuleTable → RuleCall Id
  | .severityRules => .deleteSeverityRule
  | .severityPresetRules => .deletePresetRule

/-- A request with the answers to its queries. -/
def PriorityRequest.ask (request : PriorityRequest Id)
    (rows : List (StoredRule Id)) (call : RuleCall Id) (ownerId : Id)
    (excludeRuleId : Option Id) (priority : Option (IntField 0)) :
    RuleRequest Id where
  id := request.id
  call := call
  lookups := request.lookups
  nextPriority := request.table.nextPriority rows ownerId
  retryPriority := request.table.nextPriority rows ownerId
  priorityFree := priority.all fun priority =>
    priorityFree rows ownerId excludeRuleId priority.val

/-! ## Statements -/

/-- Why the database refuses a row. -/
inductive RuleRefusal
  | outOfRange
  | uniqueViolation
  deriving DecidableEq

def insertRule (rows : List (StoredRule Id)) (row : StoredRule Id) :
    Except RuleRefusal (List (StoredRule Id)) :=
  if ¬FitsInt4 row.rule.priority then .error .outOfRange
  else if row.id ∈ rows.map StoredRule.id ∨ ¬PrioritiesUnique (rows ++ [row])
  then .error .uniqueViolation
  else .ok (rows ++ [row])

def replaceRule (rows : List (StoredRule Id)) (row : StoredRule Id) :
    Except RuleRefusal (List (StoredRule Id)) :=
  let replaced := rows.map fun other => if other.id = row.id then row else other
  if ¬FitsInt4 row.rule.priority then .error .outOfRange
  else if ¬PrioritiesUnique replaced then .error .uniqueViolation
  else .ok replaced

/-- The flush of some UPDATEs of priorities. -/
def flushPriorities (rows : List (StoredRule Id)) :
    List (Id × ℤ) → Except RuleRefusal (List (StoredRule Id))
  | [] => .ok rows
  | update :: updates =>
      if ¬FitsInt4 update.2 then .error .outOfRange
      else if ¬PrioritiesUnique (updatePriority rows update) then
        .error .uniqueViolation
      else flushPriorities (updatePriority rows update) updates

/-- The rows after a request and its answer; what fails is rolled back. -/
def settled (rows : List (StoredRule Id)) :
    Except RuleRefusal (List (StoredRule Id)) →
      List (StoredRule Id) × PriorityAnswer
  | .ok stored => (stored, .done)
  | .error .outOfRange => (rows, .outOfRange)
  | .error .uniqueViolation => (rows, .refused integrityConflict)

/-- What is stored of a decision; a new rule has a second attempt. -/
def storeDecision (rows : List (StoredRule Id)) (request : RuleRequest Id) :
    Decision (SeverityRule Id) Problem → List (StoredRule Id) × PriorityAnswer
  | .refuse problem => (rows, .refused problem)
  | .insert rule =>
      match insertRule rows ⟨request.id, rule⟩ with
      | .error .uniqueViolation =>
          match request.reconsider rule with
          | .insert again => settled rows (insertRule rows ⟨request.id, again⟩)
          | _ => (rows, .refused integrityConflict)
      | result => settled rows result
  | .update final => settled rows (replaceRule rows ⟨request.id, final⟩)
  | .delete => (rows.filter fun row => row.id ≠ request.id, .done)

def decideRule (re2 : Re2) (rows : List (StoredRule Id))
    (request : RuleRequest Id) : List (StoredRule Id) × PriorityAnswer :=
  match request.decide re2 (findRule rows request.id) with
  | .error problem => (rows, .refused problem)
  | .ok decision => storeDecision rows request decision

/-- The rules of a table after a request, and the answer. -/
def PriorityRequest.handle (re2 : Re2) (rows : List (StoredRule Id))
    (request : PriorityRequest Id) :
    List (StoredRule Id) × PriorityAnswer :=
  match request.call with
  | .create ownerId body =>
      decideRule re2 rows (request.ask rows
        (createCall ownerId body request.table) ownerId none body.priority)
  | .update body =>
      match findRule rows request.id with
      | none =>
          decideRule re2 rows (request.ask rows
            (updateCall body request.table) request.id (some request.id) none)
      | some rule =>
          decideRule re2 rows (request.ask rows (updateCall body request.table)
            rule.ownerId (some request.id) body.priority)
  | .delete =>
      decideRule re2 rows (request.ask rows (deleteCall request.table)
        request.id none none)
  | .reorder ownerId body =>
      match request.table.reorder request.lookups rows ownerId body with
      | .error problem => (rows, .refused problem)
      | .ok flushes =>
          settled rows do
            let between ← flushPriorities rows flushes.first
            flushPriorities between flushes.second

end Handlers

def PriorityState.step {Id : Type} [DecidableEq Id] (re2 : Re2)
    (state : PriorityState Id) (request : PriorityRequest Id) :
    PriorityState Id where
  rules := Function.update state.rules request.table
    (request.handle re2 (state.rules request.table)).1
  answers := state.answers ++
    [(request.handle re2 (state.rules request.table)).2]

/-- Requests one after the other, from any rules which their columns hold. -/
def priorityMachine (re2 : Re2) (Id : Type) [DecidableEq Id] :
    Machine (PriorityState Id) (PriorityRequest Id) where
  Initial state := (∀ table, ∀ row ∈ state.rules table,
    FitsInt4 row.rule.priority) ∧ state.answers = []
  step state request := some (state.step re2 request)

/-- The checks of a new rule before its priority. -/
def SeverityRuleCreate.passes (re2 : Re2) (lookups : Except Problem Unit)
    (body : SeverityRuleCreate) : Bool :=
  lookups.isOk &&
    (validatePattern re2 body.pattern.val.val body.caseInsensitive).isOk

/-- The list names every rule of the owner once. -/
def listsRules {Id : Type} [DecidableEq Id] (lookups : Except Problem Unit)
    (rows : List (StoredRule Id)) (ownerId : Id) (body : List Id) : Bool :=
  lookups.isOk &&
    decide (body.Nodup ∧ body.toFinset =
      ((ownedBy rows ownerId).map StoredRule.id).toFinset)

/-- A new rule which passes its checks and has no priority finds none of its
owner within ten of the largest integer, and a list to reorder which names the
rules is not too long for the column. -/
def HasRoom {Id : Type} [DecidableEq Id] (re2 : Re2) (state : PriorityState Id)
    (request : PriorityRequest Id) : Prop :=
  match request.call with
  | .create ownerId body =>
      body.passes re2 request.lookups = true → body.priority = none →
        ∀ row ∈ ownedBy (state.rules request.table) ownerId,
          row.rule.priority ≤ int4Max - 10
  | .reorder ownerId body =>
      listsRules request.lookups (state.rules request.table) ownerId body =
        true → body.length ≤ 214748364
  | .update _ | .delete => True

instance {Id : Type} [DecidableEq Id] (re2 : Re2) (state : PriorityState Id)
    (request : PriorityRequest Id) : Decidable (HasRoom re2 state request) :=
  match hcall : request.call with
  | .create ownerId body =>
      decidable_of_iff (body.passes re2 request.lookups = true →
        body.priority = none →
          ∀ row ∈ ownedBy (state.rules request.table) ownerId,
            row.rule.priority ≤ int4Max - 10) (by simp [HasRoom, hcall])
  | .reorder ownerId body =>
      decidable_of_iff (listsRules request.lookups
        (state.rules request.table) ownerId body = true →
          body.length ≤ 214748364) (by simp [HasRoom, hcall])
  | .update _ | .delete => .isTrue (by simp [HasRoom, hcall])

section Steps

variable {Id : Type} [DecidableEq Id] {re2 : Re2}
  {rows stored : List (StoredRule Id)} {row : StoredRule Id}
  {updates : List (Id × ℤ)} {result : Except RuleRefusal (List (StoredRule Id))}

/-- The priorities of all the rows fit their column. -/
def Fitting (rows : List (StoredRule Id)) : Prop :=
  ∀ row ∈ rows, FitsInt4 row.rule.priority

/-! ## Statements keep the rows within the column -/

theorem insertRule_fitting (hrows : Fitting rows)
    (hinsert : insertRule rows row = .ok stored) : Fitting stored := by
  rw [insertRule] at hinsert
  by_cases hfits : FitsInt4 row.rule.priority
  · rw [if_neg (not_not.mpr hfits)] at hinsert
    split at hinsert
    · contradiction
    · obtain rfl := Except.ok.inj hinsert
      intro other hother
      rcases List.mem_append.mp hother with hold | hnew
      · exact hrows other hold
      · rw [List.mem_singleton.mp hnew]
        exact hfits
  · rw [if_pos hfits] at hinsert
    cases hinsert

theorem replaceRule_fitting (hrows : Fitting rows)
    (hreplace : replaceRule rows row = .ok stored) : Fitting stored := by
  simp only [replaceRule] at hreplace
  by_cases hfits : FitsInt4 row.rule.priority
  · rw [if_neg (not_not.mpr hfits)] at hreplace
    split at hreplace
    · contradiction
    · obtain rfl := Except.ok.inj hreplace
      intro replaced hreplaced
      obtain ⟨other, hother, rfl⟩ := List.mem_map.mp hreplaced
      split
      · exact hfits
      · exact hrows other hother
  · rw [if_pos hfits] at hreplace
    cases hreplace

theorem updatePriority_fitting (hrows : Fitting rows) {update : Id × ℤ}
    (hfits : FitsInt4 update.2) : Fitting (updatePriority rows update) := by
  intro updated hupdated
  obtain ⟨other, hother, rfl⟩ := List.mem_map.mp hupdated
  split
  · exact hfits
  · exact hrows other hother

theorem flushPriorities_fitting (hrows : Fitting rows)
    (hflush : flushPriorities rows updates = .ok stored) : Fitting stored := by
  induction updates generalizing rows with
  | nil =>
      obtain rfl := Except.ok.inj hflush
      exact hrows
  | cons update updates ih =>
      rw [flushPriorities] at hflush
      by_cases hfits : FitsInt4 update.2
      · rw [if_neg (not_not.mpr hfits)] at hflush
        split at hflush
        · contradiction
        · exact ih (updatePriority_fitting hrows hfits) hflush
      · rw [if_pos hfits] at hflush
        cases hflush

omit [DecidableEq Id] in
theorem settled_fitting (hrows : Fitting rows)
    (hresult : ∀ stored, result = .ok stored → Fitting stored) :
    Fitting (settled rows result).1 := by
  cases result with
  | ok stored => exact hresult stored rfl
  | error refusal =>
      cases refusal with
      | outOfRange => exact hrows
      | uniqueViolation => exact hrows

theorem storeDecision_fitting (hrows : Fitting rows) (request : RuleRequest Id)
    (decision : Decision (SeverityRule Id) Problem) :
    Fitting (storeDecision rows request decision).1 := by
  have hinserted : ∀ rule : SeverityRule Id,
      Fitting (settled rows (insertRule rows ⟨request.id, rule⟩)).1 :=
    fun rule => settled_fitting hrows fun stored =>
      insertRule_fitting hrows
  cases decision with
  | refuse problem => exact hrows
  | insert rule =>
      rw [storeDecision]
      split
      · split
        · exact hinserted _
        · exact hrows
      · exact hinserted rule
  | update final =>
      exact settled_fitting hrows fun stored => replaceRule_fitting hrows
  | delete =>
      intro row hrow
      exact hrows row (List.mem_of_mem_filter hrow)

theorem decideRule_fitting (hrows : Fitting rows) (request : RuleRequest Id) :
    Fitting (decideRule re2 rows request).1 := by
  rw [decideRule]
  split
  · exact hrows
  · exact storeDecision_fitting hrows request _

theorem handle_fitting (hrows : Fitting rows) (request : PriorityRequest Id) :
    Fitting (request.handle re2 rows).1 := by
  rw [PriorityRequest.handle]
  split
  · exact decideRule_fitting hrows _
  · split
    · exact decideRule_fitting hrows _
    · exact decideRule_fitting hrows _
  · exact decideRule_fitting hrows _
  · split
    · exact hrows
    · apply settled_fitting hrows
      intro stored hstored
      obtain ⟨between, hfirst, hsecond⟩ := Except.bind_eq_ok.mp hstored
      exact flushPriorities_fitting (flushPriorities_fitting hrows hfirst)
        hsecond

/-! ## With room nothing is out of range -/

theorem insertRule_inRange (hfits : FitsInt4 row.rule.priority) :
    insertRule rows row ≠ .error .outOfRange := by
  rw [insertRule, if_neg (not_not.mpr hfits)]
  split
  · intro hrefused
    cases hrefused
  · intro hrefused
    cases hrefused

theorem replaceRule_inRange (hfits : FitsInt4 row.rule.priority) :
    replaceRule rows row ≠ .error .outOfRange := by
  simp only [replaceRule, if_neg (not_not.mpr hfits)]
  split
  · intro hrefused
    cases hrefused
  · intro hrefused
    cases hrefused

theorem flushPriorities_inRange
    (hfits : ∀ update ∈ updates, FitsInt4 update.2) :
    flushPriorities rows updates ≠ .error .outOfRange := by
  induction updates generalizing rows with
  | nil =>
      intro hrefused
      cases hrefused
  | cons update updates ih =>
      have hfirst := hfits update List.mem_cons_self
      rw [flushPriorities, if_neg (not_not.mpr hfirst)]
      split
      · intro hrefused
        cases hrefused
      · exact ih fun other hother => hfits other (List.mem_cons_of_mem _ hother)

omit [DecidableEq Id] in
theorem settled_inRange (hresult : result ≠ .error .outOfRange) :
    (settled rows result).2 ≠ .outOfRange := by
  cases result with
  | ok stored =>
      intro hanswer
      cases hanswer
  | error refusal =>
      cases refusal with
      | outOfRange => exact absurd rfl hresult
      | uniqueViolation =>
          intro hanswer
          cases hanswer

/-- The rules which a decision may store. -/
def Decision.Storable (request : RuleRequest Id) (fits : ℤ → Prop) :
    Decision (SeverityRule Id) Problem → Prop
  | .insert rule => fits rule.priority ∧
      ∀ again, request.reconsider rule = .insert again → fits again.priority
  | .update final => fits final.priority
  | .refuse _ | .delete => True

theorem storeDecision_inRange {request : RuleRequest Id}
    {decision : Decision (SeverityRule Id) Problem}
    (hstorable : decision.Storable request FitsInt4) :
    (storeDecision rows request decision).2 ≠ .outOfRange := by
  cases decision with
  | refuse problem =>
      intro hanswer
      cases hanswer
  | insert rule =>
      rw [storeDecision]
      split
      · split
        next again hagain =>
          exact settled_inRange (insertRule_inRange (hstorable.2 again hagain))
        · intro hanswer
          cases hanswer
      · exact settled_inRange (insertRule_inRange hstorable.1)
  | update final => exact settled_inRange (replaceRule_inRange hstorable)
  | delete =>
      intro hanswer
      cases hanswer

theorem decideRule_inRange {request : RuleRequest Id}
    (hstorable : ∀ decision,
      request.decide re2 (findRule rows request.id) = .ok decision →
      decision.Storable request FitsInt4) :
    (decideRule re2 rows request).2 ≠ .outOfRange := by
  rw [decideRule]
  split
  · intro hanswer
    cases hanswer
  next decision hdecision =>
    exact storeDecision_inRange (hstorable decision hdecision)

theorem nextPriority_fits (table : RuleTable) (hrows : Fitting rows)
    {ownerId : Id}
    (hroom : ∀ row ∈ ownedBy rows ownerId, row.rule.priority ≤ int4Max - 10) :
    FitsInt4 (table.nextPriority rows ownerId) := by
  have hnext : table.nextPriority rows ownerId =
      nextPriorityBy 10 rows ownerId := by
    cases table with
    | severityRules => rfl
    | severityPresetRules => rfl
  rw [hnext, nextPriorityBy]
  split
  · decide
  next currentMax hmax =>
    obtain ⟨row, hrow, hpriority⟩ := List.mem_map.mp (List.max?_mem hmax)
    have hlow := (hrows row (List.mem_of_mem_filter hrow)).1
    have hhigh := hroom row hrow
    rw [hpriority] at hlow hhigh
    constructor
    · omega
    · omega

theorem explicit_fits (priority : IntField 0) : FitsInt4 priority.val := by
  have hlow : (0 : ℤ) ≤ priority.val := priority.property.1
  constructor
  · exact le_trans (by decide) hlow
  · exact priority.property.2

omit [DecidableEq Id] in
/-- The two calls which create a rule. -/
theorem decide_create (re2 : Re2) {request : RuleRequest Id} {ownerId : Id}
    {body : SeverityRuleCreate} (table : RuleTable)
    (hcall : request.call = createCall ownerId body table)
    (existing : Option (SeverityRule Id)) :
    (∃ texts, request.decide re2 existing =
      createRule re2 texts request ownerId body) ∧
      ∀ tried, request.reconsider tried = createRuleAgain request body tried := by
  cases table with
  | severityRules =>
      simp only [RuleRequest.decide, RuleRequest.reconsider, hcall, createCall]
      exact ⟨⟨_, rfl⟩, fun _ => trivial⟩
  | severityPresetRules =>
      simp only [RuleRequest.decide, RuleRequest.reconsider, hcall, createCall]
      exact ⟨⟨_, rfl⟩, fun _ => trivial⟩

omit [DecidableEq Id] in
theorem decide_update (re2 : Re2) {request : RuleRequest Id}
    {body : SeverityRuleUpdate} (table : RuleTable)
    (hcall : request.call = updateCall body table)
    (existing : Option (SeverityRule Id)) :
    ∃ texts lookups, request.decide re2 existing =
      updateRule re2 texts lookups request body existing := by
  cases table with
  | severityRules =>
      simp only [RuleRequest.decide, hcall, updateCall]
      exact ⟨_, _, rfl⟩
  | severityPresetRules =>
      simp only [RuleRequest.decide, hcall, updateCall]
      exact ⟨_, _, rfl⟩

omit [DecidableEq Id] in
theorem decide_delete (re2 : Re2) {request : RuleRequest Id}
    (table : RuleTable) (hcall : request.call = deleteCall table)
    (existing : Option (SeverityRule Id)) :
    ∃ texts lookups, request.decide re2 existing =
      deleteRule texts lookups existing := by
  cases table with
  | severityRules =>
      simp only [RuleRequest.decide, hcall, deleteCall]
      exact ⟨_, _, rfl⟩
  | severityPresetRules =>
      simp only [RuleRequest.decide, hcall, deleteCall]
      exact ⟨_, _, rfl⟩

omit [DecidableEq Id] in
theorem create_storable {request : RuleRequest Id} {ownerId : Id}
    {body : SeverityRuleCreate} {table : RuleTable}
    (hcall : request.call = createCall ownerId body table)
    (hnext : body.passes re2 request.lookups = true →
      body.priority = none → FitsInt4 request.nextPriority)
    (hretry : body.passes re2 request.lookups = true →
      body.priority = none → FitsInt4 request.retryPriority)
    {existing : Option (SeverityRule Id)}
    {decision : Decision (SeverityRule Id) Problem}
    (hdecision : request.decide re2 existing = .ok decision) :
    decision.Storable request FitsInt4 := by
  obtain ⟨⟨texts, hdecide⟩, hagain⟩ :=
    decide_create re2 table hcall existing
  rw [hdecide] at hdecision
  obtain ⟨_, hlookups, hvalid⟩ := Except.bind_eq_ok.mp hdecision
  obtain ⟨_, hpattern, hpriority⟩ := Except.bind_eq_ok.mp hvalid
  have hpasses : body.passes re2 request.lookups = true := by
    rw [SeverityRuleCreate.passes, hlookups, hpattern]
    rfl
  cases hbody : body.priority with
  | none =>
      rw [hbody] at hpriority
      obtain rfl := Except.ok.inj hpriority
      refine ⟨hnext hpasses hbody, ?_⟩
      intro again hreconsider
      rw [hagain, createRuleAgain, hbody] at hreconsider
      obtain rfl := Decision.insert.inj hreconsider
      exact hretry hpasses hbody
  | some priority =>
      rw [hbody] at hpriority
      obtain ⟨_, -, hinsert⟩ := Except.bind_eq_ok.mp hpriority
      obtain rfl := Except.ok.inj hinsert
      refine ⟨explicit_fits priority, ?_⟩
      intro again hreconsider
      rw [hagain, createRuleAgain, hbody] at hreconsider
      cases hreconsider

omit [DecidableEq Id] in
/-- A PATCH stores the priority of its body or the one of the row. -/
theorem update_storable {request : RuleRequest Id} {body : SeverityRuleUpdate}
    {table : RuleTable} (hcall : request.call = updateCall body table)
    {existing : Option (SeverityRule Id)}
    (hexisting : ∀ rule ∈ existing, FitsInt4 rule.priority)
    {decision : Decision (SeverityRule Id) Problem}
    (hdecision : request.decide re2 existing = .ok decision) :
    decision.Storable request FitsInt4 := by
  obtain ⟨texts, lookups, hupdate⟩ := decide_update re2 table hcall existing
  rw [hupdate] at hdecision
  cases existing with
  | none => cases hdecision
  | some rule =>
      obtain ⟨_, -, hcheck⟩ := Except.bind_eq_ok.mp hdecision
      obtain ⟨_, -, hpriority⟩ := Except.bind_eq_ok.mp hcheck
      obtain ⟨_, -, hfinal⟩ := Except.bind_eq_ok.mp hpriority
      obtain rfl := Except.ok.inj hfinal
      change FitsInt4 ((body.priority.map Subtype.val).getD rule.priority)
      cases hbody : body.priority with
      | none => exact hexisting rule rfl
      | some priority => exact explicit_fits priority

omit [DecidableEq Id] in
theorem delete_storable {request : RuleRequest Id} {table : RuleTable}
    (hcall : request.call = deleteCall table)
    {existing : Option (SeverityRule Id)}
    {decision : Decision (SeverityRule Id) Problem}
    (hdecision : request.decide re2 existing = .ok decision) :
    decision.Storable request FitsInt4 := by
  obtain ⟨texts, lookups, hdelete⟩ := decide_delete re2 table hcall existing
  rw [hdelete] at hdecision
  cases existing with
  | none => cases hdecision
  | some rule =>
      obtain ⟨_, -, hdone⟩ := Except.bind_eq_ok.mp hdecision
      obtain rfl := Except.ok.inj hdone
      trivial

theorem findRule_fits (hrows : Fitting rows) (id : Id) :
    ∀ rule ∈ findRule rows id, FitsInt4 rule.priority := by
  intro rule hrule
  obtain ⟨row, hrow, rfl⟩ := Option.map_eq_some_iff.mp hrule
  exact hrows row (List.mem_of_find?_eq_some hrow)

theorem reorder_inRange {flushes : Flushes Id} {table : RuleTable}
    {lookups : Except Problem Unit} {ownerId : Id} {body : List Id}
    (hlength : listsRules lookups rows ownerId body = true →
      body.length ≤ 214748364)
    (hflushes : table.reorder lookups rows ownerId body = .ok flushes) :
    (∀ update ∈ flushes.first, FitsInt4 update.2) ∧
      ∀ update ∈ flushes.second, FitsInt4 update.2 := by
  obtain ⟨mismatch, htable⟩ := @RuleTable.reorder_eq Id _ table
  rw [htable] at hflushes
  obtain ⟨ruleIds, hvalid, hflushes⟩ := Except.bind_eq_ok.mp hflushes
  obtain ⟨_, hlookups, hflushes⟩ := Except.bind_eq_ok.mp hflushes
  obtain ⟨hids, hnodup⟩ : ruleIds = body ∧ body.Nodup := by
    rw [validateRuleIds] at hvalid
    split at hvalid
    · contradiction
    next hlist =>
      push Not at hlist
      exact ⟨(Except.ok.inj hvalid).symm, hlist.2⟩
  simp only at hflushes
  split at hflushes
  · contradiction
  next hsame =>
    obtain rfl := Except.ok.inj hflushes
    have hshort : body.length ≤ 214748364 := by
      apply hlength
      rw [hids, not_not] at hsame
      rw [listsRules, hlookups]
      simpa [Except.isOk, Except.toBool] using ⟨hnodup, hsame⟩
    have hindex : ∀ entry ∈ ruleIds.zipIdx, entry.2 < 214748364 := by
      intro entry hentry
      have hlt := List.snd_lt_of_mem_zipIdx hentry
      rw [hids] at hlt
      omega
    constructor
    · intro update hupdate
      obtain ⟨entry, hentry, rfl⟩ := List.mem_map.mp hupdate
      have hlt := hindex entry hentry
      simp only [FitsInt4, Ingestion.int32Min, int4Max]
      omega
    · intro update hupdate
      obtain ⟨entry, hentry, rfl⟩ := List.mem_map.mp hupdate
      have hlt := hindex entry hentry
      simp only [FitsInt4, Ingestion.int32Min, int4Max]
      omega

/-- A request which finds room is not answered with an error of the column. -/
theorem handle_inRange {state : PriorityState Id}
    {request : PriorityRequest Id}
    (hrows : Fitting (state.rules request.table))
    (hroom : HasRoom re2 state request) :
    (request.handle re2 (state.rules request.table)).2 ≠ .outOfRange := by
  rw [PriorityRequest.handle]
  unfold HasRoom at hroom
  cases hcall : request.call with
  | create ownerId body =>
      rw [hcall] at hroom
      apply decideRule_inRange
      intro decision
      exact create_storable rfl
        (fun hpasses hbody =>
          nextPriority_fits request.table hrows (hroom hpasses hbody))
        (fun hpasses hbody =>
          nextPriority_fits request.table hrows (hroom hpasses hbody))
  | update body =>
      simp only
      split
      · apply decideRule_inRange
        intro decision
        exact update_storable rfl (findRule_fits hrows _)
      · apply decideRule_inRange
        intro decision
        exact update_storable rfl (findRule_fits hrows _)
  | delete =>
      apply decideRule_inRange
      intro decision
      exact delete_storable rfl
  | reorder ownerId body =>
      rw [hcall] at hroom
      simp only
      split
      · intro hanswer
        cases hanswer
      next flushes hflushes =>
        obtain ⟨hfirst, hsecond⟩ := reorder_inRange hroom hflushes
        apply settled_inRange
        cases hbetween : flushPriorities (state.rules request.table)
            flushes.first with
        | error refusal =>
            intro hrefused
            obtain rfl : refusal = .outOfRange := Except.error.inj hrefused
            exact flushPriorities_inRange hfirst hbetween
        | ok between => exact flushPriorities_inRange hsecond

end Steps

/-- While every automatic priority and every list to reorder finds room, all
the priorities fit their columns and no request fails for one of them. -/
theorem priorities_in_range (re2 : Re2) {Id : Type} [DecidableEq Id]
    {state : PriorityState Id}
    (hreach : (priorityMachine re2 Id).ReachableWhere (HasRoom re2) state) :
    (∀ table, ∀ row ∈ state.rules table, FitsInt4 row.rule.priority) ∧
      .outOfRange ∉ state.answers := by
  induction hreach with
  | initial hinitial =>
      refine ⟨hinitial.1, ?_⟩
      rw [hinitial.2]
      exact List.not_mem_nil
  | @step state next request _ hroom hstep ih =>
      obtain ⟨hrules, hanswers⟩ := ih
      obtain rfl : state.step re2 request = next := Option.some.inj hstep
      constructor
      · intro table
        change ∀ row ∈ Function.update state.rules request.table _ table, _
        by_cases htable : table = request.table
        · rw [htable, Function.update_self]
          exact handle_fitting (hrules request.table) request
        · rw [Function.update_of_ne htable]
          exact hrules table
      · intro hanswer
        rcases List.mem_append.mp hanswer with hold | hnew
        · exact hanswers hold
        · exact handle_inRange (hrules request.table) hroom
            (List.mem_singleton.mp hnew).symm

/-! ## The largest priority -/

/-- A new rule of receiver or preset 7. -/
def postPriority (table : RuleTable) (id : ℕ) (priority : Option (IntField 0)) :
    PriorityRequest ℕ where
  table := table
  id := id
  call := .create 7 ⟨priority, literalA, true, .error, true⟩
  lookups := .ok ()

def noRules : PriorityState ℕ where
  rules _ := []
  answers := []

def postTwoAndReorder : List (PriorityRequest ℕ) :=
  [postPriority .severityRules 1 none, postPriority .severityRules 2 none,
    ⟨.severityRules, 0, .reorder 7 [2, 1], .ok ()⟩]

theorem noRules_initial (re2 : Re2) : (priorityMachine re2 ℕ).Initial noRules :=
  ⟨fun _ _ hrow => absurd hrow List.not_mem_nil, rfl⟩

/-- Two rules without a priority, and their order turned round. -/
theorem priorities_in_range_reordered :
    ∃ state,
      (priorityMachine smallRe2 ℕ).run noRules postTwoAndReorder =
        some state ∧
      (state.rules .severityRules).map (fun row =>
        (row.id, row.rule.priority)) = [(1, 20), (2, 10)] ∧
      (∀ table, ∀ row ∈ state.rules table, FitsInt4 row.rule.priority) ∧
      .outOfRange ∉ state.answers := by
  have hallowed : (priorityMachine smallRe2 ℕ).AllowedAlong
      (HasRoom smallRe2) noRules postTwoAndReorder := by
    decide
  have hrun : (priorityMachine smallRe2 ℕ).run noRules postTwoAndReorder =
      some _ := rfl
  have hreach := Machine.ReachableWhere.run
    (.initial (noRules_initial smallRe2)) hallowed hrun
  exact ⟨_, hrun, by decide, priorities_in_range smallRe2 hreach⟩

/-- A rule of the table is behind the largest integer. -/
def OutOfRangeReached (table : RuleTable) : Prop :=
  ∃ before after,
    (priorityMachine smallRe2 ℕ).Reachable before ∧
      (priorityMachine smallRe2 ℕ).step before (postPriority table 2 none) =
        some after ∧
      .outOfRange ∈ after.answers

/-- Nothing is left behind the largest integer, in either table. -/
theorem automatic_priority_outOfRange :
    OutOfRangeReached .severityRules ∧
      OutOfRangeReached .severityPresetRules := by
  have hreached : ∀ table,
      (.outOfRange ∈ (PriorityState.step smallRe2
        (PriorityState.step smallRe2 noRules
          (postPriority table 1 (some ⟨int4Max, by decide⟩)))
        (postPriority table 2 none)).answers) → OutOfRangeReached table := by
    intro table hanswer
    have hrun : (priorityMachine smallRe2 ℕ).run noRules
        [postPriority table 1 (some ⟨int4Max, by decide⟩)] = some _ := rfl
    exact ⟨_, _, Machine.Reachable.run (.initial (noRules_initial smallRe2))
      hrun, rfl, hanswer⟩
  exact ⟨hreached .severityRules (by decide),
    hreached .severityPresetRules (by decide)⟩

end NotifyHub
