import NotifyHub.Renumbering
import NotifyHub.SeverityRules
import Mathlib.Tactic

/-!
# The order of the rules

`reorder_severity_rules` and `reorder_preset_rules`: two flushes, each of one
UPDATE for every rule.  The database checks the priorities of an owner after
every single UPDATE, and executes those of a flush in an order of its own.
-/

namespace NotifyHub

open Renumbering

/-- A row with its primary key. -/
structure StoredRule (Id : Type) where
  id : Id
  rule : SeverityRule Id
  deriving DecidableEq

/-- `uq_severity_rules_receiver_id_priority` and
`uq_severity_preset_rules_preset_id_priority`. -/
def PrioritiesUnique {Id : Type} (rows : List (StoredRule Id)) : Prop :=
  (rows.map fun row => (row.rule.ownerId, row.rule.priority)).Nodup

section Handlers

variable {Id : Type} [DecidableEq Id]

instance (rows : List (StoredRule Id)) : Decidable (PrioritiesUnique rows) :=
  inferInstanceAs (Decidable (List.Nodup _))

/-- The UPDATE of one row. -/
def updatePriority (rows : List (StoredRule Id)) (update : Id × ℤ) :
    List (StoredRule Id) :=
  rows.map fun row =>
    if row.id = update.1 then
      { row with rule := { row.rule with priority := update.2 } }
    else row

/-- The rows after some UPDATEs, one after the other. -/
def executed (rows : List (StoredRule Id)) (updates : List (Id × ℤ)) :
    List (StoredRule Id) :=
  updates.foldl updatePriority rows

def ownedBy (rows : List (StoredRule Id)) (ownerId : Id) :
    List (StoredRule Id) :=
  rows.filter fun row => row.rule.ownerId = ownerId

/-- The answer to a body which the schema refuses. -/
def requestValidationFailed : Problem :=
  validationError "Request validation failed.".toList

/-- `SeverityRuleReorderIn` and `SeverityPresetRuleReorderIn`. -/
def validateRuleIds (ruleIds : List Id) : Except Problem (List Id) :=
  if ruleIds = [] ∨ ¬ruleIds.Nodup then .error requestValidationFailed
  else .ok ruleIds

/-- The values in the two flushes of a request. -/
structure Flushes (Id : Type) where
  first : List (Id × ℤ)
  second : List (Id × ℤ)
  deriving DecidableEq

/-- Both handlers, with the lookups of the owner and of the access to it. -/
def reorderRules (step : ℤ) (mismatch : Text) (lookups : Except Problem Unit)
    (rows : List (StoredRule Id)) (ownerId : Id) (body : List Id) :
    Except Problem (Flushes Id) := do
  let ruleIds ← validateRuleIds body
  lookups
  let rules := (ownedBy rows ownerId).map StoredRule.id
  if ruleIds.toFinset ≠ rules.toFinset then .error (validationError mismatch)
  else
    return {
      first := ruleIds.zipIdx.map fun entry => (entry.1, -((entry.2 : ℤ) + 1))
      second :=
        ruleIds.zipIdx.map fun entry => (entry.1, ((entry.2 : ℤ) + 1) * step) }

def reorderSeverityRules (lookups : Except Problem Unit)
    (rows : List (StoredRule Id)) (receiverId : Id) (body : List Id) :
    Except Problem (Flushes Id) :=
  reorderRules 10
    "rule_ids must list every rule of this receiver exactly once.".toList
    lookups rows receiverId body

/-- `PRIORITY_STEP`. -/
def priorityStep : ℤ := 10

def reorderPresetRules (lookups : Except Problem Unit)
    (rows : List (StoredRule Id)) (presetId : Id) (body : List Id) :
    Except Problem (Flushes Id) :=
  reorderRules priorityStep
    "rule_ids must list every rule of this preset exactly once.".toList
    lookups rows presetId body

/-- The handler for the rules of a table. -/
def RuleTable.reorder : RuleTable → Except Problem Unit →
    List (StoredRule Id) → Id → List Id → Except Problem (Flushes Id)
  | .severityRules => reorderSeverityRules
  | .severityPresetRules => reorderPresetRules

/-- A request which is refused updates nothing. -/
def flushesOf (answer : Except Problem (Flushes Id)) : Flushes Id :=
  match answer with
  | .ok flushes => flushes
  | .error _ => ⟨[], []⟩

/-! ## Rows and numbers -/

/-- The priorities of the rows as numbers of their ids. -/
def Numbers (number : Id → ℤ) (rows : List (StoredRule Id)) : Prop :=
  ∀ row ∈ rows, row.rule.priority = number row.id

/-- The ids of the rules of an owner. -/
def members (rows : List (StoredRule Id)) (ownerId : Id) : Set Id :=
  { id | (id, ownerId) ∈ rows.map fun row => (row.id, row.rule.ownerId) }

section Rows

variable {rows : List (StoredRule Id)} {number : Id → ℤ}
  {updates : List (Id × ℤ)} {ownerId otherId : Id}

omit [DecidableEq Id] in
theorem mem_members {id : Id} :
    id ∈ members rows ownerId ↔
      ∃ row ∈ rows, row.id = id ∧ row.rule.ownerId = ownerId := by
  simp [members, Prod.ext_iff]

theorem map_updatePriority (rows : List (StoredRule Id)) (update : Id × ℤ) :
    (updatePriority rows update).map (fun row => (row.id, row.rule.ownerId)) =
      rows.map fun row => (row.id, row.rule.ownerId) := by
  rw [updatePriority, List.map_map]
  apply List.map_congr_left
  intro row _
  simp only [Function.comp_apply]
  split
  · rfl
  · rfl

/-- UPDATEs of priorities keep the ids and the owners. -/
theorem map_executed (rows : List (StoredRule Id)) (updates : List (Id × ℤ)) :
    (executed rows updates).map (fun row => (row.id, row.rule.ownerId)) =
      rows.map fun row => (row.id, row.rule.ownerId) := by
  induction updates generalizing rows with
  | nil => rfl
  | cons update updates ih =>
      have hrest := ih (updatePriority rows update)
      rw [map_updatePriority] at hrest
      exact hrest

theorem members_executed (rows : List (StoredRule Id))
    (updates : List (Id × ℤ)) (ownerId : Id) :
    members (executed rows updates) ownerId = members rows ownerId := by
  rw [members, members, map_executed]

theorem ids_executed (rows : List (StoredRule Id)) (updates : List (Id × ℤ)) :
    (executed rows updates).map StoredRule.id = rows.map StoredRule.id := by
  have hfst := congrArg (List.map Prod.fst) (map_executed rows updates)
  rw [List.map_map, List.map_map] at hfst
  exact hfst

theorem Numbers.updatePriority (hnumbers : Numbers number rows)
    (update : Id × ℤ) :
    Numbers (Function.update number update.1 update.2)
      (updatePriority rows update) := by
  intro updated hupdated
  obtain ⟨row, hrow, rfl⟩ := List.mem_map.mp hupdated
  by_cases hid : row.id = update.1
  · simp only [if_pos hid]
    rw [hid, Function.update_self]
  · simp only [if_neg hid]
    rw [Function.update_of_ne hid]
    exact hnumbers row hrow

/-- The rows after some UPDATEs have the numbers after them. -/
theorem Numbers.executed (hnumbers : Numbers number rows)
    (updates : List (Id × ℤ)) :
    Numbers (renumber number updates) (executed rows updates) := by
  induction updates generalizing number rows with
  | nil => exact hnumbers
  | cons update updates ih => exact ih (hnumbers.updatePriority update)

theorem exists_numbers (hids : (rows.map StoredRule.id).Nodup) :
    ∃ number, Numbers number rows := by
  refine ⟨fun id => ((rows.find? fun row => row.id = id).map fun row =>
    row.rule.priority).getD 0, ?_⟩
  intro row hrow
  cases hfound : rows.find? fun other => other.id = row.id with
  | none =>
      rw [List.find?_eq_none] at hfound
      exact absurd (by simp) (hfound row hrow)
  | some other =>
      have hother := List.mem_of_find?_eq_some hfound
      have hid : other.id = row.id := by
        simpa using List.find?_some hfound
      rw [List.inj_on_of_nodup_map hids hother hrow hid] at hfound
      change row.rule.priority = ((rows.find? fun other =>
        other.id = row.id).map fun row => row.rule.priority).getD 0
      rw [hfound]
      rfl

omit [DecidableEq Id] in
/-- The constraint says that the numbers of every owner are distinct. -/
theorem prioritiesUnique_iff (hids : (rows.map StoredRule.id).Nodup)
    (hnumbers : Numbers number rows) :
    PrioritiesUnique rows ↔
      ∀ ownerId, (members rows ownerId).InjOn number := by
  constructor
  · intro hunique ownerId id hid otherId hother heq
    obtain ⟨row, hrow, rfl, howner⟩ := mem_members.mp hid
    obtain ⟨other, hotherRow, rfl, hotherOwner⟩ := mem_members.mp hother
    have hpair : (row.rule.ownerId, row.rule.priority) =
        (other.rule.ownerId, other.rule.priority) := by
      rw [howner, hotherOwner, hnumbers row hrow, hnumbers other hotherRow, heq]
    rw [List.inj_on_of_nodup_map hunique hrow hotherRow hpair]
  · intro hinj
    apply List.Nodup.map_on _ hids.of_map
    intro row hrow other hother hpair
    obtain ⟨howner, hpriority⟩ := Prod.mk.inj hpair
    rw [hnumbers row hrow, hnumbers other hother] at hpriority
    have hmember : row.id ∈ members rows row.rule.ownerId :=
      mem_members.mpr ⟨row, hrow, rfl, rfl⟩
    have hotherMember : other.id ∈ members rows row.rule.ownerId :=
      mem_members.mpr ⟨other, hother, rfl, howner.symm⟩
    have hid := hinj row.rule.ownerId hmember hotherMember hpriority
    exact List.inj_on_of_nodup_map hids hrow hother hid

omit [DecidableEq Id] in
/-- A rule has one owner. -/
theorem members_disjoint (hids : (rows.map StoredRule.id).Nodup) {id : Id}
    (hid : id ∈ members rows ownerId) (hother : id ∈ members rows otherId) :
    ownerId = otherId := by
  obtain ⟨row, hrow, rfl, howner⟩ := mem_members.mp hid
  obtain ⟨other, hotherRow, hsame, hotherOwner⟩ := mem_members.mp hother
  rw [List.inj_on_of_nodup_map hids hotherRow hrow hsame] at hotherOwner
  exact howner.symm.trans hotherOwner

theorem mem_ids_ownedBy {id : Id} :
    id ∈ (ownedBy rows ownerId).map StoredRule.id ↔
      id ∈ members rows ownerId := by
  rw [mem_members]
  constructor
  · intro hid
    obtain ⟨row, hrow, rfl⟩ := List.mem_map.mp hid
    have hfilter := List.mem_filter.mp hrow
    exact ⟨row, hfilter.1, rfl, by simpa using hfilter.2⟩
  · rintro ⟨row, hrow, rfl, howner⟩
    exact List.mem_map_of_mem (List.mem_filter.mpr ⟨hrow, by simpa using howner⟩)

end Rows

/-! ## What a request does -/

section Requests

variable {rows : List (StoredRule Id)} {lookups : Except Problem Unit}
  {ownerId : Id} {body : List Id} {step : ℤ} {mismatch : Text}
  {first second done : List (Id × ℤ)}

/-- The flushes of an accepted request. -/
def flushesFor (step : ℤ) (ruleIds : List Id) : Flushes Id where
  first := below ruleIds
  second := inSteps step ruleIds

/-- Only a list of the rules of the owner is accepted. -/
theorem reorderRules_cases (step : ℤ) (mismatch : Text)
    (rows : List (StoredRule Id)) (ownerId : Id) (body : List Id) :
    (body ≠ [] ∧ body.Nodup ∧
      body.toFinset = ((ownedBy rows ownerId).map StoredRule.id).toFinset ∧
      reorderRules step mismatch (.ok ()) rows ownerId body =
        .ok (flushesFor step body)) ∨
    ((body = [] ∨ ¬body.Nodup ∨
      body.toFinset ≠ ((ownedBy rows ownerId).map StoredRule.id).toFinset) ∧
      ∃ problem, problem.status = 422 ∧
        reorderRules step mismatch (.ok ()) rows ownerId body =
          .error problem) := by
  by_cases hschema : body = [] ∨ ¬body.Nodup
  · right
    have hrefused : validateRuleIds body = .error requestValidationFailed :=
      if_pos hschema
    refine ⟨by tauto, requestValidationFailed, rfl, ?_⟩
    rw [reorderRules, hrefused]
    rfl
  · have hvalid : validateRuleIds body = .ok body := if_neg hschema
    rw [not_or, not_not] at hschema
    by_cases hset : body.toFinset =
        ((ownedBy rows ownerId).map StoredRule.id).toFinset
    · left
      refine ⟨hschema.1, hschema.2, hset, ?_⟩
      rw [reorderRules, hvalid]
      change (if _ then _ else _) = _
      rw [if_neg (not_not.mpr hset)]
      rfl
    · right
      refine ⟨Or.inr (Or.inr hset), validationError mismatch, rfl, ?_⟩
      rw [reorderRules, hvalid]
      change (if _ then _ else _) = _
      rw [if_pos hset]

omit [DecidableEq Id] in
theorem RuleTable.reorder_eq [DecidableEq Id] (table : RuleTable) :
    ∃ mismatch, @RuleTable.reorder Id _ table = reorderRules 10 mismatch := by
  cases table with
  | severityRules => exact ⟨_, rfl⟩
  | severityPresetRules => exact ⟨_, rfl⟩

/-- The priorities of the other owners are not touched. -/
theorem prioritiesUnique_executed {number : Id → ℤ} {updates : List (Id × ℤ)}
    (hids : (rows.map StoredRule.id).Nodup) (hunique : PrioritiesUnique rows)
    (hnumbers : Numbers number rows)
    (hkeys : ∀ id ∈ updates.map Prod.fst, id ∈ members rows ownerId)
    (hinj : (members rows ownerId).InjOn (renumber number updates)) :
    PrioritiesUnique (executed rows updates) := by
  have hids' : ((executed rows updates).map StoredRule.id).Nodup := by
    rw [ids_executed]
    exact hids
  apply (prioritiesUnique_iff hids' (hnumbers.executed updates)).mpr
  intro otherId
  rw [members_executed]
  by_cases howner : otherId = ownerId
  · rw [howner]
    exact hinj
  · have hkept : ∀ id ∈ members rows otherId,
        renumber number updates id = number id := by
      intro id hid
      apply renumber_of_notMem
      intro hkey
      exact howner (members_disjoint hids hid (hkeys id hkey))
    intro id hid other hother heq
    rw [hkept id hid, hkept other hother] at heq
    exact (prioritiesUnique_iff hids hnumbers).mp hunique otherId hid hother heq

omit [DecidableEq Id] in
theorem keys_part (hbody : ∀ id ∈ body, id ∈ members rows ownerId)
    {pass : List (Id × ℤ)} (hpass : pass.map Prod.fst = body)
    (hperm : first.Perm pass) (hdone : done.Sublist first) :
    ∀ id ∈ done.map Prod.fst, id ∈ members rows ownerId := by
  intro id hid
  have hfirst : id ∈ first.map Prod.fst := (hdone.map _).subset hid
  rw [(hperm.map _).mem_iff, hpass] at hfirst
  exact hbody id hfirst

/-- The rows of a rule set which is about to be renumbered. -/
structure Reorderable (rows : List (StoredRule Id)) (ownerId : Id)
    (number : Id → ℤ) (body : List Id) : Prop where
  ids : (rows.map StoredRule.id).Nodup
  unique : PrioritiesUnique rows
  numbers : Numbers number rows
  nonneg : ∀ id ∈ members rows ownerId, 0 ≤ number id
  nodup : body.Nodup
  mem_iff : ∀ id, id ∈ body ↔ id ∈ members rows ownerId

variable {number : Id → ℤ}

theorem Reorderable.firstFlush (hready : Reorderable rows ownerId number body)
    (hfirst : first.Perm (below body)) (hdone : done.Sublist first) :
    PrioritiesUnique (executed rows done) := by
  have hpass : (below body).map Prod.fst = body :=
    keys_zipIdx fun index => -((index : ℤ) + 1)
  have hbody := fun id => (hready.mem_iff id).mp
  apply prioritiesUnique_executed hready.ids hready.unique hready.numbers
    (keys_part hbody hpass hfirst hdone)
  exact first_pass hready.nodup
    ((prioritiesUnique_iff hready.ids hready.numbers).mp hready.unique ownerId)
    hready.nonneg hfirst hdone

theorem Reorderable.second_injOn
    (hready : Reorderable rows ownerId number body) (hstep : 0 < step)
    (hfirst : first.Perm (below body)) (hsecond : second.Perm (inSteps step body))
    (hdone : done.Sublist second) :
    (members rows ownerId).InjOn (renumber (renumber number first) done) :=
  second_pass hready.nodup hstep (fun id => (hready.mem_iff id).mpr)
    ((prioritiesUnique_iff hready.ids hready.numbers).mp hready.unique ownerId)
    hready.nonneg hfirst hsecond hdone

theorem Reorderable.secondFlush (hready : Reorderable rows ownerId number body)
    (hstep : 0 < step) (hfirst : first.Perm (below body))
    (hsecond : second.Perm (inSteps step body)) (hdone : done.Sublist second) :
    PrioritiesUnique (executed (executed rows first) done) := by
  have hpass : (inSteps step body).map Prod.fst = body :=
    keys_zipIdx fun index => ((index : ℤ) + 1) * step
  have hids : ((executed rows first).map StoredRule.id).Nodup := by
    rw [ids_executed]
    exact hready.ids
  have hbody : ∀ id ∈ body, id ∈ members (executed rows first) ownerId := by
    intro id hid
    rw [members_executed]
    exact (hready.mem_iff id).mp hid
  apply prioritiesUnique_executed hids (hready.firstFlush hfirst (.refl first))
    (hready.numbers.executed first) (keys_part hbody hpass hsecond hdone)
  rw [members_executed]
  exact hready.second_injOn hstep hfirst hsecond hdone

/-- In the end the rules of the owner are in the order of the list. -/
theorem Reorderable.sorted (hready : Reorderable rows ownerId number body)
    (hstep : 0 < step) (hfirst : first.Perm (below body))
    (hsecond : second.Perm (inSteps step body)) {sorted : List (StoredRule Id)}
    (hsorted : sorted.Perm
      (ownedBy (executed (executed rows first) second) ownerId))
    (hascending : sorted.Pairwise fun row other =>
      row.rule.priority ≤ other.rule.priority) :
    sorted.map StoredRule.id = body := by
  have hnumbers := (hready.numbers.executed first).executed second
  have hinj := hready.second_injOn hstep hfirst hsecond (.refl second)
  have hmem : ∀ id, id ∈ (ownedBy (executed (executed rows first) second)
      ownerId).map StoredRule.id ↔ id ∈ body := by
    intro id
    rw [mem_ids_ownedBy, members_executed, members_executed, hready.mem_iff]
  have hnodup : ((ownedBy (executed (executed rows first) second)
      ownerId).map StoredRule.id).Nodup := by
    have hall : ((executed (executed rows first) second).map
        StoredRule.id).Nodup := by
      rw [ids_executed, ids_executed]
      exact hready.ids
    exact hall.sublist (List.filter_sublist.map _)
  have hperm : (sorted.map StoredRule.id).Perm body :=
    (hsorted.map _).trans
      ((List.perm_ext_iff_of_nodup hnodup hready.nodup).mpr hmem)
  have hrows : (sorted.map StoredRule.id).Pairwise fun id other =>
      renumber (renumber number first) second id ≤
        renumber (renumber number first) second other := by
    rw [List.pairwise_map]
    refine hascending.imp_of_mem ?_
    intro row other hrow hother hle
    have hstored : ∀ entry ∈ sorted, entry ∈
        executed (executed rows first) second :=
      fun entry hentry => List.mem_of_mem_filter (hsorted.mem_iff.mp hentry)
    rw [← hnumbers row (hstored row hrow), ← hnumbers other (hstored other hother)]
    exact hle
  have hlist : body.Pairwise fun id other =>
      renumber (renumber number first) second id ≤
        renumber (renumber number first) second other := by
    rw [List.pairwise_iff_getElem]
    intro index other hindex hother hlt
    rw [both_passes hready.nodup hsecond hindex,
      both_passes hready.nodup hsecond hother]
    have hcast : (index : ℤ) + 1 ≤ (other : ℤ) + 1 := by
      omega
    exact mul_le_mul_of_nonneg_right hcast hstep.le
  refine List.Perm.eq_of_pairwise ?_ hrows hlist hperm
  intro id other hid hother hle hge
  have hmember : ∀ entry ∈ body, entry ∈ members rows ownerId :=
    fun entry => (hready.mem_iff entry).mp
  exact hinj (hmember id (hperm.mem_iff.mp hid)) (hmember other hother)
    (le_antisymm hle hge)

end Requests

/-- Every permutation of the rules of an owner is carried out, in whatever order
the database executes the UPDATEs of a flush: no UPDATE meets the constraint,
and the rules end up in the order of the list.  Any other list is refused. -/
theorem rules_reordered {rows : List (StoredRule Id)}
    (hids : (rows.map StoredRule.id).Nodup) (hunique : PrioritiesUnique rows)
    (ownerId : Id)
    (hnonneg : ∀ row ∈ ownedBy rows ownerId, 0 ≤ row.rule.priority)
    (table : RuleTable) (body : List Id) :
    let rules := (ownedBy rows ownerId).map StoredRule.id
    let answer := table.reorder (.ok ()) rows ownerId body
    (body.Perm rules →
      (body ≠ [] → ∃ flushes, answer = .ok flushes) ∧
      ∀ first second, first.Perm (flushesOf answer).first →
        second.Perm (flushesOf answer).second →
        (∀ count, PrioritiesUnique (executed rows (first.take count))) ∧
        (∀ count, PrioritiesUnique
          (executed (executed rows first) (second.take count))) ∧
        ∀ sorted : List (StoredRule Id),
          sorted.Perm
            (ownedBy (executed (executed rows first) second) ownerId) →
          sorted.Pairwise (fun row other =>
            row.rule.priority ≤ other.rule.priority) →
          sorted.map StoredRule.id = body) ∧
    (¬body.Perm rules → ∃ problem, answer = .error problem ∧
      problem.status = 422 ∧ flushesOf answer = ⟨[], []⟩) := by
  intro rules answer
  obtain ⟨mismatch, htable⟩ := @RuleTable.reorder_eq Id _ table
  have hanswer : answer = reorderRules 10 mismatch (.ok ()) rows ownerId body :=
    congrFun (congrFun (congrFun (congrFun htable _) _) _) _
  have hrules : rules.Nodup := hids.sublist (List.filter_sublist.map _)
  constructor
  · intro hperm
    have hnodup : body.Nodup := hperm.nodup_iff.mpr hrules
    rcases reorderRules_cases 10 mismatch rows ownerId body with
      ⟨-, -, hset, haccepted⟩ | ⟨hrefuse, problem, hstatus, hrefused⟩
    · have hflushes : flushesOf answer = flushesFor 10 body := by
        rw [hanswer, haccepted]
        rfl
      obtain ⟨number, hnumbers⟩ := exists_numbers hids
      have hready : Reorderable rows ownerId number body := by
        refine ⟨hids, hunique, hnumbers, ?_, hnodup, ?_⟩
        · intro id hid
          obtain ⟨row, hrow, rfl, howner⟩ := mem_members.mp hid
          rw [← hnumbers row hrow]
          exact hnonneg row
            (List.mem_filter.mpr ⟨hrow, by simpa using howner⟩)
        · intro id
          rw [hperm.mem_iff, mem_ids_ownedBy]
      refine ⟨fun _ => ⟨_, hanswer.trans haccepted⟩, ?_⟩
      intro first second hfirst hsecond
      rw [hflushes] at hfirst hsecond
      refine ⟨?_, ?_, ?_⟩
      · exact fun count =>
          hready.firstFlush hfirst (List.take_sublist count first)
      · exact fun count => hready.secondFlush (by decide) hfirst hsecond
          (List.take_sublist count second)
      · exact fun sorted hsorted hascending =>
          hready.sorted (by decide) hfirst hsecond hsorted hascending
    · have hempty : body = [] := by
        rcases hrefuse with hempty | hrepeated | hset
        · exact hempty
        · exact absurd hnodup hrepeated
        · exact absurd (List.toFinset_eq_of_perm _ _ hperm) hset
      have hflushes : flushesOf answer = ⟨[], []⟩ := by
        rw [hanswer, hrefused]
        rfl
      refine ⟨fun hsome => absurd hempty hsome, ?_⟩
      intro first second hfirst hsecond
      rw [hflushes] at hfirst hsecond
      obtain rfl := List.perm_nil.mp hfirst
      obtain rfl := List.perm_nil.mp hsecond
      refine ⟨?_, ?_, ?_⟩
      · intro count
        rw [List.take_nil]
        exact hunique
      · intro count
        rw [List.take_nil]
        exact hunique
      · intro sorted hsorted _
        have hnone : sorted.map StoredRule.id = [] := by
          rw [← List.perm_nil, ← hempty]
          exact (hsorted.map _).trans hperm.symm
        rw [hnone, hempty]
  · intro hother
    rcases reorderRules_cases 10 mismatch rows ownerId body with
      ⟨-, hnodup, hset, -⟩ | ⟨-, problem, hstatus, hrefused⟩
    · exact absurd (List.perm_of_nodup_nodup_toFinset_eq hnodup hrules hset)
        hother
    · refine ⟨problem, hanswer.trans hrefused, hstatus, ?_⟩
      rw [hanswer, hrefused]
      rfl

end Handlers

def numberedRule (id ownerId : ℕ) (priority : ℤ) : StoredRule ℕ :=
  ⟨id, ⟨ownerId, priority, ['a'], true, .error, true⟩⟩

/-- Three rules of one receiver and one of another. -/
def fourRules : List (StoredRule ℕ) :=
  [numberedRule 1 7 0, numberedRule 2 7 10, numberedRule 3 7 20,
    numberedRule 4 8 10]

/-- The first rule becomes the last one, with the UPDATEs in reverse order; a
list which names it twice is refused. -/
theorem rules_reordered_last :
    (∃ flushes, reorderSeverityRules (.ok ()) fourRules 7 [2, 3, 1] =
        .ok flushes ∧
      PrioritiesUnique (executed fourRules (flushes.first.reverse.take 2)) ∧
      ((ownedBy (executed (executed fourRules flushes.first.reverse)
        flushes.second.reverse) 7).mergeSort fun row other =>
          row.rule.priority ≤ other.rule.priority).map StoredRule.id =
            [2, 3, 1]) ∧
    ∃ problem,
      reorderSeverityRules (.ok ()) fourRules 7 [2, 3, 1, 1] =
        .error problem ∧ problem.status = 422 := by
  have hids : (fourRules.map StoredRule.id).Nodup := by decide
  have hunique : PrioritiesUnique fourRules := by decide
  have hnonneg : ∀ row ∈ ownedBy fourRules 7, 0 ≤ row.rule.priority := by decide
  constructor
  · have haccepted := (rules_reordered hids hunique 7 hnonneg .severityRules
      [2, 3, 1]).1 (by decide)
    obtain ⟨flushes, hflushes⟩ := haccepted.1 (by decide)
    have hrun := haccepted.2 flushes.first.reverse flushes.second.reverse
    rw [hflushes] at hrun
    obtain ⟨hfirst, -, hsorted⟩ :=
      hrun (List.reverse_perm _) (List.reverse_perm _)
    refine ⟨flushes, hflushes, hfirst 2, hsorted _ (List.mergeSort_perm _ _) ?_⟩
    have hpairwise := @List.pairwise_mergeSort _
      (fun row other : StoredRule ℕ =>
        decide (row.rule.priority ≤ other.rule.priority)) ?_ ?_
      (ownedBy (executed (executed fourRules flushes.first.reverse)
        flushes.second.reverse) 7)
    · simpa using hpairwise
    · intro row other last hle hlast
      simp only [decide_eq_true_eq] at hle hlast ⊢
      exact hle.trans hlast
    · intro row other
      simp only [Bool.or_eq_true, decide_eq_true_eq]
      exact le_total _ _
  · obtain ⟨problem, hproblem, hstatus, -⟩ := (rules_reordered hids hunique 7
      hnonneg .severityRules [2, 3, 1, 1]).2 (by decide)
    exact ⟨problem, hproblem, hstatus⟩

end NotifyHub
