import NotifyHub.EvaluationChain
import NotifyHub.RowNumbering
import NotifyHub.RulePriorities
import Mathlib.Tactic

/-!
# The migration to distinct priorities

Revision 0008 gives the rules of every receiver the priorities 10, 20, 30, …
and then adds the unique constraint on `(receiver_id, priority)`.  Before it
the rules of a receiver were tried by priority, date of creation and id; the
chain which they make is the one loaded afterwards, by priority and id alone.
The renumbering goes over the rows of all tenants.
-/

namespace NotifyHub

variable {Id : Type} [LinearOrder Id]

abbrev RuleRows (Id : Type) := Table Id (OwnRuleRow Id)

namespace PriorityMigration

def receiverOf (row : OwnRuleRow Id) : Id := row.rule.ownerId

/-- `ORDER BY priority, created_at`, with the ids at the end. -/
def formerOrder (createdAt : Id → Instant) (id : Id) (row : OwnRuleRow Id) :
    ℤ ×ₗ Instant :=
  toLex (row.rule.priority, createdAt id)

def nuovaPriorita (createdAt : Id → Instant) (rules : RuleRows Id) (id : Id) :
    ℤ :=
  rules.rowNumber receiverOf (formerOrder createdAt) id * 10

def setPriority (row : OwnRuleRow Id) (priority : ℤ) :
    OwnRuleRow Id :=
  { row with rule := { row.rule with priority := priority } }

/-- The UPDATE; a number which does not fit the column is an error. -/
def renumber (createdAt : Id → Instant) (rules : RuleRows Id) :
    Option (RuleRows Id) :=
  if ∀ id ∈ rules.ids,
      (rules.row id).rule.priority ≠ nuovaPriorita createdAt rules id →
        FitsInt4 (nuovaPriorita createdAt rules id) then
    some
      { ids := rules.ids
        row := fun id =>
          if id ∈ rules.ids ∧
              (rules.row id).rule.priority ≠ nuovaPriorita createdAt rules id
          then
            setPriority (rules.row id)
              (nuovaPriorita createdAt rules id)
          else rules.row id }
  else none

/-- `uq_severity_rules_receiver_id_priority`. -/
def UniquePriorities (rules : RuleRows Id) : Prop :=
  ∀ first ∈ rules.ids, ∀ second ∈ rules.ids,
    (rules.row first).rule.ownerId = (rules.row second).rule.ownerId →
    (rules.row first).rule.priority = (rules.row second).rule.priority →
      first = second

instance (rules : RuleRows Id) : Decidable (UniquePriorities rules) :=
  inferInstanceAs (Decidable (∀ first ∈ rules.ids, _))

/-- The constraint is not created over rows which violate it. -/
def upgrade (createdAt : Id → Instant) (rules : RuleRows Id) :
    Option (RuleRows Id) :=
  (renumber createdAt rules).bind fun next =>
    if UniquePriorities next then some next else none

/-! ## The numbers -/

section Numbers

variable {createdAt : Id → Instant} {rules next : RuleRows Id}

theorem renumber_eq_some (hnext : renumber createdAt rules = some next) :
    next.ids = rules.ids ∧ ∀ id ∈ rules.ids,
      next.row id =
        setPriority (rules.row id) (nuovaPriorita createdAt rules id) := by
  unfold renumber at hnext
  split at hnext
  · obtain rfl := Option.some.inj hnext
    refine ⟨rfl, fun id hid => ?_⟩
    by_cases hsame : (rules.row id).rule.priority =
        nuovaPriorita createdAt rules id
    · simp only [hsame, ne_eq, not_true_eq_false, and_false, if_false]
      rw [← hsame]
      rfl
    · simp [hid, hsame]
  · contradiction

/-- Within a receiver the new priorities follow the former order. -/
theorem nuovaPriorita_lt
    {first second : Id} (hfirst : first ∈ rules.ids)
    (hsecond : second ∈ rules.ids)
    (howner : receiverOf (rules.row first) = receiverOf (rules.row second))
    (hbefore : rules.orderOf (formerOrder createdAt) first <
      rules.orderOf (formerOrder createdAt) second) :
    nuovaPriorita createdAt rules first <
      nuovaPriorita createdAt rules second := by
  have hlt := Table.rowNumber_lt hfirst hsecond howner hbefore
  unfold nuovaPriorita
  omega

theorem uniquePriorities_of_renumber
    (hnext : renumber createdAt rules = some next) :
    UniquePriorities next := by
  obtain ⟨hids, hrow⟩ := renumber_eq_some hnext
  intro first hfirst second hsecond howner hpriority
  rw [hids] at hfirst hsecond
  rw [hrow first hfirst, hrow second hsecond] at howner hpriority
  have howner : receiverOf (rules.row first) =
      receiverOf (rules.row second) := howner
  have hnumber : nuovaPriorita createdAt rules first =
      nuovaPriorita createdAt rules second := hpriority
  have hsame : rules.rowNumber receiverOf (formerOrder createdAt) first =
      rules.rowNumber receiverOf (formerOrder createdAt) second := by
    unfold nuovaPriorita at hnumber
    omega
  exact Table.rowNumber_inj hfirst hsecond howner hsame

theorem upgrade_eq_renumber :
    upgrade createdAt rules = renumber createdAt rules := by
  unfold upgrade
  cases hnext : renumber createdAt rules with
  | none => rfl
  | some next => simp [uniquePriorities_of_renumber hnext]

/-- The numbers fit the column as long as no receiver has too many rules. -/
theorem isSome_renumber_iff
    (hstored : ∀ id ∈ rules.ids, FitsInt4 (rules.row id).rule.priority) :
    (renumber createdAt rules).isSome = true ↔ ∀ id ∈ rules.ids,
      (rules.partOf receiverOf id).card * 10 ≤ int4Max := by
  have hall : (renumber createdAt rules).isSome = true ↔
      ∀ id ∈ rules.ids, FitsInt4 (nuovaPriorita createdAt rules id) := by
    unfold renumber
    split
    next hfits =>
      refine iff_of_true rfl fun id hid => ?_
      by_cases hsame : (rules.row id).rule.priority =
          nuovaPriorita createdAt rules id
      · exact hsame ▸ hstored id hid
      · exact hfits id hid hsame
    next hfails =>
      refine iff_of_false (by simp) fun hfits => hfails ?_
      exact fun id hid _ => hfits id hid
  rw [hall]
  constructor
  · intro hfits id hid
    obtain ⟨last, hlast, hnumber⟩ :=
      Table.exists_rowNumber receiverOf (formerOrder createdAt) hid
    have hmost := (hfits last (Table.mem_select.mp hlast).1).2
    rw [nuovaPriorita, hnumber] at hmost
    exact hmost
  · intro hfew id hid
    have hnumber :=
      Table.rowNumber_le receiverOf (formerOrder createdAt) hid
    have hmost := hfew id hid
    unfold FitsInt4 nuovaPriorita Ingestion.int32Min
    omega

end Numbers

/-! ## The chains -/

section Chains

def enabledRules (tenantId receiverId : Id) (_ : Id) (row : OwnRuleRow Id) :
    Bool :=
  row.rule.ownerId = receiverId && row.tenantId = tenantId && row.rule.enabled

/-- The rules of a receiver as they were tried before the revision. -/
def ownRulesFormerly
    (createdAt : Id → Instant) (db : ChainDatabase Id)
    (tenantId receiverId : Id) : List (SelectedRule Id) :=
  (db.severityRules.fetch (formerOrder createdAt)
    (db.severityRules.select (enabledRules tenantId receiverId))).map
    fun entry => ⟨entry.1, entry.2.rule, none⟩

def loadChainFormerly [ToString Id]
    (createdAt : Id → Instant) (db : ChainDatabase Id)
    (tenantId receiverId : Id) : List EvaluableRule :=
  NotifyHub.loadEvaluationChain
    (ownRulesFormerly createdAt db tenantId receiverId)
    (db.presetRulesOf tenantId receiverId)

variable {createdAt : Id → Instant} {rules next : RuleRows Id}

theorem select_enabledRules
    (hnext : renumber createdAt rules = some next)
    (tenantId receiverId : Id) :
    next.select (enabledRules tenantId receiverId) =
      rules.select (enabledRules tenantId receiverId) := by
  obtain ⟨hids, hrow⟩ := renumber_eq_some hnext
  ext id
  rw [Table.mem_select, Table.mem_select, hids]
  refine and_congr_right fun hid => ?_
  rw [hrow id hid]
  rfl

/-- Rows of one receiver come in the former order by any order which begins
with the new priorities. -/
theorem keys_eq
    (hnext : renumber createdAt rules = some next) {ids : Finset Id}
    {receiverId : Id}
    (hids : ∀ id ∈ ids, id ∈ rules.ids ∧
      receiverOf (rules.row id) = receiverId)
    {Key : Type} [LinearOrder Key] (order : Id → OwnRuleRow Id → Key)
    (horder : ∀ first second firstRow secondRow,
      firstRow.rule.priority < secondRow.rule.priority →
        order first firstRow < order second secondRow) :
    (rules.fetch (formerOrder createdAt) ids).map Prod.fst =
      (next.fetch order ids).map Prod.fst := by
  obtain ⟨-, hrow⟩ := renumber_eq_some hnext
  refine Table.keys_eq fun first hfirst second hsecond hbefore => ?_
  obtain ⟨hfirst, howner⟩ := hids first hfirst
  obtain ⟨hsecond, hother⟩ := hids second hsecond
  have hlt := nuovaPriorita_lt hfirst hsecond (howner.trans hother.symm) hbefore
  refine Prod.Lex.toLex_lt_toLex.mpr (.inl (horder _ _ _ _ ?_))
  rw [hrow first hfirst, hrow second hsecond]
  exact hlt

theorem map_fetch
    {Key : Type} [LinearOrder Key] (rules : RuleRows Id)
    (order : Id → OwnRuleRow Id → Key) (ids : Finset Id) :
    (rules.fetch order ids).map
        (fun entry => (⟨entry.1, entry.2.rule, none⟩ : SelectedRule Id)) =
      ((rules.fetch order ids).map Prod.fst).map fun id =>
        ⟨id, (rules.row id).rule, none⟩ := by
  rw [List.map_map]
  refine List.map_congr_left fun entry hentry => ?_
  rw [Function.comp_apply, ← (Table.mem_fetch.mp hentry).2]

theorem partOf_eq
    (hnext : renumber createdAt rules = some next) {id : Id}
    (hid : id ∈ rules.ids) :
    next.partOf receiverOf id = rules.partOf receiverOf id := by
  obtain ⟨hids, hrow⟩ := renumber_eq_some hnext
  have howner : ∀ id ∈ rules.ids,
      receiverOf (next.row id) = receiverOf (rules.row id) := by
    intro id hid
    rw [hrow id hid]
    rfl
  ext other
  rw [Table.partOf, Table.partOf, Table.mem_select, Table.mem_select, hids]
  refine and_congr_right fun hother => ?_
  rw [howner id hid, howner other hother]

/-- The numbering of numbered rows is the one they have. -/
theorem nuovaPriorita_again
    (hnext : renumber createdAt rules = some next) {id : Id}
    (hid : id ∈ rules.ids) :
    nuovaPriorita createdAt next id = nuovaPriorita createdAt rules id := by
  have hselected : ∀ other ∈ rules.partOf receiverOf id,
      other ∈ rules.ids ∧
        receiverOf (rules.row other) = receiverOf (rules.row id) := by
    intro other hother
    rw [Table.partOf, Table.mem_select, decide_eq_true_eq] at hother
    exact hother
  have hkeys := keys_eq hnext hselected (formerOrder createdAt) (by
    intro first second firstRow secondRow hlt
    exact Prod.Lex.toLex_lt_toLex.mpr (.inl hlt))
  rw [nuovaPriorita, nuovaPriorita, Table.rowNumber, Table.rowNumber,
    partOf_eq hnext hid, hkeys]

theorem renumber_again (hnext : renumber createdAt rules = some next) :
    renumber createdAt next = some next := by
  obtain ⟨hids, hrow⟩ := renumber_eq_some hnext
  have hnumber : ∀ id ∈ next.ids,
      (next.row id).rule.priority = nuovaPriorita createdAt next id := by
    intro id hid
    rw [hids] at hid
    rw [nuovaPriorita_again hnext hid, hrow id hid]
    rfl
  unfold renumber
  rw [if_pos fun id hid hdiffer => absurd (hnumber id hid) hdiffer]
  refine congrArg some (congrArg (Table.mk next.ids) (funext fun id => ?_))
  exact if_neg fun hchanged => hchanged.2 (hnumber id hchanged.1)

variable [ToString Id]

omit [LinearOrder Id] in
/-- The chain does not show the priorities of its rules. -/
theorem loadEvaluationChain_congr
    {ids : List Id} {rule other : Id → SeverityRule Id}
    (hsame : ∀ id ∈ ids, ∃ priority,
      other id = { rule id with priority := priority })
    (presets : List (SelectedRule Id)) :
    NotifyHub.loadEvaluationChain
        (ids.map fun id => ⟨id, other id, none⟩) presets =
      NotifyHub.loadEvaluationChain
        (ids.map fun id => ⟨id, rule id, none⟩) presets := by
  unfold NotifyHub.loadEvaluationChain
  rw [List.mapIdx_append, List.mapIdx_append, List.length_map,
    List.length_map]
  congr 1
  refine List.ext_getElem (by simp) fun index hindex _ => ?_
  have hplace : index < ids.length := by simpa using hindex
  obtain ⟨priority, hother⟩ := hsame ids[index] (List.getElem_mem hplace)
  simp [SelectedRule.evaluable, hother]

theorem loadEvaluationChain_eq
    {db : ChainDatabase Id}
    (hnext : renumber createdAt db.severityRules = some next)
    (tenantId receiverId : Id) :
    ({ db with severityRules := next } :
        ChainDatabase Id).loadEvaluationChain tenantId receiverId =
      loadChainFormerly createdAt db tenantId receiverId := by
  obtain ⟨hids, hrow⟩ := renumber_eq_some hnext
  have hselected : ∀ id ∈ db.severityRules.select
      (enabledRules tenantId receiverId),
      id ∈ db.severityRules.ids ∧
        receiverOf (db.severityRules.row id) = receiverId := by
    intro id hid
    rw [Table.mem_select] at hid
    simp only [enabledRules, Bool.and_eq_true, decide_eq_true_eq] at hid
    exact ⟨hid.1, hid.2.1.1⟩
  have hkeys := keys_eq hnext hselected (fun _ row => row.rule.priority)
    fun _ _ _ _ hlt => hlt
  have hown : ({ db with severityRules := next } :
      ChainDatabase Id).ownRules tenantId receiverId =
      ((db.severityRules.fetch (formerOrder createdAt)
        (db.severityRules.select
          (enabledRules tenantId receiverId))).map Prod.fst).map fun id =>
            ⟨id, (next.row id).rule, none⟩ := by
    rw [hkeys, ← map_fetch, ← select_enabledRules hnext]
    rfl
  rw [ChainDatabase.loadEvaluationChain, hown, loadChainFormerly,
    ownRulesFormerly, map_fetch]
  refine loadEvaluationChain_congr (fun id hid => ?_) _
  rw [Table.mem_keys] at hid
  refine ⟨nuovaPriorita createdAt db.severityRules id, ?_⟩
  rw [hrow id (hselected id hid).1]
  rfl

/-! ## The revision -/

/-- What the revision leaves: rules with the priorities 10, 20, 30, … of their
receivers, which are told apart by them, in chains as they were before; run
again it changes nothing. -/
structure Migrated
    (createdAt : Id → Instant) (db : ChainDatabase Id) (next : RuleRows Id) :
    Prop where
  ids : next.ids = db.severityRules.ids
  row : ∀ id ∈ next.ids, ∃ place : ℕ,
    1 ≤ place ∧ place ≤ (next.partOf receiverOf id).card ∧
      next.row id = setPriority (db.severityRules.row id) (place * 10)
  unique : UniquePriorities next
  chain : ∀ tenantId receiverId,
    ({ db with severityRules := next } :
        ChainDatabase Id).loadEvaluationChain tenantId receiverId =
      loadChainFormerly createdAt db tenantId receiverId
  again : upgrade createdAt next = some next

/-- The revision succeeds as long as the numbers of every receiver fit the
column. -/
theorem rules_migrated
    (createdAt : Id → Instant) (db : ChainDatabase Id)
    (hstored : ∀ id ∈ db.severityRules.ids,
      FitsInt4 (db.severityRules.row id).rule.priority) :
    ((upgrade createdAt db.severityRules).isSome = true ↔
      ∀ id ∈ db.severityRules.ids,
        (db.severityRules.partOf receiverOf id).card * 10 ≤ int4Max) ∧
    ∀ next ∈ upgrade createdAt db.severityRules,
      Migrated createdAt db next := by
  rw [upgrade_eq_renumber]
  refine ⟨isSome_renumber_iff hstored, fun next hnext => ?_⟩
  have hnext : renumber createdAt db.severityRules = some next := hnext
  obtain ⟨hids, hrow⟩ := renumber_eq_some hnext
  constructor
  · exact hids
  · intro id hid
    rw [hids] at hid
    refine ⟨_, Nat.le_add_left 1 _, ?_, hrow id hid⟩
    rw [partOf_eq hnext hid]
    exact Table.rowNumber_le receiverOf (formerOrder createdAt) hid
  · exact uniquePriorities_of_renumber hnext
  · exact loadEvaluationChain_eq hnext
  · rw [upgrade_eq_renumber]
    exact renumber_again hnext

end Chains

/-- Three rules of receiver 1, of which rules 1 and 2 have the same priority
and rule 2 is the older one. -/
def tiedRules : ChainDatabase ℕ :=
  { chainDatabase mixedRule with
    severityRules := ⟨{1, 2, 3}, fun id =>
      ⟨1, 1, if id = 3 then 1 else 5, ['a'], false, .error, true⟩⟩ }

def tiedCreatedAt (id : ℕ) : Instant := if id = 1 then 2000 else 1000

theorem rules_migrated_tiedRules :
    ∃ next, upgrade tiedCreatedAt tiedRules.severityRules = some next ∧
      (next.row 2).rule.priority < (next.row 1).rule.priority ∧
      Migrated tiedCreatedAt tiedRules next := by
  have hmigrated := rules_migrated tiedCreatedAt tiedRules (by decide)
  obtain ⟨next, hnext⟩ :=
    Option.isSome_iff_exists.mp (hmigrated.1.mpr (by decide))
  have hrenumber : renumber tiedCreatedAt tiedRules.severityRules =
      some next := by
    rw [← upgrade_eq_renumber]
    exact hnext
  obtain ⟨-, hrow⟩ := renumber_eq_some hrenumber
  have holder : nuovaPriorita tiedCreatedAt tiedRules.severityRules 2 <
      nuovaPriorita tiedCreatedAt tiedRules.severityRules 1 :=
    nuovaPriorita_lt (by decide) (by decide) rfl (by decide)
  refine ⟨next, hnext, ?_, hmigrated.2 next hnext⟩
  rw [hrow 1 (by decide), hrow 2 (by decide)]
  exact holder

end PriorityMigration

end NotifyHub
