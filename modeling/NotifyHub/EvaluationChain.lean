import NotifyHub.RelationalTables
import NotifyHub.SeverityRules
import Mathlib.Tactic

/-!
# The evaluation chain of a receiver

The two SELECTs of `load_evaluation_chain` against the order in which the
rules are meant to be tried: the rules of the receiver by priority and id, then
its presets by position and in each preset the rules by priority and id.
-/

namespace NotifyHub

/-- A row of `severity_rules` with its tenant. -/
structure OwnRuleRow (Id : Type) where
  tenantId : Id
  rule : SeverityRule Id
  deriving DecidableEq

/-- A row of `receiver_severity_presets`. -/
structure AttachmentRow (Id : Type) where
  tenantId : Id
  receiverId : Id
  presetId : Id
  position : ℤ
  deriving DecidableEq

/-- The tables of the chain as the session of a tenant sees them; of a preset
only the name matters.  The laws are the two unique constraints of
`receiver_severity_presets`. -/
structure ChainDatabase (Id : Type) where
  severityRules : Table Id (OwnRuleRow Id)
  presets : Table Id Text
  presetRules : Table Id (SeverityRule Id)
  attachments : Table Id (AttachmentRow Id)
  uniquePreset : ∀ first ∈ attachments.ids, ∀ second ∈ attachments.ids,
    (attachments.row first).receiverId = (attachments.row second).receiverId →
    (attachments.row first).presetId = (attachments.row second).presetId →
      first = second
  uniquePosition : ∀ first ∈ attachments.ids, ∀ second ∈ attachments.ids,
    (attachments.row first).receiverId = (attachments.row second).receiverId →
    (attachments.row first).position = (attachments.row second).position →
      first = second

/-- An item of `GET /receivers/{receiver_id}/severity-chain`. -/
structure SeverityChainItem where
  position : ℕ
  ruleId : Text
  pattern : Text
  caseInsensitive : Bool
  severity : Severity
  origin : Text
  presetId : Option Text
  presetName : Option Text
  deriving DecidableEq

def EvaluableRule.chainItem (rule : EvaluableRule) (index : ℕ) :
    SeverityChainItem where
  position := index + 1
  ruleId := rule.id
  pattern := rule.pattern
  caseInsensitive := rule.caseInsensitive
  severity := rule.severity
  origin := if rule.presetId.isSome then "preset".toList else "receiver".toList
  presetId := rule.presetId
  presetName := rule.presetName

namespace ChainDatabase

variable {Id : Type} [LinearOrder Id]

/-! ## The queries -/

def ownRules (db : ChainDatabase Id) (tenantId receiverId : Id) :
    List (SelectedRule Id) :=
  (db.severityRules.fetch (fun _ row => row.rule.priority)
    (db.severityRules.select fun _ row =>
      row.rule.ownerId = receiverId && row.tenantId = tenantId &&
        row.rule.enabled)).map
    fun entry => ⟨entry.1, entry.2.rule, none⟩

/-- The rules of presets joined with the attachments of their presets. -/
def joined (db : ChainDatabase Id) :
    Table (Id ×ₗ Id) (AttachmentRow Id × SeverityRule Id) where
  ids :=
    ((db.presetRules.ids ×ˢ db.attachments.ids).filter fun pair =>
      (db.presetRules.row pair.1).ownerId =
          (db.attachments.row pair.2).presetId ∧
        (db.attachments.row pair.2).presetId ∈ db.presets.ids).map
      toLex.toEmbedding
  row key :=
    (db.attachments.row (ofLex key).2, db.presetRules.row (ofLex key).1)

def presetRulesOf (db : ChainDatabase Id) (tenantId receiverId : Id) :
    List (SelectedRule Id) :=
  (db.joined.fetch (fun _ row => toLex (row.1.position, row.2.priority))
    (db.joined.select fun _ row =>
      row.1.receiverId = receiverId && row.1.tenantId = tenantId &&
        row.2.enabled)).map
    fun entry =>
      ⟨(ofLex entry.1).1, entry.2.2,
        some (entry.2.1.presetId, db.presets.row entry.2.1.presetId)⟩

variable [ToString Id]

def loadEvaluationChain (db : ChainDatabase Id) (tenantId receiverId : Id) :
    List EvaluableRule :=
  NotifyHub.loadEvaluationChain (db.ownRules tenantId receiverId)
    (db.presetRulesOf tenantId receiverId)

/-- `get_severity_chain`, behind its checks. -/
def severityChain (db : ChainDatabase Id) (tenantId receiverId : Id) :
    List SeverityChainItem :=
  (db.loadEvaluationChain tenantId receiverId).mapIdx fun index rule =>
    rule.chainItem index

end ChainDatabase

/-! ## The order of reference -/

section Reference

variable {Id : Type} [LinearOrder Id]

/-- By priority, then by id. -/
def SelectedRule.Before (first second : SelectedRule Id) : Prop :=
  first.rule.priority < second.rule.priority ∨
    first.rule.priority = second.rule.priority ∧ first.id < second.id

omit [LinearOrder Id] in
/-- A preset of a receiver with its position. -/
def ChainDatabase.AttachedAt
    (db : ChainDatabase Id) (tenantId receiverId presetId : Id)
    (position : ℤ) : Prop :=
  ∃ id ∈ db.attachments.ids,
    db.attachments.row id = ⟨tenantId, receiverId, presetId, position⟩

/-- The enabled rules of the receiver and of its presets. -/
def ChainDatabase.Applies
    (db : ChainDatabase Id) (tenantId receiverId : Id)
    (entry : SelectedRule Id) : Prop :=
  entry.rule.enabled = true ∧
    match entry.preset with
    | none =>
        db.severityRules.find entry.id = some ⟨tenantId, entry.rule⟩ ∧
          entry.rule.ownerId = receiverId
    | some (presetId, presetName) =>
        db.presetRules.find entry.id = some entry.rule ∧
          entry.rule.ownerId = presetId ∧
          db.presets.find presetId = some presetName ∧
          ∃ position, db.AttachedAt tenantId receiverId presetId position

def ChainDatabase.Precedes
    (db : ChainDatabase Id) (tenantId receiverId : Id)
    (first second : SelectedRule Id) : Prop :=
  match first.preset, second.preset with
  | none, none => first.Before second
  | none, some _ => True
  | some _, none => False
  | some (firstPreset, _), some (secondPreset, _) =>
      (∃ earlier later, db.AttachedAt tenantId receiverId firstPreset earlier ∧
        db.AttachedAt tenantId receiverId secondPreset later ∧
          earlier < later) ∨
        firstPreset = secondPreset ∧ first.Before second

namespace ChainDatabase

variable {db : ChainDatabase Id} {tenantId receiverId : Id}

omit [LinearOrder Id] in
theorem attachedAt_unique
    {presetId : Id} {first second : ℤ}
    (hfirst : db.AttachedAt tenantId receiverId presetId first)
    (hsecond : db.AttachedAt tenantId receiverId presetId second) :
    first = second := by
  obtain ⟨id, hid, hrow⟩ := hfirst
  obtain ⟨other, hother, hotherRow⟩ := hsecond
  obtain rfl := db.uniquePreset id hid other hother
    (by rw [hrow, hotherRow]) (by rw [hrow, hotherRow])
  rw [hrow] at hotherRow
  exact congrArg AttachmentRow.position hotherRow

omit [LinearOrder Id] in
theorem preset_of_position
    {firstPreset secondPreset : Id} {position : ℤ}
    (hfirst : db.AttachedAt tenantId receiverId firstPreset position)
    (hsecond : db.AttachedAt tenantId receiverId secondPreset position) :
    firstPreset = secondPreset := by
  obtain ⟨id, hid, hrow⟩ := hfirst
  obtain ⟨other, hother, hotherRow⟩ := hsecond
  obtain rfl := db.uniquePosition id hid other hother
    (by rw [hrow, hotherRow]) (by rw [hrow, hotherRow])
  rw [hrow] at hotherRow
  exact congrArg AttachmentRow.presetId hotherRow

theorem mem_ownRules
    {entry : SelectedRule Id} :
    entry ∈ db.ownRules tenantId receiverId ↔
      entry.preset = none ∧ db.Applies tenantId receiverId entry := by
  constructor
  · intro hentry
    obtain ⟨⟨id, row⟩, hfetched, rfl⟩ := List.mem_map.mp hentry
    obtain ⟨hselected, hrow⟩ := Table.mem_fetch.mp hfetched
    obtain rfl : row = db.severityRules.row id := hrow
    obtain ⟨hid, hcondition⟩ := Table.mem_select.mp hselected
    simp only [Bool.and_eq_true, decide_eq_true_eq] at hcondition
    obtain ⟨⟨howner, htenant⟩, henabled⟩ := hcondition
    refine ⟨rfl, henabled, Table.find_eq_some.mpr ⟨hid, ?_⟩, howner⟩
    rw [← htenant]
  · rintro ⟨hpreset, henabled, happlies⟩
    obtain ⟨id, rule, preset⟩ := entry
    obtain rfl : preset = none := hpreset
    obtain ⟨hfind, howner⟩ := happlies
    obtain ⟨hid, hrow⟩ := Table.find_eq_some.mp hfind
    refine List.mem_map.mpr ⟨(id, ⟨tenantId, rule⟩), ?_, rfl⟩
    refine Table.mem_fetch.mpr ⟨Table.mem_select.mpr ⟨hid, ?_⟩, hrow.symm⟩
    rw [hrow]
    have howner : rule.ownerId = receiverId := howner
    have henabled : rule.enabled = true := henabled
    simp [howner, henabled]

theorem mem_joined_ids {key : Id ×ₗ Id} :
    key ∈ db.joined.ids ↔
      (ofLex key).1 ∈ db.presetRules.ids ∧
        (ofLex key).2 ∈ db.attachments.ids ∧
        (db.presetRules.row (ofLex key).1).ownerId =
          (db.attachments.row (ofLex key).2).presetId ∧
        (db.attachments.row (ofLex key).2).presetId ∈ db.presets.ids := by
  simp only [joined, Finset.mem_map, Finset.mem_filter, Finset.mem_product]
  constructor
  · rintro ⟨pair, ⟨⟨hrule, hattachment⟩, howner, hpreset⟩, rfl⟩
    exact ⟨hrule, hattachment, howner, hpreset⟩
  · rintro ⟨hrule, hattachment, howner, hpreset⟩
    exact ⟨ofLex key, ⟨⟨hrule, hattachment⟩, howner, hpreset⟩, rfl⟩

theorem mem_presetRulesOf
    {entry : SelectedRule Id} :
    entry ∈ db.presetRulesOf tenantId receiverId ↔
      entry.preset ≠ none ∧ db.Applies tenantId receiverId entry := by
  constructor
  · intro hentry
    obtain ⟨⟨key, row⟩, hfetched, rfl⟩ := List.mem_map.mp hentry
    obtain ⟨hselected, hrow⟩ := Table.mem_fetch.mp hfetched
    obtain rfl : row = db.joined.row key := hrow
    obtain ⟨hkey, hcondition⟩ := Table.mem_select.mp hselected
    obtain ⟨hrule, hattachment, howner, hpreset⟩ := mem_joined_ids.mp hkey
    simp only [Bool.and_eq_true, decide_eq_true_eq] at hcondition
    obtain ⟨⟨hreceiver, htenant⟩, henabled⟩ := hcondition
    refine ⟨nofun, henabled, Table.find_eq_some.mpr ⟨hrule, rfl⟩, howner,
      Table.find_eq_some.mpr ⟨hpreset, rfl⟩,
      (db.attachments.row (ofLex key).2).position, (ofLex key).2,
      hattachment, ?_⟩
    have hreceiver :
        (db.attachments.row (ofLex key).2).receiverId = receiverId := hreceiver
    have htenant :
        (db.attachments.row (ofLex key).2).tenantId = tenantId := htenant
    rw [← hreceiver, ← htenant]
    rfl
  · rintro ⟨hpreset, henabled, happlies⟩
    obtain ⟨id, rule, preset⟩ := entry
    obtain ⟨⟨presetId, presetName⟩, rfl⟩ := Option.ne_none_iff_exists'.mp hpreset
    obtain ⟨hfind, howner, hname, position, attachment, hattachment, hrow⟩ :=
      happlies
    obtain ⟨hid, hrule⟩ := Table.find_eq_some.mp hfind
    obtain ⟨hnamed, rfl⟩ := Table.find_eq_some.mp hname
    have hrule : db.presetRules.row id = rule := hrule
    have howner : rule.ownerId = presetId := howner
    have henabled : rule.enabled = true := henabled
    have hkey : toLex (id, attachment) ∈ db.joined.ids := by
      refine mem_joined_ids.mpr ⟨hid, hattachment, ?_⟩
      simp only [ofLex_toLex]
      rw [hrule, hrow]
      exact ⟨howner, hnamed⟩
    have hjoined : db.joined.row (toLex (id, attachment)) =
        (⟨tenantId, receiverId, presetId, position⟩, rule) := by
      simp only [joined, ofLex_toLex]
      rw [hrow, hrule]
    refine List.mem_map.mpr ⟨(toLex (id, attachment),
      ⟨tenantId, receiverId, presetId, position⟩, rule), ?_, rfl⟩
    refine Table.mem_fetch.mpr ⟨Table.mem_select.mpr ⟨hkey, ?_⟩,
      hjoined.symm⟩
    rw [hjoined]
    simp [henabled]

theorem ownRules_pairwise :
    (db.ownRules tenantId receiverId).Pairwise
      (db.Precedes tenantId receiverId) := by
  unfold ownRules
  rw [List.pairwise_map]
  refine (Table.fetch_pairwise _ _).imp ?_
  intro first second hlt
  rcases Prod.Lex.toLex_lt_toLex.mp hlt with hpriority | ⟨hpriority, hid⟩
  · exact .inl hpriority
  · exact .inr ⟨hpriority, hid⟩

/-- A joined row comes from an attachment of the receiver. -/
theorem attached_of_joined
    {key : Id ×ₗ Id} {row : AttachmentRow Id × SeverityRule Id}
    {order : Id ×ₗ Id → AttachmentRow Id × SeverityRule Id → ℤ ×ₗ ℤ}
    (hmem : (key, row) ∈ db.joined.fetch order
      (db.joined.select fun _ row =>
        row.1.receiverId = receiverId && row.1.tenantId = tenantId &&
          row.2.enabled)) :
    (ofLex key).2 ∈ db.attachments.ids ∧
      db.attachments.row (ofLex key).2 = row.1 ∧
      row.1.receiverId = receiverId ∧
      db.AttachedAt tenantId receiverId row.1.presetId row.1.position := by
  obtain ⟨hselected, hrow⟩ := Table.mem_fetch.mp hmem
  obtain rfl : row = db.joined.row key := hrow
  obtain ⟨hkey, hcondition⟩ := Table.mem_select.mp hselected
  obtain ⟨-, hattachment, -⟩ := mem_joined_ids.mp hkey
  simp only [Bool.and_eq_true, decide_eq_true_eq] at hcondition
  obtain ⟨⟨hreceiver, htenant⟩, -⟩ := hcondition
  refine ⟨hattachment, rfl, hreceiver, (ofLex key).2, hattachment, ?_⟩
  rw [← hreceiver, ← htenant]
  rfl

theorem presetRulesOf_pairwise :
    (db.presetRulesOf tenantId receiverId).Pairwise
      (db.Precedes tenantId receiverId) := by
  unfold presetRulesOf
  rw [List.pairwise_map]
  refine (Table.fetch_pairwise _ _).imp_of_mem ?_
  rintro ⟨firstKey, firstRow⟩ ⟨secondKey, secondRow⟩ hfirst hsecond hlt
  obtain ⟨hfirstId, hfirstRow, hfirstReceiver, hfirstAt⟩ :=
    attached_of_joined hfirst
  obtain ⟨hsecondId, hsecondRow, hsecondReceiver, hsecondAt⟩ :=
    attached_of_joined hsecond
  have hsame : firstRow.1.position = secondRow.1.position →
      firstRow.1.presetId = secondRow.1.presetId := fun hposition =>
    preset_of_position (hposition ▸ hfirstAt) hsecondAt
  rcases Prod.Lex.toLex_lt_toLex.mp hlt with horder | ⟨horder, hkey⟩
  · rcases Prod.Lex.toLex_lt_toLex.mp horder with
      hposition | ⟨hposition, hpriority⟩
    · exact .inl ⟨_, _, hfirstAt, hsecondAt, hposition⟩
    · exact .inr ⟨hsame hposition, .inl hpriority⟩
  · obtain ⟨hposition, hpriority⟩ := Prod.mk.inj (toLex.injective horder)
    refine .inr ⟨hsame hposition, .inr ⟨hpriority, ?_⟩⟩
    rcases Prod.Lex.lt_iff.mp hkey with hid | ⟨-, hattachment⟩
    · exact hid
    · have hequal : (ofLex firstKey).2 = (ofLex secondKey).2 := by
        apply db.uniquePosition _ hfirstId _ hsecondId
        · rw [hfirstRow, hsecondRow, hfirstReceiver, hsecondReceiver]
        · rw [hfirstRow, hsecondRow]
          exact hposition
      rw [hequal] at hattachment
      exact absurd hattachment (lt_irrefl _)

/-- The rules in the order in which they are meant to be tried. -/
def entries (db : ChainDatabase Id) (tenantId receiverId : Id) :
    List (SelectedRule Id) :=
  db.ownRules tenantId receiverId ++ db.presetRulesOf tenantId receiverId

theorem mem_entries {entry : SelectedRule Id} :
    entry ∈ db.entries tenantId receiverId ↔
      db.Applies tenantId receiverId entry := by
  rw [entries, List.mem_append, mem_ownRules, mem_presetRulesOf]
  by_cases hpreset : entry.preset = none
  · simp [hpreset]
  · simp [hpreset]

theorem entries_pairwise :
    (db.entries tenantId receiverId).Pairwise
      (db.Precedes tenantId receiverId) := by
  refine List.pairwise_append.mpr
    ⟨ownRules_pairwise, presetRulesOf_pairwise, ?_⟩
  intro first hfirst second hsecond
  have hown := (mem_ownRules.mp hfirst).1
  obtain ⟨preset, hpreset⟩ :=
    Option.ne_none_iff_exists'.mp (mem_presetRulesOf.mp hsecond).1
  rw [Precedes, hown, hpreset]
  trivial

theorem before_asymm
    {first second : SelectedRule Id} (hbefore : first.Before second) :
    ¬second.Before first := by
  intro hafter
  rcases hbefore with hlt | ⟨heq, hid⟩
  · rcases hafter with hgt | ⟨heq, -⟩
    · exact lt_asymm hlt hgt
    · exact hlt.ne heq.symm
  · rcases hafter with hgt | ⟨-, hafterId⟩
    · exact hgt.ne heq.symm
    · exact lt_asymm hid hafterId

theorem precedes_asymm
    {first second : SelectedRule Id}
    (hprecedes : db.Precedes tenantId receiverId first second) :
    ¬db.Precedes tenantId receiverId second first := by
  intro hfollows
  unfold Precedes at hprecedes hfollows
  cases hfirst : first.preset with
  | none =>
      cases hsecond : second.preset with
      | none =>
          rw [hfirst, hsecond] at hprecedes hfollows
          exact before_asymm hprecedes hfollows
      | some preset =>
          rw [hfirst, hsecond] at hfollows
          exact hfollows
  | some preset =>
      cases hsecond : second.preset with
      | none =>
          rw [hfirst, hsecond] at hprecedes
          exact hprecedes
      | some other =>
          rw [hfirst, hsecond] at hprecedes hfollows
          rcases hprecedes with ⟨i, j, hi, hj, hlt⟩ | ⟨hsame, hbefore⟩
          · rcases hfollows with ⟨k, l, hk, hl, hgt⟩ | ⟨hsame, -⟩
            · rw [attachedAt_unique hj hk, attachedAt_unique hi hl] at hlt
              exact lt_asymm hlt hgt
            · rw [hsame] at hj
              rw [attachedAt_unique hi hj] at hlt
              exact lt_irrefl _ hlt
          · rcases hfollows with ⟨k, l, hk, hl, hgt⟩ | ⟨-, hafter⟩
            · rw [← hsame] at hk
              rw [attachedAt_unique hk hl] at hgt
              exact lt_irrefl _ hgt
            · exact before_asymm hbefore hafter

/-- Every rule occurs once. -/
theorem entries_nodup : (db.entries tenantId receiverId).Nodup :=
  entries_pairwise.imp fun hprecedes heq => by
    subst heq
    exact precedes_asymm hprecedes hprecedes

end ChainDatabase

end Reference

/-! ## The order in which the rules are tried -/

theorem EvaluableRule.before_total (rule other : EvaluableRule) :
    rule.Before other ∨ other.Before rule := by
  unfold Before
  rcases lt_trichotomy rule.priority other.priority with hlt | heq | hgt
  · exact .inl (.inl hlt)
  · rcases le_total rule.id other.id with hle | hle
    · exact .inl (.inr ⟨heq, hle⟩)
    · exact .inr (.inr ⟨heq.symm, hle⟩)
  · exact .inr (.inl hgt)

theorem EvaluableRule.Before.trans
    {first second third : EvaluableRule} (hfirst : first.Before second)
    (hsecond : second.Before third) : first.Before third := by
  rcases hfirst with hlt | ⟨heq, hle⟩
  · rcases hsecond with hlt' | ⟨heq', -⟩
    · exact .inl (hlt.trans hlt')
    · exact .inl (heq' ▸ hlt)
  · rcases hsecond with hlt' | ⟨heq', hle'⟩
    · exact .inl (heq ▸ hlt')
    · exact .inr ⟨heq.trans heq', le_trans hle hle'⟩

instance : Std.Total EvaluableRule.Before := ⟨EvaluableRule.before_total⟩

instance : IsTrans EvaluableRule EvaluableRule.Before :=
  ⟨fun _ _ _ hfirst hsecond => hfirst.trans hsecond⟩

section Chain

variable {Id : Type} [ToString Id]

/-- The chain of a list of entries. -/
def chainOf (entries : List (SelectedRule Id)) : List EvaluableRule :=
  entries.mapIdx fun position entry => entry.evaluable position

/-- A rule of the chain has its position as priority. -/
theorem chainOf_priority
    {entries : List (SelectedRule Id)} {position : ℕ}
    (hposition : position < (chainOf entries).length) :
    (chainOf entries)[position].priority = position := by
  simp only [chainOf, List.getElem_mapIdx]
  rfl

/-- However the chain is permuted, it is tried in its own order. -/
theorem insertionSort_chainOf
    {entries : List (SelectedRule Id)} {rules : List EvaluableRule}
    (hperm : rules.Perm (chainOf entries)) :
    rules.insertionSort EvaluableRule.Before = chainOf entries := by
  have hsorted : (chainOf entries).Pairwise EvaluableRule.Before := by
    rw [List.pairwise_iff_getElem]
    intro first second hfirst hsecond hlt
    left
    rw [chainOf_priority, chainOf_priority]
    exact hlt
  have hpriority : ∀ rule other, rule ∈ chainOf entries →
      other ∈ chainOf entries → rule.priority = other.priority →
        rule = other := by
    intro rule other hrule hother hsame
    obtain ⟨first, hfirst, rfl⟩ := List.getElem_of_mem hrule
    obtain ⟨second, hsecond, rfl⟩ := List.getElem_of_mem hother
    rw [chainOf_priority, chainOf_priority] at hsame
    subst hsame
    rfl
  refine List.Perm.eq_of_pairwise ?_
    (List.pairwise_insertionSort EvaluableRule.Before rules) hsorted
    ((List.perm_insertionSort _ rules).trans hperm)
  intro rule other hrule hother hbefore hafter
  have hmem := hperm.mem_iff.mp ((List.mem_insertionSort _).mp hrule)
  apply hpriority rule other hmem hother
  rcases hbefore with hlt | ⟨heq, -⟩
  · rcases hafter with hgt | ⟨heq, -⟩
    · exact absurd hgt (lt_asymm hlt)
    · exact heq.symm
  · exact heq

/-! ## The rule which decides -/

/-- The pattern of the rule compiles and is found in the content. -/
def SeverityRule.Hits
    (re2 : Re2) (content : Text) (rule : SeverityRule Id) : Prop :=
  ∃ compiled,
    compilePattern re2 rule.pattern rule.caseInsensitive = .ok compiled ∧
      re2.search compiled content = true

/-- The pattern of the rule compiles and is not found in the content. -/
def SeverityRule.Misses
    (re2 : Re2) (content : Text) (rule : SeverityRule Id) : Prop :=
  ∃ compiled,
    compilePattern re2 rule.pattern rule.caseInsensitive = .ok compiled ∧
      re2.search compiled content = false

/-- The answer when the rule decides. -/
def SelectedRule.resolution
    (entry : SelectedRule Id) (facts : SeverityFacts) : SeverityResolution where
  severity := entry.rule.severity
  source := if entry.preset.isSome then .presetRule else .rule
  matchedRuleId := some (toString entry.id).toList
  matchedPattern := some entry.rule.pattern
  matchedPresetId := entry.preset.map fun preset => (toString preset.1).toList
  matchedPresetName := entry.preset.map Prod.snd
  durationExceeded := durationExceedsThreshold facts

theorem ruleResolution_evaluable
    (entry : SelectedRule Id) (position : ℕ) (facts : SeverityFacts) :
    ruleResolution facts (some (entry.evaluable position)) =
      entry.resolution facts := by
  simp only [ruleResolution, SelectedRule.evaluable,
    SelectedRule.resolution, Option.isSome_map]

variable {re2 : Re2} {content : Text}

/-- Rules which miss are passed over. -/
theorem firstMatch_append
    {before after : List EvaluableRule}
    (hmisses : ∀ rule ∈ before, ∃ compiled,
      compilePattern re2 rule.pattern rule.caseInsensitive = .ok compiled ∧
        re2.search compiled content = false) :
    firstMatch re2 content (before ++ after) =
      firstMatch re2 content after := by
  induction before with
  | nil => rfl
  | cons rule rest ih =>
      obtain ⟨compiled, hcompiled, hsearch⟩ := hmisses rule (by simp)
      have hrest := ih fun other hother => hmisses other (by simp [hother])
      rw [List.cons_append, firstMatch, hrest]
      split
      · rfl
      · simp only [hcompiled, hsearch]
        rfl

/-- The chain around one of its entries. -/
theorem chainOf_split
    {entries : List (SelectedRule Id)} {position : ℕ}
    (hposition : position < entries.length) :
    ∃ after, chainOf entries =
      (chainOf entries).take position ++
        entries[position].evaluable position :: after := by
  have hlength : position < (chainOf entries).length := by
    rwa [chainOf, List.length_mapIdx]
  refine ⟨(chainOf entries).drop (position + 1), ?_⟩
  conv_lhs => rw [← List.take_append_drop position (chainOf entries)]
  rw [List.drop_eq_getElem_cons hlength]
  simp only [chainOf, List.getElem_mapIdx]

/-- The rules before a position miss when the entries there do. -/
theorem take_chainOf_misses
    {entries : List (SelectedRule Id)} {position : ℕ}
    (hmisses : ∀ (earlier : ℕ) (hearlier : earlier < entries.length),
      earlier < position → entries[earlier].rule.Misses re2 content) :
    ∀ rule ∈ (chainOf entries).take position, ∃ compiled,
      compilePattern re2 rule.pattern rule.caseInsensitive = .ok compiled ∧
        re2.search compiled content = false := by
  intro rule hrule
  obtain ⟨earlier, hearlier, rfl⟩ := List.getElem_of_mem hrule
  rw [List.length_take, chainOf, List.length_mapIdx] at hearlier
  rw [List.getElem_take]
  simp only [chainOf, List.getElem_mapIdx]
  exact hmisses earlier (by omega) (by omega)

theorem firstMatch_chainOf_hit
    {entries : List (SelectedRule Id)} {position : ℕ}
    (hposition : position < entries.length)
    (hmisses : ∀ (earlier : ℕ) (hearlier : earlier < entries.length),
      earlier < position → entries[earlier].rule.Misses re2 content)
    (hhits : entries[position].rule.Hits re2 content) :
    firstMatch re2 content (chainOf entries) =
      .ok (some (entries[position].evaluable position)) := by
  obtain ⟨compiled, hcompiled, hsearch⟩ := hhits
  obtain ⟨after, hsplit⟩ := chainOf_split hposition
  rw [hsplit, firstMatch_append (take_chainOf_misses hmisses), firstMatch,
    if_neg (by simp [SelectedRule.evaluable])]
  have hcompiled : compilePattern re2
      (entries[position].evaluable position).pattern
      (entries[position].evaluable position).caseInsensitive =
        .ok compiled := hcompiled
  simp only [hcompiled, hsearch, if_true]

theorem firstMatch_chainOf_error
    {entries : List (SelectedRule Id)} {position : ℕ} {message : Text}
    (hposition : position < entries.length)
    (hmisses : ∀ (earlier : ℕ) (hearlier : earlier < entries.length),
      earlier < position → entries[earlier].rule.Misses re2 content)
    (herror : compilePattern re2 entries[position].rule.pattern
      entries[position].rule.caseInsensitive = .error message) :
    firstMatch re2 content (chainOf entries) =
      .error (.invalidPattern message) := by
  obtain ⟨after, hsplit⟩ := chainOf_split hposition
  rw [hsplit, firstMatch_append (take_chainOf_misses hmisses), firstMatch,
    if_neg (by simp [SelectedRule.evaluable])]
  have herror : compilePattern re2
      (entries[position].evaluable position).pattern
      (entries[position].evaluable position).caseInsensitive =
        .error message := herror
  simp only [herror]

theorem firstMatch_chainOf_none
    {entries : List (SelectedRule Id)}
    (hmisses : ∀ entry ∈ entries, entry.rule.Misses re2 content) :
    firstMatch re2 content (chainOf entries) = .ok none := by
  have hall : firstMatch re2 content (chainOf entries ++ []) = .ok none := by
    rw [firstMatch_append, firstMatch]
    intro rule hrule
    obtain ⟨position, hposition, rfl⟩ := List.mem_mapIdx.mp hrule
    exact hmisses _ (List.getElem_mem hposition)
  rwa [List.append_nil] at hall

/-- Nothing decides before the rules. -/
structure SeverityFacts.Undecided (facts : SeverityFacts) : Prop where
  header : parseExplicitSeverity facts.headerSeverity = none
  query : parseExplicitSeverity facts.querySeverity = none
  execution : executionOutcomes facts = .ok []

theorem resolveSeverity_undecided
    {facts : SeverityFacts} (hundecided : facts.Undecided)
    {entries : List (SelectedRule Id)} {rules : List EvaluableRule}
    (hperm : rules.Perm (chainOf entries)) :
    resolveSeverity re2 facts rules content =
      (firstMatch re2 content (chainOf entries)).map (ruleResolution facts) := by
  unfold resolveSeverity
  rw [hundecided.header, hundecided.query, hundecided.execution,
    insertionSort_chainOf hperm]
  rfl

/-! ## The chain of a database -/

namespace ChainDatabase

variable [LinearOrder Id] {db : ChainDatabase Id} {tenantId receiverId : Id}

/-- Every rule before this one misses. -/
def Reaches (db : ChainDatabase Id) (tenantId receiverId : Id) (re2 : Re2)
    (content : Text) (entry : SelectedRule Id) : Prop :=
  db.Applies tenantId receiverId entry ∧
    ∀ earlier, db.Applies tenantId receiverId earlier →
      db.Precedes tenantId receiverId earlier entry →
        earlier.rule.Misses re2 content

omit [ToString Id] in
theorem Reaches.position
    {entry : SelectedRule Id}
    (hreaches : db.Reaches tenantId receiverId re2 content entry) :
    ∃ (position : ℕ)
      (hposition : position < (db.entries tenantId receiverId).length),
      (db.entries tenantId receiverId)[position] = entry ∧
        ∀ (earlier : ℕ)
          (hearlier : earlier < (db.entries tenantId receiverId).length),
          earlier < position →
            (db.entries tenantId receiverId)[earlier].rule.Misses re2
              content := by
  obtain ⟨happlies, hmisses⟩ := hreaches
  obtain ⟨position, hposition, rfl⟩ :=
    List.getElem_of_mem (mem_entries.mpr happlies)
  refine ⟨position, hposition, rfl, ?_⟩
  intro earlier hearlier hlt
  apply hmisses
  · exact mem_entries.mp (List.getElem_mem hearlier)
  · exact List.pairwise_iff_getElem.mp entries_pairwise _ _ hearlier
      hposition hlt

theorem Reaches.hit
    {entry : SelectedRule Id}
    (hreaches : db.Reaches tenantId receiverId re2 content entry)
    (hhits : entry.rule.Hits re2 content) (facts : SeverityFacts) :
    (firstMatch re2 content
      (chainOf (db.entries tenantId receiverId))).map (ruleResolution facts) =
        .ok (entry.resolution facts) := by
  obtain ⟨position, hposition, rfl, hmisses⟩ := hreaches.position
  rw [firstMatch_chainOf_hit hposition hmisses hhits, Except.map,
    ruleResolution_evaluable]

theorem Reaches.error
    {entry : SelectedRule Id} {message : Text}
    (hreaches : db.Reaches tenantId receiverId re2 content entry)
    (herror : compilePattern re2 entry.rule.pattern
      entry.rule.caseInsensitive = .error message) (facts : SeverityFacts) :
    (firstMatch re2 content
      (chainOf (db.entries tenantId receiverId))).map (ruleResolution facts) =
        .error (.invalidPattern message) := by
  obtain ⟨position, hposition, rfl, hmisses⟩ := hreaches.position
  rw [firstMatch_chainOf_error hposition hmisses herror, Except.map]

/-- The severity chain shows every enabled rule once and in the order of
reference; whatever the order in which the chain is handed over, the first rule
there which matches decides, the default if none does, and a rule which does
not compile raises when it is reached. -/
theorem severityChain_decides
    (re2 : Re2) (db : ChainDatabase Id) (tenantId receiverId : Id)
    (facts : SeverityFacts) (content : Text)
    (hundecided : facts.Undecided) :
    (∃ entries : List (SelectedRule Id),
      db.severityChain tenantId receiverId =
        entries.mapIdx (fun index entry =>
          (entry.evaluable index).chainItem index) ∧
      entries.Nodup ∧
      (∀ entry, entry ∈ entries ↔ db.Applies tenantId receiverId entry) ∧
      entries.Pairwise (db.Precedes tenantId receiverId)) ∧
    ∀ rules : List EvaluableRule,
      rules.Perm (db.loadEvaluationChain tenantId receiverId) →
        resolveSeverity re2 facts rules content =
          resolveSeverity re2 facts
            (db.loadEvaluationChain tenantId receiverId) content ∧
        (∀ entry, db.Reaches tenantId receiverId re2 content entry →
          entry.rule.Hits re2 content →
            resolveSeverity re2 facts rules content =
              .ok (entry.resolution facts)) ∧
        ((∀ entry, db.Applies tenantId receiverId entry →
          entry.rule.Misses re2 content) →
            resolveSeverity re2 facts rules content =
              .ok (ruleResolution facts none)) ∧
        ∀ entry, db.Reaches tenantId receiverId re2 content entry →
          ∀ message, compilePattern re2 entry.rule.pattern
            entry.rule.caseInsensitive = .error message →
              resolveSeverity re2 facts rules content =
                .error (.invalidPattern message) := by
  refine ⟨⟨db.entries tenantId receiverId, ?_, entries_nodup,
    fun _ => mem_entries, entries_pairwise⟩, ?_⟩
  · apply List.ext_getElem
    · simp [severityChain, loadEvaluationChain,
        NotifyHub.loadEvaluationChain, entries]
    · intro index hleft hright
      simp [severityChain, loadEvaluationChain,
        NotifyHub.loadEvaluationChain, entries]
  · intro rules hperm
    have hload : db.loadEvaluationChain tenantId receiverId =
        chainOf (db.entries tenantId receiverId) := rfl
    rw [hload] at hperm ⊢
    rw [resolveSeverity_undecided hundecided hperm,
      resolveSeverity_undecided hundecided (List.Perm.refl _)]
    refine ⟨rfl, ?_, ?_, ?_⟩
    · intro entry hreaches hhits
      exact hreaches.hit hhits facts
    · intro hmisses
      rw [firstMatch_chainOf_none fun entry hentry =>
        hmisses entry (mem_entries.mp hentry)]
      rfl
    · intro entry hreaches message herror
      exact hreaches.error herror facts

end ChainDatabase

end Chain

/-! ## A rule of the receiver and a preset -/

/-- Receiver 1 has one rule and one preset with two rules, of which the one with
the lower id comes last. -/
def chainDatabase (own : SeverityRule ℕ) : ChainDatabase ℕ where
  severityRules := ⟨{5}, fun _ => ⟨1, own⟩⟩
  presets := ⟨{2}, fun _ => ['p']⟩
  presetRules := ⟨{3, 4}, fun id =>
    ⟨2, if id = 3 then 20 else 10, ['a'], false, .error, true⟩⟩
  attachments := ⟨{7}, fun _ => ⟨1, 1, 2, 0⟩⟩
  uniquePreset := by simp
  uniquePosition := by simp

def firstPresetRule : SelectedRule ℕ :=
  ⟨4, ⟨2, 10, ['a'], false, .error, true⟩, some (2, ['p'])⟩

theorem firstPresetRule_applies (own : SeverityRule ℕ) :
    (chainDatabase own).Applies 1 1 firstPresetRule :=
  ⟨rfl, rfl, rfl, rfl, 0, 7, Finset.mem_singleton_self 7, rfl⟩

theorem firstPresetRule_hits : firstPresetRule.rule.Hits smallRe2 ['a'] :=
  ⟨['a'], rfl, by decide⟩

/-- Only the rule of the receiver comes before. -/
theorem precedes_firstPresetRule
    {own : SeverityRule ℕ} {earlier : SelectedRule ℕ}
    (happlies : (chainDatabase own).Applies 1 1 earlier)
    (hprecedes : (chainDatabase own).Precedes 1 1 earlier firstPresetRule) :
    earlier.rule = own := by
  obtain ⟨id, rule, preset⟩ := earlier
  cases preset with
  | none =>
      obtain ⟨-, hfind, -⟩ := happlies
      obtain ⟨-, hrow⟩ := Table.find_eq_some.mp hfind
      exact (congrArg OwnRuleRow.rule hrow).symm
  | some preset =>
      obtain ⟨-, hfind, -⟩ := happlies
      obtain ⟨hid, hrow⟩ := Table.find_eq_some.mp hfind
      rcases hprecedes with
        ⟨first, second, ⟨_, -, hfirst⟩, ⟨_, -, hsecond⟩, hlt⟩ |
          ⟨-, hbefore⟩
      · have hfirst := congrArg AttachmentRow.position hfirst
        have hsecond := congrArg AttachmentRow.position hsecond
        simp only [chainDatabase] at hfirst hsecond
        omega
      · -- Neither rule of the preset comes before the one with priority 10.
        obtain rfl : (chainDatabase own).presetRules.row id = rule := hrow
        rcases Finset.mem_insert.mp hid with rfl | hid
        · rcases hbefore with hlt | ⟨heq, -⟩
          · simp [chainDatabase, firstPresetRule] at hlt
          · simp [chainDatabase, firstPresetRule] at heq
        · obtain rfl := Finset.mem_singleton.mp hid
          rcases hbefore with hlt | ⟨-, hlt⟩
          · simp [chainDatabase, firstPresetRule] at hlt
          · simp [firstPresetRule] at hlt

theorem severityChain_decides_preset :
    resolveSeverity smallRe2 quietFacts
      ((chainDatabase ⟨1, 10, ['b'], false, .info, true⟩).loadEvaluationChain
        1 1) ['a'] = .ok (firstPresetRule.resolution quietFacts) := by
  have hundecided : quietFacts.Undecided := ⟨rfl, rfl, rfl⟩
  have hdecides := (ChainDatabase.severityChain_decides smallRe2
    (chainDatabase ⟨1, 10, ['b'], false, .info, true⟩) 1 1 quietFacts ['a']
    hundecided).2 _ (List.Perm.refl _)
  apply hdecides.2.1 firstPresetRule _ firstPresetRule_hits
  refine ⟨firstPresetRule_applies _, ?_⟩
  intro earlier happlies hprecedes
  rw [precedes_firstPresetRule happlies hprecedes]
  exact ⟨['b'], rfl, by decide⟩

/-- A rule of the receiver which does not compile raises, although the first
rule which matches comes after it. -/
theorem uncompilable_rule_raises :
    quietFacts.Undecided ∧
      (chainDatabase mixedRule).Applies 1 1 firstPresetRule ∧
      firstPresetRule.rule.Hits smallRe2 ['a'] ∧
      (∀ earlier, (chainDatabase mixedRule).Applies 1 1 earlier →
        (chainDatabase mixedRule).Precedes 1 1 earlier firstPresetRule →
          ¬earlier.rule.Hits smallRe2 ['a']) ∧
      resolveSeverity smallRe2 quietFacts
        ((chainDatabase mixedRule).loadEvaluationChain 1 1) ['a'] =
          .error (.invalidPattern tooLarge) := by
  have hundecided : quietFacts.Undecided := ⟨rfl, rfl, rfl⟩
  have hnul : Char.ofNat 0 ∉ largePattern := by decide +kernel
  have herror : compilePattern smallRe2 mixedRule.pattern
      mixedRule.caseInsensitive = .error tooLarge := by
    simp [compilePattern, mixedRule, smallRe2, hnul]
  refine ⟨hundecided, firstPresetRule_applies _, firstPresetRule_hits, ?_, ?_⟩
  · intro earlier happlies hprecedes
    rw [precedes_firstPresetRule happlies hprecedes]
    rintro ⟨compiled, hcompiled, -⟩
    rw [herror] at hcompiled
    cases hcompiled
  · have hload : (chainDatabase mixedRule).loadEvaluationChain 1 1 =
        chainOf ((chainDatabase mixedRule).entries 1 1) := rfl
    rw [hload, resolveSeverity_undecided hundecided (List.Perm.refl _)]
    have hreaches : (chainDatabase mixedRule).Reaches 1 1 smallRe2 ['a']
        ⟨5, mixedRule, none⟩ := by
      refine ⟨⟨rfl, rfl, rfl⟩, ?_⟩
      rintro ⟨id, rule, preset⟩ happlies hprecedes
      cases preset with
      | none =>
          obtain ⟨-, hfind, -⟩ := happlies
          obtain ⟨hid, hrow⟩ := Table.find_eq_some.mp hfind
          obtain rfl := Finset.mem_singleton.mp hid
          obtain rfl : mixedRule = rule := congrArg OwnRuleRow.rule hrow
          exact absurd hprecedes (ChainDatabase.precedes_asymm hprecedes)
      | some preset => exact absurd hprecedes nofun
    exact hreaches.error herror quietFacts

end NotifyHub
