import NotifyHub.AuditedSessions
import Mathlib.Tactic

/-!
# What the audit reports

An event reports a field as it was before one flush and as it is after it.  This
is the field before and after the whole transaction exactly as long as no other
write of the transaction changes the field.
-/

namespace NotifyHub.Audit

variable {Id : Type}

/-- The value of a field, if there is the row. -/
def cell (database : Database Id) (key : Key Id) (column : Column) :
    Option Value :=
  (database key).map fun row => row column

/-- A field as events show it; of a missing row they show nothing. -/
def rendered (column : Column) : Option Value → Json
  | none => .null
  | some value => masked column value

/-- An event of the hook reports the change of a field. -/
def Write.Reports (ctx : AuditContext) (write : Write Id) (key : Key Id)
    (column : Column) (change : Change) : Prop :=
  ∃ pending ∈ write.pending, pending.key = key ∧
    ∃ event ∈ collect ctx pending, (column, change) ∈ event.changes

/-- What is reported holds of the transaction: the field was as reported before
it, is as reported after it, and has changed. -/
def Truthful (ctx : AuditContext) (first last : Database Id)
    (writes : List (Write Id)) : Prop :=
  ∀ write ∈ writes, ∀ key column change,
    write.Reports ctx key column change →
      change.before = rendered column (cell first key column) ∧
      change.after = rendered column (cell last key column) ∧
      (cell first key column).getD .null ≠ (cell last key column).getD .null

/-- The field looks the same in two states; a missing row is like NULL, except
for a masked field. -/
def Alike (first second : Database Id) (key : Key Id) (column : Column) :
    Prop :=
  rendered column (cell first key column) =
      rendered column (cell second key column) ∧
    (cell first key column).getD .null = (cell second key column).getD .null

def Write.Leaves (write : Write Id) (key : Key Id) (column : Column) : Prop :=
  Alike write.before write.after key column

/-- A field which is reported is changed by no other write. -/
def WrittenOnce (ctx : AuditContext) (writes : List (Write Id)) : Prop :=
  ∀ earlier write later, writes = earlier ++ write :: later →
    ∀ key column change, write.Reports ctx key column change →
      ∀ other ∈ earlier ++ later, other.Leaves key column

/-! ## One flush -/

theorem mem_changesForUpdate
    {model : Model} {spec : ResourceSpec} {before after : Row}
    {column : Column} {change : Change}
    (hmem : (column, change) ∈ changesForUpdate model spec before after) :
    before column ≠ after column ∧
      change =
        ⟨masked column (before column), masked column (after column)⟩ := by
  obtain ⟨found, -, hfound⟩ := List.mem_filterMap.mp hmem
  by_cases hsame : before found = after found
  · rw [if_pos hsame] at hfound
    cases hfound
  · rw [if_neg hsame] at hfound
    obtain ⟨rfl, rfl⟩ := Prod.mk.inj (Option.some.inj hfound)
    exact ⟨hsame, rfl⟩

theorem mem_changesForInsert
    {model : Model} {spec : ResourceSpec} {row : Row} {column : Column}
    {change : Change}
    (hmem : (column, change) ∈ changesForInsert model spec row) :
    row column ≠ .null ∧ change = ⟨.null, masked column (row column)⟩ := by
  obtain ⟨found, -, hfound⟩ := List.mem_filterMap.mp hmem
  by_cases hnull : row found = .null
  · rw [if_pos hnull] at hfound
    cases hfound
  · rw [if_neg hnull] at hfound
    obtain ⟨rfl, rfl⟩ := Prod.mk.inj (Option.some.inj hfound)
    exact ⟨hnull, rfl⟩

/-- The actions on a notification tell changes which there are. -/
theorem mem_notificationActions
    {changes : Changes} {action : Text} {column : Column} {change : Change}
    (hmem : (action, column, change) ∈ notificationActions changes) :
    (column, change) ∈ changes := by
  have hfound : ∀ (wanted : Column) (name : Change → Text),
      (action, column, change) ∈ columnAction changes wanted name →
        (column, change) ∈ changes := by
    intro wanted name hmem
    obtain ⟨entry, hentry, hequal⟩ := List.mem_map.mp hmem
    have hfind := Option.mem_toList.mp hentry
    have hwanted : entry.1 = wanted := by simpa using List.find?_some hfind
    obtain ⟨-, hcolumn, hchange⟩ : _ ∧ wanted = column ∧ entry.2 = change := by
      simpa using hequal
    rw [← hcolumn, ← hchange, ← hwanted]
    exact List.mem_of_find?_eq_some hfind
  rcases List.mem_append.mp hmem with hstatus | hverified
  · exact hfound _ _ hstatus
  · exact hfound _ _ hverified

/-- What the events of one object report. -/
theorem collect_change
    {ctx : AuditContext} {defaults : InsertDefaults}
    {before after : Database Id} {pending : Pending Id}
    {event : AuditEvent Id} {column : Column} {change : Change}
    (hdescribes : pending.Describes defaults before after)
    (hevent : event ∈ collect ctx pending)
    (hchange : (column, change) ∈ event.changes) :
    change.before = rendered column (cell before pending.key column) ∧
      change.after = rendered column (cell after pending.key column) ∧
      (cell before pending.key column).getD .null ≠
        (cell after pending.key column).getD .null := by
  cases pending with
  | created key row =>
      obtain ⟨hbefore, hafter⟩ := hdescribes
      simp only [collect] at hevent
      split at hevent
      · cases hevent
      · split at hevent
        · cases hevent
        · obtain rfl := List.mem_singleton.mp hevent
          obtain ⟨hvalue, rfl⟩ := mem_changesForInsert hchange
          have hkept := defaults.keeps key.model row column hvalue
          simp only [Pending.key, cell, hbefore, hafter, rendered,
            Option.map_none, Option.map_some, hkept, Option.getD_none,
            Option.getD_some, true_and]
          exact fun heq => hvalue heq.symm
  | updated key old new =>
      obtain ⟨hbefore, hafter⟩ := hdescribes
      have hchanged : ∀ spec,
          (column, change) ∈ changesForUpdate key.model spec old new →
            old column ≠ new column ∧ change =
              ⟨masked column (old column), masked column (new column)⟩ :=
        fun spec hmem => mem_changesForUpdate hmem
      have htold : ∃ spec,
          (column, change) ∈ changesForUpdate key.model spec old new := by
        simp only [collect] at hevent
        split at hevent
        · cases hevent
        next spec hspec =>
          refine ⟨spec, ?_⟩
          split at hevent
          · cases hevent
          · split at hevent
            · obtain ⟨⟨action, told, toldChange⟩, hmem, rfl⟩ :=
                List.mem_map.mp hevent
              obtain ⟨rfl, rfl⟩ :=
                Prod.mk.inj (List.mem_singleton.mp hchange)
              exact mem_notificationActions hmem
            · obtain rfl := List.mem_singleton.mp hevent
              exact hchange
      obtain ⟨spec, hspec⟩ := htold
      obtain ⟨hdiffer, rfl⟩ := hchanged spec hspec
      simp only [Pending.key, cell, hbefore, hafter, rendered,
        Option.map_some, Option.getD_some, true_and]
      exact hdiffer
  | deleted key row =>
      simp only [collect] at hevent
      split at hevent
      · cases hevent
      · split at hevent
        · obtain rfl := List.mem_singleton.mp hevent
          cases hchange
        · obtain rfl := List.mem_singleton.mp hevent
          cases hchange

/-- An event tells the truth about its own flush. -/
theorem Write.Reports.own
    {ctx : AuditContext} {defaults : InsertDefaults} {write : Write Id}
    {key : Key Id} {column : Column} {change : Change}
    (hfaithful : write.Faithful defaults)
    (hreports : write.Reports ctx key column change) :
    change.before = rendered column (cell write.before key column) ∧
      change.after = rendered column (cell write.after key column) ∧
      (cell write.before key column).getD .null ≠
        (cell write.after key column).getD .null := by
  obtain ⟨pending, hpending, rfl, event, hevent, hchange⟩ := hreports
  exact collect_change (hfaithful.describes pending hpending) hevent hchange

/-! ## The transaction -/

theorem Chain.alike
    {first last : Database Id} {writes : List (Write Id)} {key : Key Id}
    {column : Column} (hchain : Chain first writes last)
    (hleaves : ∀ write ∈ writes, write.Leaves key column) :
    Alike first last key column := by
  induction hchain with
  | nil => exact ⟨rfl, rfl⟩
  | cons write _ ih =>
      obtain ⟨hrendered, hvalue⟩ := hleaves write (by simp)
      obtain ⟨hrestRendered, hrestValue⟩ :=
        ih fun other hother => hleaves other (by simp [hother])
      exact ⟨hrendered.trans hrestRendered, hvalue.trans hrestValue⟩

variable [DecidableEq Id]

/-- In every transaction the events are true if no reported field is changed by
another write; and if two flushes report a field one after the other, they are
not, unless the values of the field before and after the transaction cannot be
told apart in an event. -/
theorem audit_truthful
    {ctx : AuditContext} {defaults : InsertDefaults}
    {operations : List (Operation Id)} {first : Database Id}
    {session : UnitOfWork Id}
    (hrun : runTransaction ctx defaults operations first = some session) :
    (WrittenOnce ctx session.writes →
      Truthful ctx first session.database session.writes) ∧
    ∀ earlier write between other later,
      session.writes = earlier ++ write :: (between ++ other :: later) →
      ∀ key column change next,
        write.Reports ctx key column change →
        other.Reports ctx key column next →
        (∀ quiet ∈ between, quiet.Leaves key column) →
        Truthful ctx first session.database session.writes →
          rendered column (cell first key column) =
            rendered column (cell session.database key column) := by
  have hsound := UnitOfWork.sound_of_runTransaction hrun
  constructor
  · intro honce write hwrite key column change hreports
    obtain ⟨earlier, later, hsplit⟩ := List.append_of_mem hwrite
    obtain ⟨hbefore, hafter, hdiffer⟩ :=
      hreports.own (hsound.faithful write hwrite)
    have hleaves := honce earlier write later hsplit key column change hreports
    have hchain := hsound.chain
    rw [hsplit] at hchain
    obtain ⟨hstart, hend⟩ := hchain.split
    obtain ⟨hstartRendered, hstartValue⟩ := hstart.alike fun other hother =>
      hleaves other (List.mem_append_left _ hother)
    obtain ⟨hendRendered, hendValue⟩ := hend.alike fun other hother =>
      hleaves other (List.mem_append_right _ hother)
    rw [hstartRendered, hstartValue, ← hendRendered, ← hendValue]
    exact ⟨hbefore, hafter, hdiffer⟩
  · intro earlier write between other later hsplit key column change next
      hreports hnext hquiet htruthful
    have hwrite : write ∈ session.writes := by simp [hsplit]
    have hother : other ∈ session.writes := by simp [hsplit]
    obtain ⟨-, hafter, -⟩ := hreports.own (hsound.faithful write hwrite)
    obtain ⟨hbefore, -, -⟩ := hnext.own (hsound.faithful other hother)
    have hchain := hsound.chain
    rw [hsplit] at hchain
    have hbetween := (hchain.split.2.split.1.alike hquiet).1
    obtain ⟨-, hlast, -⟩ := htruthful write hwrite key column change hreports
    obtain ⟨hfirst, -, -⟩ := htruthful other hother key column next hnext
    calc rendered column (cell first key column)
        = next.before := hfirst.symm
      _ = rendered column (cell other.before key column) := hbefore
      _ = rendered column (cell write.after key column) := hbetween.symm
      _ = change.after := hafter.symm
      _ = rendered column (cell session.database key column) := hlast

/-! ## Reordering rules -/

def priorityColumn : Column := "priority".toList

/-- `PRIORITY_STEP`. -/
def priorityStep : ℤ := 10

omit [DecidableEq Id] in
/-- The two passes of a reorder, the first one over negative priorities. -/
def reorderRules (model : Model) (ruleIds : List Id) : List (Operation Id) :=
  (ruleIds.mapIdx fun index id =>
    .assign ⟨model, id⟩ priorityColumn (.int (-(index + 1)))) ++
  .flush :: (ruleIds.mapIdx fun index id =>
    .assign ⟨model, id⟩ priorityColumn (.int ((index + 1) * priorityStep))) ++
  [.flush]

omit [DecidableEq Id] in
/-- `reorder_severity_rules`, behind its checks. -/
def reorderSeverityRules (ruleIds : List Id) : List (Operation Id) :=
  reorderRules .severityRule ruleIds

omit [DecidableEq Id] in
/-- `reorder_preset_rules`, behind its checks. -/
def reorderPresetRules (ruleIds : List Id) : List (Operation Id) :=
  reorderRules .severityPresetRule ruleIds

instance (ctx : AuditContext) (write : Write Id) (key : Key Id)
    (column : Column) (change : Change) :
    Decidable (write.Reports ctx key column change) :=
  inferInstanceAs (Decidable (∃ pending ∈ write.pending, _ ∧ _))

def admin : AuditContext :=
  ⟨"t".toList, "u".toList, "a@b".toList, .admin, none, none, none⟩

def noDefaults : InsertDefaults := ⟨fun _ row => row, fun _ _ _ _ => rfl⟩

/-- One rule with the priority 10. -/
def oneRule : Database ℕ := fun key =>
  if key = ⟨.severityRule, 5⟩ then
    some fun column =>
      if column = priorityColumn then .int 10
      else if column = "tenant_id".toList then .uuid "t".toList
      else .text ['a']
  else none

theorem audit_truthful_patch :
    ∃ session : UnitOfWork ℕ,
      runTransaction admin noDefaults
        [.assign ⟨.severityRule, 5⟩ priorityColumn (.int 20)] oneRule =
          some session ∧
      (∃ write ∈ session.writes, write.Reports admin ⟨.severityRule, 5⟩
        priorityColumn ⟨.int 10, .int 20⟩) ∧
      Truthful admin oneRule session.database session.writes := by
  obtain ⟨session, hrun, write, hwrites, hreports⟩ :
      ∃ session : UnitOfWork ℕ,
        runTransaction admin noDefaults
          [.assign ⟨.severityRule, 5⟩ priorityColumn (.int 20)] oneRule =
            some session ∧
        ∃ write, session.writes = [write] ∧
          write.Reports admin ⟨.severityRule, 5⟩ priorityColumn
            ⟨.int 10, .int 20⟩ :=
    ⟨_, rfl, _, rfl, by decide +kernel⟩
  refine ⟨session, hrun, ⟨write, by simp [hwrites], hreports⟩,
    (audit_truthful hrun).1 ?_⟩
  intro earlier other later hsplit key column change _ quiet hquiet
  rw [hwrites] at hsplit
  have hlength := congrArg List.length hsplit
  simp only [List.length_append, List.length_cons, List.length_nil] at hlength
  have hearlier := List.length_eq_zero_iff.mp
    (show earlier.length = 0 by omega)
  have hlater := List.length_eq_zero_iff.mp (show later.length = 0 by omega)
  rw [hearlier, hlater] at hquiet
  cases hquiet

/-- A reorder which changes nothing reports two changes. -/
theorem reorder_untruthful :
    ∃ session : UnitOfWork ℕ,
      runTransaction admin noDefaults (reorderSeverityRules [5]) oneRule =
        some session ∧
      (∀ column, cell session.database ⟨.severityRule, 5⟩ column =
        cell oneRule ⟨.severityRule, 5⟩ column) ∧
      (∃ write ∈ session.writes, write.Reports admin ⟨.severityRule, 5⟩
        priorityColumn ⟨.int 10, .int (-1)⟩) ∧
      (∃ write ∈ session.writes, write.Reports admin ⟨.severityRule, 5⟩
        priorityColumn ⟨.int (-1), .int 10⟩) ∧
      ¬Truthful admin oneRule session.database session.writes := by
  obtain ⟨session, hrun, hlast, hdown, hup⟩ :
      ∃ session : UnitOfWork ℕ,
        runTransaction admin noDefaults (reorderSeverityRules [5]) oneRule =
          some session ∧
        (∀ column, cell session.database ⟨.severityRule, 5⟩ column =
          some (if column = priorityColumn then .int 10
            else if column = "tenant_id".toList then .uuid "t".toList
            else .text ['a'])) ∧
        (∃ write ∈ session.writes, write.Reports admin ⟨.severityRule, 5⟩
          priorityColumn ⟨.int 10, .int (-1)⟩) ∧
        ∃ write ∈ session.writes, write.Reports admin ⟨.severityRule, 5⟩
          priorityColumn ⟨.int (-1), .int 10⟩ := by
    refine ⟨_, rfl, ?_, by decide +kernel, by decide +kernel⟩
    intro column
    by_cases hcolumn : column = priorityColumn
    · subst hcolumn
      rfl
    · change some (Function.update (Function.update _ priorityColumn _)
        priorityColumn _ column) = _
      rw [Function.update_of_ne hcolumn, Function.update_of_ne hcolumn]
  refine ⟨session, hrun, hlast, hdown, hup, ?_⟩
  intro htruthful
  obtain ⟨write, hwrite, hreports⟩ := hdown
  obtain ⟨-, -, hdiffer⟩ := htruthful write hwrite _ _ _ hreports
  rw [hlast] at hdiffer
  exact hdiffer rfl

end NotifyHub.Audit
