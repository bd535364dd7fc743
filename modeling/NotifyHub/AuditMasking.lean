import NotifyHub.AuditCoverage
import Mathlib.Data.List.Forall2
import Mathlib.Tactic

/-!
# What the audit masks

Two sessions whose flushes differ in the values of masked fields only.  Their
events cannot be told apart by the changes; the one field which can differ is
the label of a notification, which is by design the beginning of its preview.
-/

namespace NotifyHub.Audit

variable {Id : Type}

/-! ## Flushes which differ in masked fields -/

/-- Rows which differ in masked fields only, with NULL in the same ones. -/
structure Row.Alike (first second : Row) : Prop where
  plain : ∀ column ∉ maskedFields, first column = second column
  null : ∀ column ∈ maskedFields,
    first column = .null ↔ second column = .null

/-- Objects which differ in masked fields only, with the same ones changed. -/
inductive Pending.Alike : Pending Id → Pending Id → Prop
  | created (key : Key Id) {first second : Row} (halike : first.Alike second) :
      Alike (.created key first) (.created key second)
  | updated (key : Key Id) {before after others next : Row}
      (hbefore : before.Alike others) (hafter : after.Alike next)
      (hchanged : ∀ column ∈ maskedFields,
        before column = after column ↔ others column = next column) :
      Alike (.updated key before after) (.updated key others next)
  | deleted (key : Key Id) {first second : Row} (halike : first.Alike second) :
      Alike (.deleted key first) (.deleted key second)

/-- What the hook has seen, flush by flush. -/
def UnitOfWork.flushes (session : UnitOfWork Id) : List (List (Pending Id)) :=
  session.writes.map Write.pending

def UnitOfWork.Alike (first second : UnitOfWork Id) : Prop :=
  List.Forall₂ (List.Forall₂ Pending.Alike) first.flushes second.flushes

/-- The events which the hook has recorded. -/
def UnitOfWork.hookEvents (ctx : AuditContext) (session : UnitOfWork Id) :
    List (AuditEvent Id) :=
  session.flushes.flatMap (pendingEvents ctx)

/-! ## Changes -/

theorem masked_of_mem
    {column : Column} (hmasked : column ∈ maskedFields) (value : Value) :
    masked column value = redacted :=
  if_pos hmasked

theorem Row.Alike.eq_null_iff
    {first second : Row} (halike : first.Alike second) (column : Column) :
    first column = .null ↔ second column = .null := by
  by_cases hmasked : column ∈ maskedFields
  · exact halike.null column hmasked
  · rw [halike.plain column hmasked]

theorem Row.Alike.masked_eq
    {first second : Row} (halike : first.Alike second) (column : Column) :
    masked column (first column) = masked column (second column) := by
  by_cases hmasked : column ∈ maskedFields
  · rw [masked_of_mem hmasked, masked_of_mem hmasked]
  · rw [halike.plain column hmasked]

theorem changesForInsert_eq
    {model : Model} {spec : ResourceSpec} {first second : Row}
    (halike : first.Alike second) :
    changesForInsert model spec first = changesForInsert model spec second := by
  apply List.filterMap_congr
  intro column _
  have hnull := halike.eq_null_iff column
  by_cases hfirst : first column = .null
  · rw [if_pos hfirst, if_pos (hnull.mp hfirst)]
  · rw [if_neg hfirst, if_neg (mt hnull.mpr hfirst), halike.masked_eq]

theorem changesForUpdate_eq
    {model : Model} {spec : ResourceSpec} {before after others next : Row}
    (hbefore : before.Alike others) (hafter : after.Alike next)
    (hchanged : ∀ column ∈ maskedFields,
      before column = after column ↔ others column = next column) :
    changesForUpdate model spec before after =
      changesForUpdate model spec others next := by
  apply List.filterMap_congr
  intro column _
  have hsame : before column = after column ↔ others column = next column := by
    by_cases hmasked : column ∈ maskedFields
    · exact hchanged column hmasked
    · rw [hbefore.plain column hmasked, hafter.plain column hmasked]
  by_cases hunchanged : before column = after column
  · rw [if_pos hunchanged, if_pos (hsame.mp hunchanged)]
  · rw [if_neg hunchanged, if_neg (mt hsame.mpr hunchanged), hbefore.masked_eq,
      hafter.masked_eq]

/-! ## Labels -/

/-- The label of anything but a notification is no masked field. -/
theorem labelAttr_not_masked
    {model : Model} {spec : ResourceSpec} {attr : Column}
    (hspec : model.spec = some spec) (hmodel : model ≠ .notification)
    (hattr : spec.labelAttr = some attr) : attr ∉ maskedFields := by
  have hlabel : model.spec.bind ResourceSpec.labelAttr = some attr := by
    rw [hspec, Option.bind_some, hattr]
  clear hspec hattr
  cases model <;>
    first
      | exact absurd rfl hmodel
      | (obtain rfl := Option.some.inj hlabel; decide)
      | cases hlabel

theorem labelFor_eq
    {model : Model} {spec : ResourceSpec} {first second : Row}
    (hspec : model.spec = some spec) (hmodel : model ≠ .notification)
    (halike : first.Alike second) :
    labelFor spec first = labelFor spec second := by
  rw [labelFor, labelFor]
  cases hattr : spec.labelAttr with
  | none => rfl
  | some attr =>
      rw [Option.bind_some, Option.bind_some,
        halike.plain attr (labelAttr_not_masked hspec hmodel hattr)]

theorem tenantOf_eq
    {ctx : AuditContext} {first second : Row} (halike : first.Alike second) :
    tenantOf ctx first = tenantOf ctx second := by
  rw [tenantOf, tenantOf, halike.plain _ (by decide)]

theorem plainEvent_eq
    {ctx : AuditContext} {spec : ResourceSpec} {key : Key Id}
    {first second : Row} {kind : String} {changes : Changes}
    (hspec : key.model.spec = some spec) (hmodel : key.model ≠ .notification)
    (halike : first.Alike second) :
    plainEvent ctx spec key first kind changes =
      plainEvent ctx spec key second kind changes := by
  rw [plainEvent, plainEvent, labelFor_eq hspec hmodel halike,
    tenantOf_eq halike]

/-! ## Events -/

/-- The actions which tell a change of a notification. -/
def readingActions : List Text :=
  [markedRead, markedUnread, markedVerified, markedUnverified]

/-- Events which can differ in the label of a notification only. -/
structure AuditEvent.AgreesUpToLabel (first second : AuditEvent Id) : Prop where
  changes : first.changes = second.changes
  others : { first with resourceLabel := none } =
    { second with resourceLabel := none }
  label : first.action ∉ readingActions →
    first.resourceLabel = second.resourceLabel

theorem AuditEvent.AgreesUpToLabel.refl (event : AuditEvent Id) :
    event.AgreesUpToLabel event :=
  ⟨rfl, rfl, fun _ => rfl⟩

/-- Updates of a notification whose previews begin with the same label. -/
def Pending.SameLabel : Pending Id → Pending Id → Prop
  | .updated key _ after, .updated _ _ next =>
      key.model = .notification → ∀ spec, key.model.spec = some spec →
        labelFor spec after = labelFor spec next
  | _, _ => True

def UnitOfWork.SameLabels (first second : UnitOfWork Id) : Prop :=
  List.Forall₂ (List.Forall₂ Pending.SameLabel) first.flushes second.flushes

/-- Only updates of a notification can be told apart. -/
theorem collect_eq_or
    {ctx : AuditContext} {first second : Pending Id}
    (halike : first.Alike second) :
    collect ctx first = collect ctx second ∨
      ∃ key before after others next,
        first = .updated key before after ∧
          second = .updated key others next ∧ key.model = .notification := by
  cases halike with
  | created key halike =>
      left
      simp only [collect]
      split
      · rfl
      next spec hspec =>
        split
        · rfl
        next hmodel =>
          rw [plainEvent_eq hspec hmodel halike, changesForInsert_eq halike]
  | updated key hbefore hafter hchanged =>
      by_cases hmodel : key.model = .notification
      · exact .inr ⟨key, _, _, _, _, rfl, rfl, hmodel⟩
      · left
        simp only [collect, if_neg hmodel]
        split
        · rfl
        next spec hspec =>
          rw [changesForUpdate_eq hbefore hafter hchanged,
            plainEvent_eq hspec hmodel hafter]
  | deleted key halike =>
      left
      simp only [collect]
      split
      · rfl
      next spec hspec =>
        split
        · rw [tenantOf_eq halike]
        next hmodel => rw [plainEvent_eq hspec hmodel halike]

theorem collect_agrees
    {ctx : AuditContext} {first second : Pending Id}
    (halike : first.Alike second) :
    List.Forall₂ AuditEvent.AgreesUpToLabel (collect ctx first)
      (collect ctx second) := by
  rcases collect_eq_or halike with hsame |
    ⟨key, before, after, others, next, rfl, rfl, hmodel⟩
  · rw [hsame]
    exact List.forall₂_same.mpr fun event _ => .refl event
  · cases halike with
    | updated _ hbefore hafter hchanged =>
        simp only [collect, if_pos hmodel,
          changesForUpdate_eq hbefore hafter hchanged]
        split
        · exact .nil
        · split
          · exact .nil
          · rw [List.forall₂_map_left_iff, List.forall₂_map_right_iff]
            refine List.forall₂_same.mpr fun told htold => ⟨rfl, ?_, ?_⟩
            · simp only [recordEvent, tenantOf_eq hafter]
            · exact fun hnot => absurd (notificationActions_action htold) hnot

theorem collect_eq_of_sameLabel
    {ctx : AuditContext} {first second : Pending Id}
    (halike : first.Alike second) (hlabel : first.SameLabel second) :
    collect ctx first = collect ctx second := by
  rcases collect_eq_or halike with hsame |
    ⟨key, before, after, others, next, rfl, rfl, hmodel⟩
  · exact hsame
  · cases halike with
    | updated _ hbefore hafter hchanged =>
        simp only [collect, if_pos hmodel,
          changesForUpdate_eq hbefore hafter hchanged]
        split
        · rfl
        next spec hspec =>
          rw [hlabel hmodel spec hspec, tenantOf_eq hafter]

/-! ## Sessions -/

theorem flatMap_eq_of_forall₂
    {α β : Type} {Alike Same : α → α → Prop} {first second : List α}
    {events : α → List β} (halike : List.Forall₂ Alike first second)
    (hsame : List.Forall₂ Same first second)
    (hevents : ∀ one other, Alike one other → Same one other →
      events one = events other) :
    first.flatMap events = second.flatMap events := by
  induction halike with
  | nil => rfl
  | cons hhead _ ih =>
      obtain _ | ⟨hheadSame, hrest⟩ := hsame
      rw [List.flatMap_cons, List.flatMap_cons, hevents _ _ hhead hheadSame,
        ih hrest]

theorem map_changes_eq
    {first second : List (AuditEvent Id)}
    (hagrees : List.Forall₂ AuditEvent.AgreesUpToLabel first second) :
    first.map AuditEvent.changes = second.map AuditEvent.changes := by
  induction hagrees with
  | nil => rfl
  | cons hhead _ ih => rw [List.map_cons, List.map_cons, hhead.changes, ih]

/-- For any two sessions whose flushes differ in the values of masked fields
only, the hook records the same changes, and the same events up to the labels
of the notifications whose reading or verification changes; where those begin
alike, the same events. -/
theorem masking_noninterference
    {ctx : AuditContext} {first second : UnitOfWork Id}
    (halike : first.Alike second) :
    (first.hookEvents ctx).map AuditEvent.changes =
      (second.hookEvents ctx).map AuditEvent.changes ∧
    List.Forall₂ AuditEvent.AgreesUpToLabel (first.hookEvents ctx)
      (second.hookEvents ctx) ∧
    (first.SameLabels second →
      first.hookEvents ctx = second.hookEvents ctx) := by
  have hagrees : List.Forall₂ AuditEvent.AgreesUpToLabel
      (first.hookEvents ctx) (second.hookEvents ctx) := by
    apply List.rel_flatMap halike
    intro flush other hpending
    apply List.rel_flatMap hpending
    intro one another hone
    exact collect_agrees hone
  refine ⟨map_changes_eq hagrees, hagrees, fun hlabels => ?_⟩
  apply flatMap_eq_of_forall₂ halike hlabels
  intro flush other hpending hsame
  apply flatMap_eq_of_forall₂ hpending hsame
  intro one another hone hlabel
  exact collect_eq_of_sameLabel hone hlabel

/-! ## One assignment -/

theorem Row.Alike.update
    {first second : Row} (halike : first.Alike second) (column : Column)
    {value other : Value}
    (hplain : column ∉ maskedFields → value = other)
    (hnull : value = .null ↔ other = .null) :
    Row.Alike (Function.update first column value)
      (Function.update second column other) where
  plain found hfound := by
    by_cases heq : found = column
    · subst heq
      rw [Function.update_self, Function.update_self, hplain hfound]
    · rw [Function.update_of_ne heq, Function.update_of_ne heq]
      exact halike.plain found hfound
  null found hfound := by
    by_cases heq : found = column
    · subst heq
      rw [Function.update_self, Function.update_self]
      exact hnull
    · rw [Function.update_of_ne heq, Function.update_of_ne heq]
      exact halike.null found hfound

theorem exists_run_assign
    [DecidableEq Id] {ctx : AuditContext} {defaults : InsertDefaults}
    {database : Database Id} {key : Key Id} {row : Row} (column : Column)
    (value : Value) (hrow : database key = some row) :
    ∃ session : UnitOfWork Id,
      runTransaction ctx defaults [.assign key column value] database =
        some session ∧
      session.flushes = [[.updated key row (Function.update row column value)]] := by
  refine ⟨((UnitOfWork.initial database).touch key
    (some (Function.update row column value))).flush defaults, ?_, ?_⟩
  · simp [runTransaction, runOperations, Operation.apply, UnitOfWork.initial,
      hrow]
  · simp [UnitOfWork.flushes, UnitOfWork.flush, UnitOfWork.write,
      UnitOfWork.initial, UnitOfWork.touch, UnitOfWork.pending,
      UnitOfWork.pendingOf, hrow]

def webhookColumn : Column := "webhook_url".toList

def previewColumn : Column := "content_preview".toList

/-- A row with a value in one masked field. -/
def rowWith (column : Column) (value : Value) : Row := fun other =>
  if other = column then value
  else if other = statusColumn then .enumeration "unread".toList
  else .null

theorem rowWith_alike
    {column : Column} {value other : Value} (hmasked : column ∈ maskedFields)
    (hvalue : value ≠ .null) (hother : other ≠ .null) :
    (rowWith column value).Alike (rowWith column other) where
  plain found hfound := by
    have hne : found ≠ column := fun heq => hfound (heq ▸ hmasked)
    simp only [rowWith, if_neg hne]
  null found _ := by
    by_cases heq : found = column
    · simp only [rowWith, if_pos heq, hvalue, hother]
    · simp only [rowWith, if_neg heq]

def oneRow (model : Model) (row : Row) : Database ℕ := fun key =>
  if key = ⟨model, 2⟩ then some row else none

/-- The address of a channel is changed. -/
def changeWebhook (before after : List UInt8) : Option (UnitOfWork ℕ) :=
  runTransaction admin noDefaults
    [.assign ⟨.deliveryChannel, 2⟩ webhookColumn (.bytes after)]
    (oneRow .deliveryChannel (rowWith webhookColumn (.bytes before)))

theorem masking_noninterference_webhook :
    ∃ first second : UnitOfWork ℕ,
      changeWebhook [1] [2] = some first ∧
      changeWebhook [3] [4, 5] = some second ∧
      (first.hookEvents admin).map AuditEvent.changes =
        [[(webhookColumn, ⟨redacted, redacted⟩)]] ∧
      first.hookEvents admin = second.hookEvents admin := by
  obtain ⟨first, hfirst, hfirstFlushes⟩ : ∃ session : UnitOfWork ℕ,
      changeWebhook [1] [2] = some session ∧ _ := exists_run_assign _ _ rfl
  obtain ⟨second, hsecond, hsecondFlushes⟩ : ∃ session : UnitOfWork ℕ,
      changeWebhook [3] [4, 5] = some session ∧ _ := exists_run_assign _ _ rfl
  have hrows : ∀ before after : List UInt8,
      (rowWith webhookColumn (.bytes before)).Alike
        (rowWith webhookColumn (.bytes after)) :=
    fun before after => rowWith_alike (by decide) nofun nofun
  have halike : first.Alike second := by
    rw [UnitOfWork.Alike, hfirstFlushes, hsecondFlushes]
    refine .cons (.cons (.updated _ (hrows _ _) ((hrows _ _).update _ ?_ ?_) ?_)
      .nil) .nil
    · exact fun hplain => absurd (by decide) hplain
    · exact iff_of_false nofun nofun
    · intro column _
      by_cases hcolumn : column = webhookColumn
      · subst hcolumn
        exact iff_of_false (by decide) (by decide)
      · rw [Function.update_of_ne hcolumn, Function.update_of_ne hcolumn]
        exact iff_of_true rfl rfl
  refine ⟨first, second, hfirst, hsecond, ?_, ?_⟩
  · rw [UnitOfWork.hookEvents, hfirstFlushes]
    decide +kernel
  · apply (masking_noninterference halike).2.2
    rw [UnitOfWork.SameLabels, hfirstFlushes, hsecondFlushes]
    exact .cons (.cons nofun .nil) .nil

/-- A notification is read. -/
def readNotification (preview : String) : Option (UnitOfWork ℕ) :=
  runTransaction admin noDefaults
    [.assign ⟨.notification, 2⟩ statusColumn (.enumeration "read".toList)]
    (oneRow .notification (rowWith previewColumn (.text preview.toList)))

/-- The event that a notification has been read tells its preview. -/
theorem label_tells_preview :
    ∃ first second : UnitOfWork ℕ,
      readNotification "disk full" = some first ∧
      readNotification "all good" = some second ∧
      first.Alike second ∧
      (first.hookEvents admin).map AuditEvent.resourceLabel =
        [some "disk full".toList] ∧
      (second.hookEvents admin).map AuditEvent.resourceLabel =
        [some "all good".toList] ∧
      first.hookEvents admin ≠ second.hookEvents admin := by
  obtain ⟨first, hfirst, hfirstFlushes⟩ : ∃ session : UnitOfWork ℕ,
      readNotification "disk full" = some session ∧ _ :=
    exists_run_assign _ _ rfl
  obtain ⟨second, hsecond, hsecondFlushes⟩ : ∃ session : UnitOfWork ℕ,
      readNotification "all good" = some session ∧ _ :=
    exists_run_assign _ _ rfl
  have hrows : ∀ before after : String,
      (rowWith previewColumn (.text before.toList)).Alike
        (rowWith previewColumn (.text after.toList)) :=
    fun before after => rowWith_alike (by decide) nofun nofun
  have halike : first.Alike second := by
    rw [UnitOfWork.Alike, hfirstFlushes, hsecondFlushes]
    refine .cons (.cons (.updated _ (hrows _ _) ((hrows _ _).update _ ?_ ?_) ?_)
      .nil) .nil
    · exact fun _ => rfl
    · exact Iff.rfl
    · intro column hmasked
      have hcolumn : column ≠ statusColumn := by
        rintro rfl
        exact absurd hmasked (by decide)
      rw [Function.update_of_ne hcolumn, Function.update_of_ne hcolumn]
      exact iff_of_true rfl rfl
  have hdisk : (first.hookEvents admin).map AuditEvent.resourceLabel =
      [some "disk full".toList] := by
    rw [UnitOfWork.hookEvents, hfirstFlushes]
    decide +kernel
  have hgood : (second.hookEvents admin).map AuditEvent.resourceLabel =
      [some "all good".toList] := by
    rw [UnitOfWork.hookEvents, hsecondFlushes]
    decide +kernel
  refine ⟨first, second, hfirst, hsecond, halike, hdisk, hgood, ?_⟩
  intro hsame
  rw [hsame, hgood] at hdisk
  exact absurd hdisk (by decide)

end NotifyHub.Audit
