import NotifyHub.DomainTypes
import Mathlib.Data.List.Sort
import Mathlib.Tactic

/-!
# Retention purges

`purge_notifications` and `purge_audit_events` visit the tenants one after
the other and delete the rows of each which are older than its retention.
The cutoff is computed without a guard: a retention which Python cannot
subtract from the current time ends the whole job.
-/

namespace NotifyHub

/-! ## Tenants -/

/-- The retention columns of `tenants`; NULL keeps everything. -/
structure Tenant (Id : Type*) where
  id : Id
  retentionDays : Option (IntField 1)
  auditRetentionDays : Option (IntField 1)

/-- The retention fields of PATCH, each absent or sent. -/
structure TenantUpdate where
  retentionDays : Option (Option (IntField 1))
  auditRetentionDays : Option (Option (IntField 1))

variable {Id : Type*}

/-- The column defaults. -/
def newTenant (id : Id) : Tenant Id where
  id := id
  retentionDays := some ⟨90, by decide⟩
  auditRetentionDays := some ⟨365, by decide⟩

def updateTenant (tenant : Tenant Id) (body : TenantUpdate) : Tenant Id :=
  { tenant with
    retentionDays := body.retentionDays.getD tenant.retentionDays
    auditRetentionDays :=
      body.auditRetentionDays.getD tenant.auditRetentionDays }

/-! ## One tenant -/

/-- A row of `notifications` or `audit_events`, with its `received_at` or
`occurred_at`. -/
structure DatedRow (Id : Type*) where
  id : ℕ
  tenantId : Id
  moment : Instant
  deriving DecidableEq

def purgeBatchSize : ℕ := 10000

/-- `datetime.now(UTC) - timedelta(days=retention_days)`. -/
def purgeCutoff (now : Datetime) (days : ℤ) : Option Instant :=
  (timedeltaDays days).bind fun retention => datetimeAdd now (-retention)

variable [DecidableEq Id]

def DatedRow.isExpired
    (row : DatedRow Id) (tenantId : Id) (cutoff : Instant) : Bool :=
  decide (row.tenantId = tenantId ∧ row.moment < cutoff)

/-- `ORDER BY received_at, id`. -/
def DatedRow.olderFirst (first second : DatedRow Id) : Prop :=
  first.moment < second.moment ∨
    first.moment = second.moment ∧ first.id ≤ second.id

instance (first second : DatedRow Id) :
    Decidable (first.olderFirst second) :=
  inferInstanceAs (Decidable (_ ∨ _))

/-- The ids which a batch selects; `locked` rows are skipped. -/
def oldestIds
    (batchSize : ℕ) (locked : DatedRow Id → Bool) (tenantId : Id)
    (cutoff : Instant) (table : List (DatedRow Id)) : List ℕ :=
  ((((table.filter fun row =>
    row.isExpired tenantId cutoff && !locked row).insertionSort
      DatedRow.olderFirst).take batchSize).map DatedRow.id)

/-- The batches of one tenant, until one is short. -/
def purgeTenant
    (batchSize : ℕ) (locked : DatedRow Id → Bool) (tenantId : Id)
    (cutoff : Instant) : ℕ → List (DatedRow Id) → List (DatedRow Id)
  | 0, table => table
  | fuel + 1, table =>
      let ids := oldestIds batchSize locked tenantId cutoff table
      let remaining := table.filter fun row => !ids.contains row.id
      if ids.length < batchSize then remaining
      else purgeTenant batchSize locked tenantId cutoff fuel remaining

/-! ## The jobs -/

/-- The table after a job, the tenants whose rows it has purged, and whether
an exception has ended it. -/
structure PurgeRun (Id : Type*) where
  table : List (DatedRow Id)
  visited : List Id
  raised : Bool
  deriving DecidableEq

/-- The loop over the tenants and their retentions.  A batch deletes at least
one row if it is full, so the length of the table bounds the batches. -/
def purge
    (batchSize : ℕ) (locked : DatedRow Id → Bool) (clock : Id → Datetime) :
    List (Id × IntField 1) → List (DatedRow Id) → PurgeRun Id
  | [], table => ⟨table, [], false⟩
  | (tenantId, days) :: rest, table =>
      match purgeCutoff (clock tenantId) days with
      | none => ⟨table, [], true⟩
      | some cutoff =>
          let result := purge batchSize locked clock rest
            (purgeTenant batchSize locked tenantId cutoff (table.length + 1)
              table)
          { result with visited := tenantId :: result.visited }

/-- The tenants whose retention is not NULL. -/
def retentions
    (column : Tenant Id → Option (IntField 1)) (tenants : List (Tenant Id)) :
    List (Id × IntField 1) :=
  tenants.filterMap fun tenant => (column tenant).map (tenant.id, ·)

def purgeNotifications
    (locked : DatedRow Id → Bool) (clock : Id → Datetime)
    (tenants : List (Tenant Id)) (notifications : List (DatedRow Id)) :
    PurgeRun Id :=
  purge purgeBatchSize locked clock
    (retentions Tenant.retentionDays tenants) notifications

/-- The DELETE waits for a locked row. -/
def purgeAuditEvents
    (clock : Id → Datetime) (tenants : List (Tenant Id))
    (auditEvents : List (DatedRow Id)) : PurgeRun Id :=
  purge purgeBatchSize (fun _ => false) clock
    (retentions Tenant.auditRetentionDays tenants) auditEvents

/-! ## What the batches delete -/

section Batches

variable {batchSize : ℕ} {locked : DatedRow Id → Bool} {tenantId : Id}
variable {cutoff : Instant} {table : List (DatedRow Id)}

theorem oldestIds_of_short
    (hshort : (oldestIds batchSize locked tenantId cutoff table).length <
      batchSize)
    {row : DatedRow Id} (hmem : row ∈ table)
    (hexpired : row.isExpired tenantId cutoff = true)
    (hfree : locked row = false) :
    row.id ∈ oldestIds batchSize locked tenantId cutoff table := by
  unfold oldestIds at hshort ⊢
  rw [List.length_map, List.length_take] at hshort
  rw [List.take_of_length_le (by omega)]
  refine List.mem_map_of_mem ?_
  rw [List.mem_insertionSort, List.mem_filter]
  exact ⟨hmem, by simp [hexpired, hfree]⟩

theorem exists_mem_of_oldestIds
    {id : ℕ} (hid : id ∈ oldestIds batchSize locked tenantId cutoff table) :
    ∃ row ∈ table, row.id = id := by
  obtain ⟨row, hrow, rfl⟩ := List.mem_map.mp hid
  have hsorted := List.mem_of_mem_take hrow
  rw [List.mem_insertionSort, List.mem_filter] at hsorted
  exact ⟨row, hsorted.1, rfl⟩

/-- A full batch shortens the table. -/
theorem length_lt_of_full
    (hpositive : 0 < batchSize)
    (hfull : ¬(oldestIds batchSize locked tenantId cutoff table).length <
      batchSize) :
    (table.filter fun row =>
      !(oldestIds batchSize locked tenantId cutoff table).contains
        row.id).length < table.length := by
  obtain ⟨id, hid⟩ := List.exists_mem_of_length_pos
    (show 0 < (oldestIds batchSize locked tenantId cutoff table).length by
      omega)
  obtain ⟨row, hrow, rfl⟩ := exists_mem_of_oldestIds hid
  refine List.length_filter_lt_length_iff_exists.mpr ⟨row, hrow, ?_⟩
  simpa using hid

theorem mem_of_mem_purgeTenant
    {fuel : ℕ} {row : DatedRow Id}
    (hrow : row ∈ purgeTenant batchSize locked tenantId cutoff fuel table) :
    row ∈ table := by
  induction fuel generalizing table with
  | zero => exact hrow
  | succ fuel ih =>
      unfold purgeTenant at hrow
      simp only at hrow
      split at hrow
      · exact List.mem_of_mem_filter hrow
      · exact List.mem_of_mem_filter (ih hrow)

/-- The batches leave no expired row of the tenant which is not locked. -/
theorem purgeTenant_complete
    (hpositive : 0 < batchSize) {fuel : ℕ} (hfuel : table.length < fuel)
    {row : DatedRow Id}
    (hrow : row ∈ purgeTenant batchSize locked tenantId cutoff fuel table)
    (hexpired : row.isExpired tenantId cutoff = true) :
    locked row = true := by
  induction fuel generalizing table with
  | zero => omega
  | succ fuel ih =>
      unfold purgeTenant at hrow
      simp only at hrow
      split at hrow
      · next hshort =>
        obtain ⟨hmem, hkept⟩ := List.mem_filter.mp hrow
        by_contra hfree
        have hselected := oldestIds_of_short hshort hmem hexpired
          (Bool.eq_false_iff.mpr hfree)
        simp [hselected] at hkept
      · next hfull =>
        have hless := length_lt_of_full hpositive hfull
        exact ih (by omega) hrow

end Batches

/-! ## Which runs are complete -/

/-- The cutoff can be computed. -/
def Representable (now : Datetime) (days : IntField 1) : Prop :=
  days.val ≤ 999999999 ∧ days.val * microsecondsPerDay ≤ now.val

theorem purgeCutoff_of_representable
    {now : Datetime} {days : IntField 1} (hdays : Representable now days) :
    purgeCutoff now days = some (now.val - days.val * microsecondsPerDay) := by
  have hpositive : 0 ≤ days.val := le_trans (by decide) days.2.1
  have hretention : 0 ≤ days.val * microsecondsPerDay :=
    mul_nonneg hpositive (by decide)
  have hdelta : timedeltaDays days =
      some (days.val * microsecondsPerDay) := by
    unfold timedeltaDays
    rw [abs_of_nonneg hpositive, if_pos hdays.1]
  rw [purgeCutoff, hdelta, Option.bind_some, datetimeAdd_eq_some_iff,
    ← sub_eq_add_neg]
  refine ⟨⟨sub_nonneg.mpr hdays.2, ?_⟩, rfl⟩
  exact le_trans (sub_le_self _ hretention) now.2.2

theorem representable_of_purgeCutoff
    {now : Datetime} {days : IntField 1} {cutoff : Instant}
    (hcutoff : purgeCutoff now days = some cutoff) :
    Representable now days := by
  have hpositive : 0 ≤ days.val := le_trans (by decide) days.2.1
  obtain ⟨retention, hdelta, hadd⟩ := Option.bind_eq_some_iff.mp hcutoff
  unfold timedeltaDays at hdelta
  rw [abs_of_nonneg hpositive] at hdelta
  split at hdelta
  · next hdays =>
    obtain rfl := Option.some.inj hdelta
    obtain ⟨⟨hfirst, -⟩, -⟩ := datetimeAdd_eq_some_iff.mp hadd
    rw [← sub_eq_add_neg] at hfirst
    exact ⟨hdays, sub_nonneg.mp hfirst⟩
  · contradiction

/-- All tenants are visited, and of their expired rows only locked ones are
left. -/
structure PurgeRun.Complete
    (locked : DatedRow Id → Bool) (clock : Id → Datetime)
    (settings : List (Id × IntField 1)) (result : PurgeRun Id) : Prop where
  visited : result.visited = settings.map Prod.fst
  returned : result.raised = false
  purged : ∀ tenantId days, (tenantId, days) ∈ settings →
    ∀ row ∈ result.table, row.tenantId = tenantId →
      row.moment < (clock tenantId).val - days.val * microsecondsPerDay →
      locked row = true

section Jobs

variable {batchSize : ℕ} {locked : DatedRow Id → Bool}
variable {clock : Id → Datetime}

theorem mem_of_mem_purge
    {settings : List (Id × IntField 1)} {table : List (DatedRow Id)}
    {row : DatedRow Id}
    (hrow : row ∈ (purge batchSize locked clock settings table).table) :
    row ∈ table := by
  induction settings generalizing table with
  | nil => exact hrow
  | cons setting rest ih =>
      obtain ⟨tenantId, days⟩ := setting
      unfold purge at hrow
      split at hrow
      · exact hrow
      · exact mem_of_mem_purgeTenant (ih hrow)

theorem purge_complete
    (hpositive : 0 < batchSize) {settings : List (Id × IntField 1)}
    (hsettings : ∀ tenantId days, (tenantId, days) ∈ settings →
      Representable (clock tenantId) days)
    (table : List (DatedRow Id)) :
    (purge batchSize locked clock settings table).Complete locked clock
      settings := by
  induction settings generalizing table with
  | nil => exact ⟨rfl, rfl, by simp⟩
  | cons setting rest ih =>
      obtain ⟨tenantId, days⟩ := setting
      have hcutoff := purgeCutoff_of_representable
        (hsettings tenantId days List.mem_cons_self)
      have hrest := ih (fun otherId otherDays hmem =>
        hsettings otherId otherDays (List.mem_cons_of_mem _ hmem))
        (purgeTenant batchSize locked tenantId
          ((clock tenantId).val - days.val * microsecondsPerDay)
          (table.length + 1) table)
      simp only [purge, hcutoff]
      refine ⟨by rw [hrest.visited]; rfl, hrest.returned, ?_⟩
      intro otherId otherDays hmem row hrow howner hexpired
      rcases List.mem_cons.mp hmem with hsame | hmem
      · obtain ⟨rfl, rfl⟩ := Prod.mk.inj hsame
        exact purgeTenant_complete hpositive (Nat.lt_succ_self _)
          (mem_of_mem_purge hrow)
          (by simp [DatedRow.isExpired, howner, hexpired])
      · exact hrest.purged otherId otherDays hmem row hrow howner hexpired

theorem representable_of_returned
    {settings : List (Id × IntField 1)} {table : List (DatedRow Id)}
    (hreturned : (purge batchSize locked clock settings table).raised =
      false)
    {tenantId : Id} {days : IntField 1}
    (hmem : (tenantId, days) ∈ settings) :
    Representable (clock tenantId) days := by
  induction settings generalizing table with
  | nil => contradiction
  | cons setting rest ih =>
      obtain ⟨firstId, firstDays⟩ := setting
      unfold purge at hreturned
      split at hreturned
      · contradiction
      · next hcutoff =>
        rcases List.mem_cons.mp hmem with hsame | hmem
        · obtain ⟨rfl, rfl⟩ := Prod.mk.inj hsame
          exact representable_of_purgeCutoff hcutoff
        · exact ih hreturned hmem

theorem purge_complete_iff
    (hpositive : 0 < batchSize) (settings : List (Id × IntField 1))
    (table : List (DatedRow Id)) :
    (purge batchSize locked clock settings table).Complete locked clock
        settings ↔
      ∀ tenantId days, (tenantId, days) ∈ settings →
        Representable (clock tenantId) days :=
  ⟨fun hcomplete _ _ hmem =>
      representable_of_returned hcomplete.returned hmem,
    fun hsettings => purge_complete hpositive hsettings table⟩

end Jobs

/-- A run of either job is complete if and only if every cutoff can be
computed. -/
theorem purges_complete_iff
    (locked : DatedRow Id → Bool) (clock : Id → Datetime)
    (tenants : List (Tenant Id))
    (notifications auditEvents : List (DatedRow Id)) :
    ((purgeNotifications locked clock tenants notifications).Complete locked
        clock (retentions Tenant.retentionDays tenants) ↔
      ∀ tenant ∈ tenants, ∀ days, tenant.retentionDays = some days →
        Representable (clock tenant.id) days) ∧
    ((purgeAuditEvents clock tenants auditEvents).Complete (fun _ => false)
        clock (retentions Tenant.auditRetentionDays tenants) ↔
      ∀ tenant ∈ tenants, ∀ days, tenant.auditRetentionDays = some days →
        Representable (clock tenant.id) days) := by
  have hread : ∀ column : Tenant Id → Option (IntField 1),
      (∀ tenantId days, (tenantId, days) ∈ retentions column tenants →
        Representable (clock tenantId) days) ↔
      ∀ tenant ∈ tenants, ∀ days, column tenant = some days →
        Representable (clock tenant.id) days := by
    intro column
    constructor
    · intro hall tenant hmem days hdays
      refine hall tenant.id days (List.mem_filterMap.mpr ⟨tenant, hmem, ?_⟩)
      rw [hdays]
      rfl
    · intro hall tenantId days hmem
      obtain ⟨tenant, htenant, hmap⟩ := List.mem_filterMap.mp hmem
      obtain ⟨setting, hsetting, hpair⟩ := Option.map_eq_some_iff.mp hmap
      obtain ⟨rfl, rfl⟩ := Prod.mk.inj hpair
      exact hall tenant htenant setting hsetting
  constructor
  · exact (purge_complete_iff (by decide) _ _).trans (hread _)
  · exact (purge_complete_iff (by decide) _ _).trans (hread _)

/-! ## A tenant which ends the job -/

/-- The first tenant has asked for a retention of a billion days; the second
one has the default, and a notification a thousand days old. -/
theorem purge_ends_at_first_tenant :
    let body : TenantUpdate := ⟨some (some ⟨1000000000, by decide⟩), none⟩
    let tenants := [updateTenant (newTenant 1) body, newTenant 2]
    let clock : ℕ → Datetime := fun _ =>
      ⟨739000 * microsecondsPerDay, by decide, by decide⟩
    let expired : DatedRow ℕ := ⟨7, 2, 738000 * microsecondsPerDay⟩
    purgeNotifications (fun _ => false) clock tenants [expired] =
        ⟨[expired], [], true⟩ ∧
      retentions Tenant.retentionDays tenants =
        [(1, ⟨1000000000, by decide⟩), (2, ⟨90, by decide⟩)] := by
  decide +kernel

end NotifyHub
