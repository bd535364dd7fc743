import NotifyHub.RetentionPurge
import Mathlib.Tactic

/-!
# The batches of a purge among other transactions

The loop over the batches of one tenant, while other transactions lock rows,
delete rows and insert new ones.  A full batch takes as many expired rows out
of the table as it may, and no expired row arrives, so the number of expired
rows bounds the batches.
-/

namespace NotifyHub

variable {Id : Type*}

/-! ## Tables -/

/-- The rows of a table under their primary keys. -/
structure DatedTable (Id : Type*) where
  rows : List (DatedRow Id)
  unique : (rows.map DatedRow.id).Nodup

namespace DatedTable

variable {table : DatedTable Id}

def filter (table : DatedTable Id) (keeps : DatedRow Id → Bool) :
    DatedTable Id where
  rows := table.rows.filter keeps
  unique := table.unique.sublist (List.filter_sublist.map _)

/-- An INSERT under a key which is taken fails. -/
def insert (table : DatedTable Id) (row : DatedRow Id) : DatedTable Id :=
  if hfresh : row.id ∈ table.rows.map DatedRow.id then table
  else
    { rows := row :: table.rows
      unique := List.nodup_cons.mpr ⟨hfresh, table.unique⟩ }

theorem eq_of_id
    {first second : DatedRow Id} (hfirst : first ∈ table.rows)
    (hsecond : second ∈ table.rows) (hid : first.id = second.id) :
    first = second :=
  List.inj_on_of_nodup_map table.unique hfirst hsecond hid

theorem rows_insert (row : DatedRow Id) :
    (table.insert row).rows = table.rows ∨
      (table.insert row).rows = row :: table.rows := by
  unfold insert
  split
  · exact .inl rfl
  · exact .inr rfl

theorem mem_insert_of_mem
    {row other : DatedRow Id} (hother : other ∈ table.rows) :
    other ∈ (table.insert row).rows := by
  rcases table.rows_insert row with h | h
  · rwa [h]
  · rw [h]
    exact List.mem_cons_of_mem _ hother

theorem mem_of_mem_insert
    {row other : DatedRow Id} (hother : other ∈ (table.insert row).rows) :
    other = row ∨ other ∈ table.rows := by
  rcases table.rows_insert row with h | h
  · exact .inr (h ▸ hother)
  · rw [h] at hother
    exact List.mem_cons.mp hother

end DatedTable

/-! ## The loop -/

/-- What another transaction does with a row during a batch.  A `deleting`
one commits while the batch waits for the row, or has passed it over. -/
inductive Hold
  | free
  | locked
  | deleting
  deriving DecidableEq

/-- The other transactions during one batch. -/
structure Meanwhile (Id : Type*) where
  hold : DatedRow Id → Hold
  arrivals : List (DatedRow Id)

def Meanwhile.locked (during : Meanwhile Id) (row : DatedRow Id) : Bool :=
  during.hold row ≠ .free

def Meanwhile.taken (during : Meanwhile Id) (row : DatedRow Id) : Bool :=
  during.hold row = .deleting

inductive PurgeJob
  | notifications
  | auditEvents
  deriving DecidableEq

structure PurgeEnd (Id : Type*) where
  table : DatedTable Id
  deleted : List (DatedRow Id)

variable [DecidableEq Id]

/-- No other transaction inserts an expired row of the tenant. -/
def Meanwhile.Young
    (during : Meanwhile Id) (tenantId : Id) (cutoff : Instant) : Prop :=
  ∀ row ∈ during.arrivals, row.isExpired tenantId cutoff = false

namespace PurgeJob

/-- The ids of one batch; only `purge_notifications` skips locked rows. -/
def selected
    (job : PurgeJob) (batchSize : ℕ) (tenantId : Id) (cutoff : Instant)
    (during : Meanwhile Id) (table : DatedTable Id) : List ℕ :=
  match job with
  | .notifications =>
      oldestIds batchSize during.locked tenantId cutoff table.rows
  | .auditEvents =>
      oldestIds batchSize (fun _ => false) tenantId cutoff table.rows

/-- The rows which the DELETE of the batch finds. -/
def deleted
    (job : PurgeJob) (batchSize : ℕ) (tenantId : Id) (cutoff : Instant)
    (during : Meanwhile Id) (table : DatedTable Id) : List (DatedRow Id) :=
  table.rows.filter fun row =>
    (job.selected batchSize tenantId cutoff during table).contains row.id &&
      !during.taken row

/-- `batch_size`: the selected ids, or the row count of the DELETE. -/
def countOf
    (job : PurgeJob) (batchSize : ℕ) (tenantId : Id) (cutoff : Instant)
    (during : Meanwhile Id) (table : DatedTable Id) : ℕ :=
  match job with
  | .notifications =>
      (job.selected batchSize tenantId cutoff during table).length
  | .auditEvents =>
      (job.deleted batchSize tenantId cutoff during table).length

/-- The table after a batch and the other transactions. -/
def next
    (job : PurgeJob) (batchSize : ℕ) (tenantId : Id) (cutoff : Instant)
    (during : Meanwhile Id) (table : DatedTable Id) : DatedTable Id :=
  during.arrivals.foldl DatedTable.insert
    (table.filter fun row =>
      !(job.selected batchSize tenantId cutoff during table).contains
        row.id && !during.taken row)

/-- At most `fuel` batches; the loop breaks after a short one. -/
def run
    (job : PurgeJob) (batchSize : ℕ) (tenantId : Id) (cutoff : Instant)
    (world : ℕ → Meanwhile Id) :
    ℕ → ℕ → DatedTable Id → Option (PurgeEnd Id)
  | 0, _, _ => none
  | fuel + 1, index, table =>
      let deleted := job.deleted batchSize tenantId cutoff (world index) table
      let next := job.next batchSize tenantId cutoff (world index) table
      if job.countOf batchSize tenantId cutoff (world index) table <
          batchSize then
        some ⟨next, deleted⟩
      else
        (run job batchSize tenantId cutoff world fuel (index + 1) next).map
          fun last => { last with deleted := deleted ++ last.deleted }

/-! ## One batch -/

variable {job : PurgeJob} {batchSize : ℕ} {tenantId : Id} {cutoff : Instant}
variable {during : Meanwhile Id} {table : DatedTable Id}

theorem mem_oldestIds
    {locked : DatedRow Id → Bool} {rows : List (DatedRow Id)} {id : ℕ}
    (hid : id ∈ oldestIds batchSize locked tenantId cutoff rows) :
    ∃ row ∈ rows, row.id = id ∧ row.isExpired tenantId cutoff = true ∧
      locked row = false := by
  obtain ⟨row, hrow, rfl⟩ := List.mem_map.mp hid
  have hsorted := List.mem_of_mem_take hrow
  rw [List.mem_insertionSort, List.mem_filter, Bool.and_eq_true,
    Bool.not_eq_true'] at hsorted
  exact ⟨row, hsorted.1, rfl, hsorted.2.1, hsorted.2.2⟩

theorem nodup_oldestIds
    {locked : DatedRow Id → Bool} (table : DatedTable Id) :
    (oldestIds batchSize locked tenantId cutoff table.rows).Nodup := by
  have hfree := (table.filter fun row =>
    row.isExpired tenantId cutoff && !locked row).unique
  have hsorted := ((List.perm_insertionSort DatedRow.olderFirst _).map
    DatedRow.id).nodup_iff.mpr hfree
  exact hsorted.sublist ((List.take_sublist _ _).map _)

/-- A selected row is expired, and `purge_notifications` has found it free. -/
theorem exists_of_selected
    {id : ℕ} (hid : id ∈ job.selected batchSize tenantId cutoff during table) :
    ∃ row ∈ table.rows, row.id = id ∧ row.isExpired tenantId cutoff = true ∧
      (job = .notifications → during.locked row = false) := by
  cases job with
  | notifications =>
      obtain ⟨row, hmem, hrow, hexpired, hfree⟩ := mem_oldestIds hid
      exact ⟨row, hmem, hrow, hexpired, fun _ => hfree⟩
  | auditEvents =>
      obtain ⟨row, hmem, hrow, hexpired, -⟩ := mem_oldestIds hid
      exact ⟨row, hmem, hrow, hexpired, by rintro ⟨⟩⟩

theorem nodup_selected :
    (job.selected batchSize tenantId cutoff during table).Nodup := by
  cases job with
  | notifications => exact nodup_oldestIds table
  | auditEvents => exact nodup_oldestIds table

theorem isExpired_of_selected
    {row : DatedRow Id} (hrow : row ∈ table.rows)
    (hid : row.id ∈ job.selected batchSize tenantId cutoff during table) :
    row.isExpired tenantId cutoff = true ∧
      (job = .notifications → during.locked row = false) := by
  obtain ⟨other, hother, hsame, hexpired, hfree⟩ := exists_of_selected hid
  obtain rfl := table.eq_of_id hother hrow hsame
  exact ⟨hexpired, hfree⟩

theorem mem_deleted {row : DatedRow Id} :
    row ∈ job.deleted batchSize tenantId cutoff during table ↔
      row ∈ table.rows ∧
        row.id ∈ job.selected batchSize tenantId cutoff during table ∧
        during.taken row = false := by
  simp [deleted]

/-- The DELETE finds every selected row which nobody else has deleted. -/
theorem length_selected_le
    (hkept : ∀ row ∈ table.rows,
      row.id ∈ job.selected batchSize tenantId cutoff during table →
        during.taken row = false) :
    (job.selected batchSize tenantId cutoff during table).length ≤
      (job.deleted batchSize tenantId cutoff during table).length := by
  have hlength : ((job.deleted batchSize tenantId cutoff during table).map
      DatedRow.id).length =
        (job.deleted batchSize tenantId cutoff during table).length :=
    List.length_map _
  rw [← hlength]
  refine (List.subperm_of_subset nodup_selected ?_).length_le
  intro id hid
  obtain ⟨row, hmem, rfl, -⟩ := exists_of_selected hid
  exact List.mem_map_of_mem (mem_deleted.mpr ⟨hmem, hid, hkept row hmem hid⟩)

theorem countOf_le :
    job.countOf batchSize tenantId cutoff during table ≤
      (job.deleted batchSize tenantId cutoff during table).length := by
  cases job with
  | notifications =>
      refine length_selected_le fun row hmem hid => ?_
      have hfree := (isExpired_of_selected hmem hid).2 rfl
      simp only [Meanwhile.locked, ne_eq, decide_eq_false_iff_not,
        not_not] at hfree
      simp [Meanwhile.taken, hfree]
  | auditEvents => exact le_rfl

/-! ## The expired rows -/

/-- How many rows of the tenant are expired. -/
def expiredCount
    (tenantId : Id) (cutoff : Instant) (table : DatedTable Id) : ℕ :=
  table.rows.countP fun row => row.isExpired tenantId cutoff

theorem countP_filter_add_le
    {Row : Type*} {counted kept gone : Row → Bool} (rows : List Row)
    (hgone : ∀ row ∈ rows, gone row = true →
      counted row = true ∧ kept row = false) :
    (rows.filter kept).countP counted + (rows.filter gone).length ≤
      rows.countP counted := by
  induction rows with
  | nil => simp
  | cons row rest ih =>
      have hrest := ih fun other hother =>
        hgone other (List.mem_cons_of_mem _ hother)
      by_cases hrow : gone row = true
      · obtain ⟨hcounted, hkept⟩ := hgone row List.mem_cons_self hrow
        simp only [List.filter_cons, hrow, hkept, hcounted, if_true,
          Bool.false_eq_true, if_false, List.length_cons, List.countP_cons]
        omega
      · by_cases hkept : kept row = true
        · simp only [List.filter_cons, hrow, hkept, if_true,
            Bool.false_eq_true, if_false, List.countP_cons]
          omega
        · simp only [List.filter_cons, hrow, hkept, Bool.false_eq_true,
            if_false, List.countP_cons]
          omega

/-- Rows which arrive while they are not expired change nothing about the
expired ones. -/
theorem arrivals_expired
    {arrivals : List (DatedRow Id)}
    (hyoung : ∀ row ∈ arrivals, row.isExpired tenantId cutoff = false)
    (table : DatedTable Id) :
    expiredCount tenantId cutoff (arrivals.foldl DatedTable.insert table) =
        expiredCount tenantId cutoff table ∧
      ∀ row ∈ (arrivals.foldl DatedTable.insert table).rows,
        row.isExpired tenantId cutoff = true → row ∈ table.rows := by
  induction arrivals generalizing table with
  | nil => exact ⟨rfl, fun _ hrow _ => hrow⟩
  | cons arrival rest ih =>
      have hfirst := hyoung arrival List.mem_cons_self
      obtain ⟨hcount, hmem⟩ := ih (fun row hrow =>
        hyoung row (List.mem_cons_of_mem _ hrow)) (table.insert arrival)
      rw [List.foldl_cons]
      refine ⟨hcount.trans ?_, fun row hrow hexpired => ?_⟩
      · unfold expiredCount
        rcases table.rows_insert arrival with h | h
        · rw [h]
        · rw [h, List.countP_cons, hfirst]
          simp
      · rcases DatedTable.mem_of_mem_insert (hmem row hrow hexpired) with rfl | hold
        · rw [hfirst] at hexpired
          cases hexpired
        · exact hold

omit [DecidableEq Id] in
theorem arrivals_keep
    (arrivals : List (DatedRow Id)) {table : DatedTable Id}
    {row : DatedRow Id} (hrow : row ∈ table.rows) :
    row ∈ (arrivals.foldl DatedTable.insert table).rows := by
  induction arrivals generalizing table with
  | nil => exact hrow
  | cons arrival rest ih => exact ih (DatedTable.mem_insert_of_mem hrow)

/-- Every row which a batch deletes is one expired row less. -/
theorem expiredCount_next
    (hyoung : during.Young tenantId cutoff) :
    expiredCount tenantId cutoff
        (job.next batchSize tenantId cutoff during table) +
      (job.deleted batchSize tenantId cutoff during table).length ≤
        expiredCount tenantId cutoff table := by
  rw [next, (arrivals_expired hyoung _).1]
  refine countP_filter_add_le table.rows fun row hrow hdeleted => ?_
  rw [Bool.and_eq_true, List.contains_iff_mem] at hdeleted
  refine ⟨(isExpired_of_selected hrow hdeleted.1).1, ?_⟩
  simp [hdeleted.1]

theorem mem_next_of_expired
    (hyoung : during.Young tenantId cutoff) {row : DatedRow Id}
    (hrow : row ∈ (job.next batchSize tenantId cutoff during table).rows)
    (hexpired : row.isExpired tenantId cutoff = true) :
    row ∈ table.rows ∧
      row.id ∉ job.selected batchSize tenantId cutoff during table := by
  have hkept := (arrivals_expired hyoung _).2 row hrow hexpired
  obtain ⟨hmem, hselected⟩ := List.mem_filter.mp hkept
  exact ⟨hmem, by simpa using (Bool.and_eq_true_iff.mp hselected).1⟩

theorem mem_next_of_kept
    {row : DatedRow Id} (hrow : row ∈ table.rows)
    (hdeleted :
      row ∉ job.deleted batchSize tenantId cutoff during table)
    (htaken : during.taken row = false) :
    row ∈ (job.next batchSize tenantId cutoff during table).rows := by
  refine arrivals_keep _ (List.mem_filter.mpr ⟨hrow, ?_⟩)
  have hselected :
      row.id ∉ job.selected batchSize tenantId cutoff during table :=
    fun hid => hdeleted (mem_deleted.mpr ⟨hrow, hid, htaken⟩)
  simp [hselected, htaken]

/-- A short batch has selected every expired row, if none is locked. -/
theorem selected_of_short
    (hfree : ∀ row ∈ table.rows, row.isExpired tenantId cutoff = true →
      during.hold row = .free)
    (hshort : job.countOf batchSize tenantId cutoff during table < batchSize)
    {row : DatedRow Id} (hrow : row ∈ table.rows)
    (hexpired : row.isExpired tenantId cutoff = true) :
    row.id ∈ job.selected batchSize tenantId cutoff during table := by
  cases job with
  | notifications =>
      exact oldestIds_of_short hshort hrow hexpired
        (by simp [Meanwhile.locked, hfree row hrow hexpired])
  | auditEvents =>
      have hfound : (selected .auditEvents batchSize tenantId cutoff during
          table).length ≤ (deleted .auditEvents batchSize tenantId cutoff
            during table).length := by
        refine length_selected_le fun other hother hid => ?_
        have hheld := hfree other hother (isExpired_of_selected hother hid).1
        simp [Meanwhile.taken, hheld]
      exact oldestIds_of_short (lt_of_le_of_lt hfound hshort) hrow hexpired rfl

/-! ## The whole loop -/

variable {world : ℕ → Meanwhile Id}

/-- A full batch leaves fewer expired rows, so the loop ends. -/
theorem run_ends
    (hpositive : 0 < batchSize)
    (hyoung : ∀ index, (world index).Young tenantId cutoff) {fuel : ℕ}
    (index : ℕ) (table : DatedTable Id)
    (hfuel : expiredCount tenantId cutoff table / batchSize < fuel) :
    ∃ last, job.run batchSize tenantId cutoff world fuel index table =
      some last := by
  induction fuel generalizing index table with
  | zero => exact absurd hfuel (Nat.not_lt_zero _)
  | succ fuel ih =>
      rw [run]
      by_cases hshort : job.countOf batchSize tenantId cutoff (world index)
          table < batchSize
      · exact ⟨_, if_pos hshort⟩
      · rw [if_neg hshort]
        have hless : expiredCount tenantId cutoff (job.next batchSize tenantId
            cutoff (world index) table) + batchSize ≤
              expiredCount tenantId cutoff table := by
          refine le_trans (Nat.add_le_add_left ?_ _)
            (expiredCount_next (hyoung index))
          exact (Nat.le_of_not_lt hshort).trans countOf_le
        have hdiv : expiredCount tenantId cutoff (job.next batchSize tenantId
            cutoff (world index) table) / batchSize + 1 ≤
              expiredCount tenantId cutoff table / batchSize := by
          rw [← Nat.add_div_right _ hpositive]
          exact Nat.div_le_div_right hless
        obtain ⟨last, hlast⟩ := ih (index + 1) (job.next batchSize tenantId
          cutoff (world index) table)
          (lt_of_lt_of_le (Nat.lt_of_succ_le hdiv) (Nat.le_of_lt_succ hfuel))
        exact ⟨_, by rw [hlast, Option.map_some]⟩

/-- What the loop deletes has been in the table and was expired. -/
theorem run_deleted
    (hyoung : ∀ index, (world index).Young tenantId cutoff) {fuel index : ℕ}
    {table : DatedTable Id} {last : PurgeEnd Id}
    (hrun : job.run batchSize tenantId cutoff world fuel index table =
      some last) {row : DatedRow Id} (hrow : row ∈ last.deleted) :
    row ∈ table.rows ∧ row.isExpired tenantId cutoff = true := by
  induction fuel generalizing index table last with
  | zero => cases hrun
  | succ fuel ih =>
      have hnow : row ∈ job.deleted batchSize tenantId cutoff (world index)
          table → row ∈ table.rows ∧ row.isExpired tenantId cutoff = true := by
        intro hdeleted
        obtain ⟨hmem, hid, -⟩ := mem_deleted.mp hdeleted
        exact ⟨hmem, (isExpired_of_selected hmem hid).1⟩
      rw [run] at hrun
      split at hrun
      · obtain rfl := Option.some.inj hrun
        exact hnow hrow
      · obtain ⟨later, hlater, rfl⟩ := Option.map_eq_some_iff.mp hrun
        rcases List.mem_append.mp hrow with hdeleted | hlast
        · exact hnow hdeleted
        · obtain ⟨hnext, hexpired⟩ := ih hlater hlast
          exact ⟨(mem_next_of_expired (hyoung index) hnext hexpired).1,
            hexpired⟩

/-- What nobody deletes stays. -/
theorem run_kept
    {fuel index : ℕ} {table : DatedTable Id} {last : PurgeEnd Id}
    (hrun : job.run batchSize tenantId cutoff world fuel index table =
      some last) {row : DatedRow Id} (hrow : row ∈ table.rows)
    (hdeleted : row ∉ last.deleted)
    (htaken : ∀ index, (world index).taken row = false) :
    row ∈ last.table.rows := by
  induction fuel generalizing index table last with
  | zero => cases hrun
  | succ fuel ih =>
      rw [run] at hrun
      split at hrun
      · obtain rfl := Option.some.inj hrun
        exact mem_next_of_kept hrow hdeleted (htaken index)
      · obtain ⟨later, hlater, rfl⟩ := Option.map_eq_some_iff.mp hrun
        obtain ⟨hnow, hlast⟩ := not_or.mp (mt List.mem_append.mpr hdeleted)
        have hmem : row ∈ later.table.rows :=
          ih hlater (mem_next_of_kept hrow hnow (htaken index)) hlast
        exact hmem

/-- The loop leaves no expired row, if none of them is locked. -/
theorem run_complete
    (hyoung : ∀ index, (world index).Young tenantId cutoff)
    (hfree : ∀ index row, row.isExpired tenantId cutoff = true →
      (world index).hold row = .free) {fuel index : ℕ}
    {table : DatedTable Id} {last : PurgeEnd Id}
    (hrun : job.run batchSize tenantId cutoff world fuel index table =
      some last) {row : DatedRow Id} (hrow : row ∈ last.table.rows) :
    row.isExpired tenantId cutoff = false := by
  induction fuel generalizing index table last with
  | zero => cases hrun
  | succ fuel ih =>
      rw [run] at hrun
      split at hrun
      · next hshort =>
        obtain rfl := Option.some.inj hrun
        by_contra hexpired
        rw [Bool.not_eq_false] at hexpired
        obtain ⟨hmem, hskipped⟩ :=
          mem_next_of_expired (hyoung index) hrow hexpired
        exact hskipped (selected_of_short
          (fun other _ => hfree index other) hshort hmem hexpired)
      · obtain ⟨later, hlater, rfl⟩ := Option.map_eq_some_iff.mp hrun
        exact ih hlater hrow

end PurgeJob

/-- A purge of one tenant ends and is exact, for both jobs. -/
theorem purge_exact
    (job : PurgeJob) {batchSize : ℕ} (hpositive : 0 < batchSize)
    {tenantId : Id} {cutoff : Instant} {world : ℕ → Meanwhile Id}
    (hyoung : ∀ index, (world index).Young tenantId cutoff)
    (table : DatedTable Id) :
    ∃ last, job.run batchSize tenantId cutoff world
        (PurgeJob.expiredCount tenantId cutoff table / batchSize + 1) 0 table =
          some last ∧
      (∀ row ∈ last.deleted,
        row ∈ table.rows ∧ row.tenantId = tenantId ∧ row.moment < cutoff) ∧
      (∀ row ∈ table.rows, row ∉ last.deleted →
        (∀ index, (world index).hold row ≠ .deleting) →
          row ∈ last.table.rows) ∧
      ((∀ index row, (world index).hold row = .free) →
        ∀ row ∈ last.table.rows,
          ¬(row.tenantId = tenantId ∧ row.moment < cutoff)) := by
  obtain ⟨last, hrun⟩ : ∃ last, job.run batchSize tenantId cutoff world
      (PurgeJob.expiredCount tenantId cutoff table / batchSize + 1) 0 table =
        some last :=
    PurgeJob.run_ends hpositive hyoung 0 table (Nat.lt_succ_self _)
  refine ⟨last, hrun, ?_, ?_, ?_⟩
  · intro row hrow
    obtain ⟨hmem, hexpired⟩ := PurgeJob.run_deleted hyoung hrun hrow
    exact ⟨hmem, of_decide_eq_true hexpired⟩
  · intro row hrow hdeleted hheld
    exact PurgeJob.run_kept hrun hrow hdeleted fun index =>
      decide_eq_false (hheld index)
  · intro hfree row hrow
    exact of_decide_eq_false (PurgeJob.run_complete hyoung
      (fun index other _ => hfree index other) hrun hrow)

/-- Two expired rows of tenant 0, and one of another tenant. -/
def expiredRows : DatedTable ℕ :=
  ⟨[⟨1, 0, 5⟩, ⟨2, 0, 3⟩, ⟨3, 9, 3⟩], by decide⟩

/-- A young row arrives during the first batch. -/
def oneArrival (index : ℕ) : Meanwhile ℕ :=
  ⟨fun _ => .free, if index = 0 then [⟨4, 0, 20⟩] else []⟩

theorem oneArrival_young (index : ℕ) : (oneArrival index).Young 0 10 := by
  intro row hrow
  by_cases hfirst : index = 0
  · obtain rfl : row = ⟨4, 0, 20⟩ := by simpa [oneArrival, hfirst] using hrow
    rfl
  · simp [oneArrival, hfirst] at hrow

theorem purge_exact_twoBatches :
    ∃ last, PurgeJob.run .notifications 2 0 10 oneArrival 2 0 expiredRows =
        some last ∧
      ∀ row ∈ last.table.rows, ¬(row.tenantId = 0 ∧ row.moment < 10) := by
  obtain ⟨last, hrun, -, -, hcomplete⟩ :=
    purge_exact .notifications (show 0 < 2 by decide) oneArrival_young
      expiredRows
  exact ⟨last, hrun, hcomplete fun _ _ => rfl⟩

end NotifyHub
