import NotifyHub.RowSecurity
import Mathlib.Tactic

/-!
# Tenants are isolated

Whatever the sessions of the other tenants do on the shared connections, a
tenant cannot tell: leaving all of it out, and starting from a database with
other rows of theirs, changes neither an answer to the tenant nor a row of it.

Identifiers are drawn at random, so a key belongs to one tenant, and the rows
a tenant writes refer to rows of its own.  The policies keep what is visible to
a session, and what it writes, at the keys of its tenant; foreign keys are
followed without policies, but do not lead to another tenant.  Unique entries
are compared across the tenants: those which a tenant writes must be its own,
as slugs and hashes of tokens are, whereas the e-mail address of a user of
another tenant tells of that user.
-/

namespace NotifyHub.RowSecurity

variable {Id Cells Connection : Type}

/-! ## The setting -/

theorem uuidText_ne_nil (id : Uuid) : uuidText id ≠ [] := by
  simp [uuidText]

theorem currentTenant_uuidText (id : Uuid) :
    currentTenant (some (uuidText id)) = some id := by
  simp [currentTenant, uuidText_ne_nil, uuidOfText_uuidText]

@[simp] theorem currentTenant_ended (link : Link) :
    currentTenant link.ended.setting = none := by
  cases hsetting : link.setting <;>
    simp [currentTenant, Link.ended, hsetting]

@[simp] theorem Link.ended_serving (link : Link) :
    link.ended.serving = link.serving := rfl

theorem Owner.eq_app_of_fits
    {owner : Owner} {role : PoolRole} (howner : owner ≠ .lookup)
    (hfits : owner.fits role = true) : role = .app := by
  cases role with
  | app => rfl
  | auth =>
      cases owner with
      | lookup => exact absurd rfl howner
      | tenant _ => exact absurd hfits Bool.false_ne_true
      | bare => exact absurd hfits Bool.false_ne_true
  | ingest =>
      cases owner with
      | lookup => exact absurd rfl howner
      | tenant _ => exact absurd hfits Bool.false_ne_true
      | bare => exact absurd hfits Bool.false_ne_true

/-! ## Keys of a tenant -/

/-- The tenant of each key and of each unique entry. -/
structure Homes (Id : Type) where
  key : RowKey Id → Uuid
  entry : UniqueEntry → Uuid

instance : CoeFun (Homes Id) fun _ => RowKey Id → Uuid := ⟨Homes.key⟩

/-- A row at its key: it has the tenant of the key, and refers to keys and has
entries of the same tenant. -/
structure AtHome
    (home : Homes Id) (key : RowKey Id) (row : Row Id Cells) : Prop where
  tenantId : row.tenantId = home key
  references : ∀ reference ∈ row.references, home reference.target = home key
  uniques : ∀ entry ∈ row.uniques, home.entry entry = home key

def Settled (home : Homes Id) (rows : Rows Id Cells) : Prop :=
  ∀ key, ∀ row ∈ rows key, AtHome home key row

def AgreeAt
    (home : Homes Id) (tenant : Uuid) (first second : Rows Id Cells) :
    Prop :=
  ∀ key, home key = tenant → first key = second key

/-- What a statement writes refers to keys of the tenant, as the handlers have
it, which look up under the policies what they refer to; and its unique entries
are those of the tenant. -/
def Statement.StaysHome
    (home : Homes Id) (tenant : Uuid) (seen : Rows Id Cells) :
    Statement Id Cells → Prop
  | .select _ _ => True
  | .insert table id row =>
      home (table, id) = tenant ∧
        (∀ reference ∈ (row seen).references,
          home reference.target = tenant) ∧
        ∀ entry ∈ (row seen).uniques, home.entry entry = tenant
  | .update table _ assign =>
      ∀ id row, seen (table, id) = some row →
        (∀ reference ∈ (assign seen id row).references,
          home reference.target = tenant) ∧
        ∀ entry ∈ (assign seen id row).uniques, home.entry entry = tenant
  | .delete _ _ => True

section Statements

variable {home : Homes Id} {tenant : Uuid} {role : PoolRole}
  {setting : Option Text} {rows first second : Rows Id Cells}
  {table : SecuredTable}
  {condition : Rows Id Cells → Id → Row Id Cells → Bool}

theorem visible_eq_some
    {key : RowKey Id} {row : Row Id Cells}
    (hvisible : visible role setting rows key = some row) :
    rows key = some row ∧
      (tenantIsolation setting row || lookupPolicy role key.1) = true := by
  obtain ⟨hrow, hpolicies⟩ := Option.filter_eq_some_iff.mp hvisible
  exact ⟨hrow, (Bool.and_eq_true_iff.mp hpolicies).2⟩

theorem visible_tenantId
    {key : RowKey Id} {row : Row Id Cells}
    (hvisible : visible .app setting rows key = some row) :
    currentTenant setting = some row.tenantId := by
  have hpolicies := (visible_eq_some hvisible).2
  simpa [lookupPolicy, tenantIsolation] using hpolicies

theorem matching_eq_some
    {key : RowKey Id} {row : Row Id Cells}
    (hmatching : matching role setting rows table condition key = some row) :
    key.1 = table ∧ visible role setting rows key = some row := by
  unfold matching at hmatching
  split at hmatching
  · rename_i htable
    exact ⟨htable, (Option.filter_eq_some_iff.mp hmatching).1⟩
  · contradiction

theorem changeable_eq_some
    {key : RowKey Id} {row : Row Id Cells}
    (hchange : changeable role setting rows table condition key = some row) :
    key.1 = table ∧ visible role setting rows key = some row ∧
      currentTenant setting = some row.tenantId := by
  obtain ⟨hmatching, hisolation⟩ := Option.filter_eq_some_iff.mp hchange
  obtain ⟨htable, hvisible⟩ := matching_eq_some hmatching
  exact ⟨htable, hvisible, by simpa [tenantIsolation] using hisolation⟩

/-- A deletion cascades along references, which stay where the targets are. -/
theorem removed_home
    (Where : Uuid → Prop) {targets : RowKey Id → Bool}
    (hsettled : Settled home rows)
    (htargets : ∀ key, targets key = true → Where (home key))
    {depth : ℕ} {key : RowKey Id}
    (hremoved : removed rows targets depth key = true) :
    Where (home key) := by
  induction depth generalizing key with
  | zero => exact htargets key hremoved
  | succ depth ih =>
      rcases Bool.or_eq_true_iff.mp hremoved with hbefore | hcascade
      · exact ih hbefore
      · obtain ⟨row, hrow, hreferences⟩ :=
          (Option.any_eq_true _ _).mp hcascade
        obtain ⟨reference, hmem, hgone⟩ := List.any_eq_true.mp hreferences
        have htarget := ih (Bool.and_eq_true_iff.mp hgone).2
        rwa [(hsettled key row hrow).references reference hmem] at htarget

/-! ### What a statement writes -/

theorem nullified_atHome
    {gone : RowKey Id → Bool} {key : RowKey Id} {row : Row Id Cells}
    (hrow : AtHome home key row) : AtHome home key (nullified gone row) where
  tenantId := hrow.tenantId
  references reference hmem :=
    hrow.references reference (List.mem_filter.mp hmem).1
  uniques := hrow.uniques

theorem deletion_home
    (Where : Uuid → Prop) {gone : RowKey Id → Bool}
    (hsettled : Settled home rows)
    (hgone : ∀ key, gone key = true → Where (home key))
    {key : RowKey Id} {version : Option (Row Id Cells)}
    (hversion : deletion rows gone key = some version) :
    Where (home key) ∧ ∀ row ∈ version, AtHome home key row := by
  unfold deletion at hversion
  split at hversion
  · rename_i hkey
    cases hversion
    exact ⟨hgone key hkey, by simp⟩
  · obtain ⟨row, hfilter, hnullified⟩ := Option.map_eq_some_iff.mp hversion
    obtain ⟨hrow, hreferences⟩ := Option.filter_eq_some_iff.mp hfilter
    obtain ⟨reference, hmem, hset⟩ := List.any_eq_true.mp hreferences
    have htarget := hgone _ (Bool.and_eq_true_iff.mp hset).2
    have hhome := hsettled key row hrow
    rw [hhome.references reference hmem] at htarget
    refine ⟨htarget, fun written hwritten => ?_⟩
    rw [← hnullified, Option.mem_some_iff] at hwritten
    exact hwritten ▸ nullified_atHome hhome

variable [Fintype Id] [DecidableEq Id]

/-- Whatever a statement writes is at a key of the tenant which the setting
names. -/
theorem perform_written
    (hsettled : Settled home rows) {statement : Statement Id Cells}
    (hstays : ∀ tenant, currentTenant setting = some tenant →
      statement.StaysHome home tenant (visible role setting rows))
    {outcome : Outcome Id Cells}
    (hperform : statement.perform role setting rows = some outcome)
    {key : RowKey Id} {version : Option (Row Id Cells)}
    (hwritten : outcome.written key = some version) :
    currentTenant setting = some (home key) ∧
      ∀ row ∈ version, AtHome home key row := by
  cases statement with
  | select table condition =>
      simp only [Statement.perform] at hperform
      split at hperform
      · cases hperform
        contradiction
      · contradiction
  | insert table id row =>
      simp only [Statement.perform, Bool.and_eq_true] at hperform
      split at hperform
      · rename_i hallowed
        cases hperform
        have htenant : currentTenant setting =
            some (row (visible role setting rows)).tenantId := by
          simpa [tenantIsolation] using hallowed.1.1.2
        obtain ⟨hhome, hreferences, huniques⟩ := hstays _ htenant
        simp only at hwritten
        split at hwritten
        · rename_i hkey
          cases hwritten
          subst hkey
          rw [hhome]
          refine ⟨htenant, fun written hmem => ?_⟩
          cases hmem
          exact ⟨hhome.symm,
            fun reference href =>
              (hreferences reference href).trans hhome.symm,
            fun entry hentry => (huniques entry hentry).trans hhome.symm⟩
        · contradiction
      · contradiction
  | update table condition assign =>
      simp only [Statement.perform] at hperform
      split at hperform
      · rename_i hallowed
        cases hperform
        obtain ⟨new, hnew, rfl⟩ := Option.map_eq_some_iff.mp hwritten
        obtain ⟨row, hrow, rfl⟩ := Option.map_eq_some_iff.mp hnew
        obtain ⟨htable, hvisible, htenant⟩ := changeable_eq_some hrow
        have hhome := hsettled key row (visible_eq_some hvisible).1
        have hchecked := hallowed.2 key
        rw [hrow] at hchecked
        have hisolated := (Bool.and_eq_true_iff.mp hchecked).1
        have hcurrent : currentTenant setting =
            some (assign (visible role setting rows) key.2 row).tenantId := by
          simpa [tenantIsolation] using hisolated
        rw [hhome.tenantId] at htenant
        refine ⟨htenant, fun written hmem => ?_⟩
        cases hmem
        subst htable
        obtain ⟨hreferences, huniques⟩ := hstays _ htenant key.2 row hvisible
        exact ⟨Option.some.inj (hcurrent.symm.trans htenant), hreferences,
          huniques⟩
      · contradiction
  | delete table condition =>
      simp only [Statement.perform] at hperform
      split at hperform
      · cases hperform
        refine deletion_home (currentTenant setting = some ·) hsettled
          (fun gone hgone => ?_) hwritten
        refine removed_home (currentTenant setting = some ·) hsettled
          (fun target htarget => ?_) hgone
        obtain ⟨row, hrow⟩ := Option.isSome_iff_exists.mp htarget
        obtain ⟨-, hvisible, htenant⟩ := changeable_eq_some hrow
        rwa [(hsettled target row (visible_eq_some hvisible).1).tenantId]
          at htenant
      · contradiction

/-- Whatever a statement returns has the tenant which the setting names, or is
read through a lookup policy. -/
theorem perform_returned
    {statement : Statement Id Cells} {outcome : Outcome Id Cells}
    (hperform : statement.perform role setting rows = some outcome)
    {key : RowKey Id} {row : Row Id Cells}
    (hreturned : outcome.returned key = some row) :
    currentTenant setting = some row.tenantId ∨
      lookupPolicy role key.1 = true := by
  cases statement with
  | select table condition =>
      simp only [Statement.perform] at hperform
      split at hperform
      · cases hperform
        have hvisible := (matching_eq_some hreturned).2
        have hpolicies := (visible_eq_some hvisible).2
        simpa [tenantIsolation] using hpolicies
      · contradiction
  | insert table id new =>
      simp only [Statement.perform, Bool.and_eq_true] at hperform
      split at hperform
      · rename_i hallowed
        cases hperform
        simp only at hreturned
        split at hreturned
        · cases hreturned
          exact .inl (by simpa [tenantIsolation] using hallowed.1.1.2)
        · contradiction
      · contradiction
  | update table condition assign =>
      simp only [Statement.perform] at hperform
      split at hperform
      · rename_i hallowed
        cases hperform
        have hchecked := hallowed.2 key
        simp only at hreturned
        rw [hreturned] at hchecked
        have hisolated := (Bool.and_eq_true_iff.mp hchecked).1
        exact .inl (by simpa [tenantIsolation] using hisolated)
      · contradiction
  | delete table condition =>
      simp only [Statement.perform] at hperform
      split at hperform
      · cases hperform
        exact .inl (changeable_eq_some hreturned).2.2
      · contradiction

/-! ### Databases which agree at the keys of a tenant -/

omit [Fintype Id] [DecidableEq Id] in
theorem visible_congr
    (hfirst : Settled home first) (hsecond : Settled home second)
    (hagree : AgreeAt home tenant first second)
    (hsetting : ∀ current, currentTenant setting = some current →
      current = tenant) :
    visible .app setting first = visible .app setting second := by
  have hnone : ∀ rows : Rows Id Cells, Settled home rows →
      ∀ key, home key ≠ tenant → visible .app setting rows key = none := by
    intro rows hrows key hkey
    cases hvisible : visible .app setting rows key with
    | none => rfl
    | some row =>
        have htenant := hsetting _ (visible_tenantId hvisible)
        have hhome := hrows key row (visible_eq_some hvisible).1
        exact absurd (hhome.tenantId.symm.trans htenant) hkey
  funext key
  by_cases hkey : home key = tenant
  · simp only [visible, hagree key hkey]
  · rw [hnone first hfirst key hkey, hnone second hsecond key hkey]

omit [Fintype Id] [DecidableEq Id] in
theorem referenced_congr
    (hagree : AgreeAt home tenant first second) {row : Row Id Cells}
    (hreferences : ∀ reference ∈ row.references,
      home reference.target = tenant) :
    referenced first row = referenced second row := by
  have hall : ∀ reference ∈ row.references,
      (first reference.target).isSome = true ↔
        (second reference.target).isSome = true := by
    intro reference hmem
    rw [hagree _ (hreferences reference hmem)]
  rw [Bool.eq_iff_iff, referenced, referenced, List.all_eq_true,
    List.all_eq_true]
  exact forall₂_congr hall

omit [Fintype Id] [DecidableEq Id] in
theorem removed_congr
    (hfirst : Settled home first) (hsecond : Settled home second)
    (hagree : AgreeAt home tenant first second) {targets : RowKey Id → Bool}
    (htargets : ∀ key, targets key = true → home key = tenant) (depth : ℕ) :
    removed first targets depth = removed second targets depth := by
  induction depth with
  | zero => rfl
  | succ depth ih =>
      funext key
      by_cases hkey : home key = tenant
      · simp only [removed, ih, hagree key hkey]
      · have hstays : ∀ rows : Rows Id Cells, Settled home rows →
            removed rows targets (depth + 1) key = false := fun rows hrows =>
          Bool.eq_false_iff.mpr fun hremoved =>
            hkey (removed_home (· = tenant) hrows htargets hremoved)
        rw [hstays first hfirst, hstays second hsecond]

omit [Fintype Id] [DecidableEq Id] in
/-- The rows of other tenants neither hinder a deletion nor feel it. -/
theorem deletion_elsewhere
    (hsettled : Settled home rows) {gone : RowKey Id → Bool}
    (hgone : ∀ key, gone key = true → home key = tenant)
    {key : RowKey Id} (hkey : home key ≠ tenant) :
    releasable rows gone key = true ∧ deletion rows gone key = none := by
  have hstays : ∀ other, home other ≠ tenant → gone other = false :=
    fun other hother => Bool.eq_false_iff.mpr fun h => hother (hgone other h)
  have hreferences : ∀ row, rows key = some row →
      ∀ reference ∈ row.references, gone reference.target = false := by
    intro row hrow reference hmem
    apply hstays
    rwa [(hsettled key row hrow).references reference hmem]
  cases hrow : rows key with
  | none => simp [releasable, deletion, hrow, hstays key hkey]
  | some row =>
      have hrefs := hreferences row hrow
      constructor
      · simp only [releasable, hrow, hstays key hkey, Option.all_some,
          Bool.false_or, List.all_eq_true]
        intro reference hmem
        simp [hrefs reference hmem]
      · simp only [deletion, hrow, hstays key hkey, Bool.false_eq_true,
          if_false, Option.map_eq_none_iff, Option.filter_eq_none_iff]
        intro written hwritten
        cases hwritten
        simp only [List.any_eq_true, not_exists, not_and]
        intro reference hmem
        simp [hrefs reference hmem]

omit [Fintype Id] [DecidableEq Id] in
theorem deletion_congr
    (hfirst : Settled home first) (hsecond : Settled home second)
    (hagree : AgreeAt home tenant first second) {gone : RowKey Id → Bool}
    (hgone : ∀ key, gone key = true → home key = tenant) :
    (∀ key, releasable first gone key = releasable second gone key) ∧
      deletion first gone = deletion second gone := by
  have hkeys : ∀ key, releasable first gone key = releasable second gone key ∧
      deletion first gone key = deletion second gone key := by
    intro key
    by_cases hkey : home key = tenant
    · simp only [releasable, deletion, hagree key hkey, and_self]
    · have hin := deletion_elsewhere hfirst hgone hkey
      have hout := deletion_elsewhere hsecond hgone hkey
      exact ⟨hin.1.trans hout.1.symm, hin.2.trans hout.2.symm⟩
  exact ⟨fun key => (hkeys key).1, funext fun key => (hkeys key).2⟩

/-- A statement of the application does the same on databases which agree at
the keys of its tenant. -/
theorem perform_congr
    (hfirst : Settled home first) (hsecond : Settled home second)
    (hagree : AgreeAt home tenant first second)
    (hsetting : ∀ current, currentTenant setting = some current →
      current = tenant)
    {statement : Statement Id Cells}
    (hstays : statement.StaysHome home tenant (visible .app setting first)) :
    statement.perform .app setting first =
      statement.perform .app setting second := by
  have hseen := visible_congr hfirst hsecond hagree hsetting
  have hmatching : ∀ table condition,
      matching .app setting first table condition =
        matching .app setting second table condition := by
    intro table condition
    funext key
    simp only [matching, hseen]
  have hchange : ∀ table condition,
      changeable .app setting first table condition =
        changeable .app setting second table condition := by
    intro table condition
    funext key
    simp only [changeable, hmatching]
  cases statement with
  | select table condition =>
      simp only [Statement.perform, hmatching]
  | insert table id row =>
      obtain ⟨hhome, hreferences, -⟩ := hstays
      simp only [Statement.perform, ← hseen, hagree _ hhome,
        referenced_congr hagree hreferences]
  | update table condition assign =>
      have hchecked : ∀ key,
          ((changeable .app setting first table condition key).map
              (assign (visible .app setting first) key.2)).all (fun row =>
                tenantIsolation setting row && referenced first row) =
            ((changeable .app setting first table condition key).map
              (assign (visible .app setting first) key.2)).all (fun row =>
                tenantIsolation setting row && referenced second row) := by
        intro key
        cases hrow : changeable .app setting first table condition key with
        | none => rfl
        | some row =>
            obtain ⟨htable, hvisible, -⟩ := changeable_eq_some hrow
            subst htable
            have hrefs := (hstays key.2 row hvisible).1
            simp only [Option.map_some, Option.all_some,
              referenced_congr hagree hrefs]
      simp only [Statement.perform, hchecked]
      simp only [hchange, hseen]
  | delete table condition =>
      have htargets : ∀ key,
          (changeable .app setting first table condition key).isSome = true →
            home key = tenant := by
        intro key hkey
        obtain ⟨row, hrow⟩ := Option.isSome_iff_exists.mp hkey
        obtain ⟨-, hvisible, htenant⟩ := changeable_eq_some hrow
        have hhome := hfirst key row (visible_eq_some hvisible).1
        exact hhome.tenantId.symm.trans (hsetting _ htenant)
      have hremoved :=
        removed_congr hfirst hsecond hagree htargets cascadeDepth
      have hgone : ∀ key, removed first _ cascadeDepth key = true →
          home key = tenant := fun key =>
        removed_home (· = tenant) hfirst htargets
      obtain ⟨hreleasable, hdeletion⟩ :=
        deletion_congr hfirst hsecond hagree hgone
      simp only [Statement.perform, hreleasable, hdeletion]
      rw [hremoved]
      simp only [hchange]

/-! ### Unique entries -/

omit [Fintype Id] [DecidableEq Id] in
/-- Rows with a common entry are at home with one tenant. -/
theorem AtHome.eq_of_sharesEntry
    {key other : RowKey Id} {row held : Row Id Cells}
    (hrow : AtHome home key row) (hheld : AtHome home other held)
    (hshares : row.sharesEntry held = true) : home key = home other := by
  obtain ⟨entry, hmem, hentry⟩ := List.any_eq_true.mp hshares
  rw [← hrow.uniques entry hmem, hheld.uniques entry (of_decide_eq_true hentry)]

/-- What a statement of a tenant has written, all of it at home. -/
def Outcome.WrittenAt
    (home : Homes Id) (tenant : Uuid) (outcome : Outcome Id Cells) : Prop :=
  ∀ key version, outcome.written key = some version →
    home key = tenant ∧ ∀ row ∈ version, AtHome home key row

omit [Fintype Id] [DecidableEq Id] in
theorem Outcome.WrittenAt.over_settled
    {outcome : Outcome Id Cells} (hwritten : outcome.WrittenAt home tenant)
    (hsettled : Settled home rows) : Settled home (outcome.over rows) := by
  intro key row hrow
  unfold Outcome.over at hrow
  cases hversion : outcome.written key with
  | none =>
      rw [hversion] at hrow
      exact hsettled key row hrow
  | some version =>
      rw [hversion] at hrow
      exact (hwritten key version hversion).2 row hrow

omit [Fintype Id] [DecidableEq Id] in
theorem over_agree
    (hagree : AgreeAt home tenant first second) (outcome : Outcome Id Cells) :
    AgreeAt home tenant (outcome.over first) (outcome.over second) := by
  intro key hkey
  unfold Outcome.over
  rw [hagree key hkey]

omit [Fintype Id] [DecidableEq Id] in
theorem Outcome.Clashes.mono
    {outcome : Outcome Id Cells} (hwritten : outcome.WrittenAt home tenant)
    (hfirst : Settled home first) (hagree : AgreeAt home tenant first second)
    (hclashes : outcome.Clashes first) : outcome.Clashes second := by
  obtain ⟨key, other, hne, hkey, hshares⟩ := hclashes
  obtain ⟨row, hrow, hother⟩ := (Option.any_eq_true _ _).mp hshares
  obtain ⟨held, hheld, hentry⟩ := (Option.any_eq_true _ _).mp hother
  obtain ⟨version, hversion⟩ := Option.isSome_iff_exists.mp hkey
  have hsettled := hwritten.over_settled hfirst
  have hhome := (hwritten key version hversion).1
  have hsame := (hsettled key row hrow).eq_of_sharesEntry
    (hsettled other held hheld) hentry
  have hagreed := over_agree hagree outcome
  refine ⟨key, other, hne, hkey, ?_⟩
  rwa [← hagreed key hhome, ← hagreed other (hsame ▸ hhome)]

omit [Fintype Id] [DecidableEq Id] in
theorem clashes_congr
    {outcome : Outcome Id Cells} (hwritten : outcome.WrittenAt home tenant)
    (hfirst : Settled home first) (hsecond : Settled home second)
    (hagree : AgreeAt home tenant first second) :
    outcome.Clashes first ↔ outcome.Clashes second :=
  ⟨.mono hwritten hfirst hagree,
    .mono hwritten hsecond fun key hkey => (hagree key hkey).symm⟩

end Statements

/-! ## What a connection may have -/

/-- What may be in the answer to a statement: rows of the tenant of the session,
and for the lookups rows of their own tables. -/
def Answered
    (pool : Connection → PoolRole)
    (entry : Owner × Connection × Option (Rows Id Cells)) : Prop :=
  ∀ returned ∈ entry.2.2, ∀ key, ∀ row ∈ returned key,
    match entry.1 with
    | .tenant tenant => row.tenantId = tenant
    | .bare => False
    | .lookup => lookupPolicy (pool entry.2.1) key.1 = true

/-- The setting of a connection names at most the tenant it serves. -/
structure Linked
    (pool : Connection → PoolRole) (state : State Connection Id Cells) :
    Prop where
  settings : ∀ connection tenant,
    currentTenant (state.link connection).setting = some tenant →
      (state.link connection).serving = some (.tenant tenant)
  pools : ∀ connection owner,
    (state.link connection).serving = some owner →
      owner.fits (pool connection) = true
  answers : ∀ entry ∈ state.log, Answered pool entry

/-- Only the transactions of a tenant hold rows at its keys. -/
structure Housed
    (home : Homes Id) (state : State Connection Id Cells) : Prop where
  rows : Settled home state.table.rows
  versions : ∀ key connection version,
    state.table.pending key = some (connection, version) →
      ∀ row ∈ version, AtHome home key row
  holders : ∀ key connection version,
    state.table.pending key = some (connection, version) →
      (state.link connection).serving = some (.tenant (home key))

structure Confined
    (pool : Connection → PoolRole) (home : Homes Id)
    (state : State Connection Id Cells) : Prop
    extends Linked pool state, Housed home state

/-- A statement stays at the keys of the tenant it is executed for. -/
def StaysHome
    [DecidableEq Connection] (pool : Connection → PoolRole)
    (home : Homes Id) (state : State Connection Id Cells)
    (action : Action Connection Id Cells) : Prop :=
  match action.owner, action.operation with
  | .tenant tenant, .execute statement _ =>
      statement.StaysHome home tenant
        (visible (pool action.connection)
          (state.link action.connection).setting
          (state.seen action.connection))
  | _, _ => True

section Runs

variable [DecidableEq Connection]
  {pool : Connection → PoolRole} {home : Homes Id} {tenant : Uuid}
  {state next other final : State Connection Id Cells}
  {action : Action Connection Id Cells} {connection : Connection}

@[simp] theorem State.setLink_table (link : Link) :
    (state.setLink connection link).table = state.table := rfl

@[simp] theorem State.setLink_log (link : Link) :
    (state.setLink connection link).log = state.log := rfl

@[simp] theorem State.fail_table (owner : Owner) :
    (state.fail connection owner).table = state.table := rfl

theorem State.setLink_link (link : Link) (at_ : Connection) :
    (state.setLink connection link).link at_ =
      if at_ = connection then link else state.link at_ := by
  simp [State.setLink, Function.update_apply]

/-- A statement which need not wait fails or is carried out. -/
theorem State.execute_cases
    [Fintype Id] [DecidableEq Id] {role : PoolRole} {owner : Owner}
    {statement : Statement Id Cells}
    (hexecute : state.execute role connection owner statement = some next) :
    next = state.fail connection owner ∨
      ∃ outcome,
        statement.perform role (state.link connection).setting
          (state.seen connection) = some outcome ∧
        next = state.write connection owner outcome := by
  unfold State.execute at hexecute
  split at hexecute
  · exact .inl (Option.some.inj hexecute).symm
  next outcome hperform =>
    split at hexecute
    · split at hexecute
      · exact .inl (Option.some.inj hexecute).symm
      · exact .inr ⟨outcome, hperform, (Option.some.inj hexecute).symm⟩
    · contradiction

namespace Linked

omit [DecidableEq Connection] in
/-- Only the tenant whom a connection serves is named by its setting. -/
theorem owner_eq
    (hstate : Linked pool state) {owner : Owner} {named : Uuid}
    (hserving : (state.link connection).serving = some owner)
    (hnamed : currentTenant (state.link connection).setting = some named) :
    owner = .tenant named :=
  Option.some.inj
    (hserving.symm.trans (hstate.settings connection named hnamed))

theorem setLink
    (hstate : Linked pool state) (link : Link)
    (hsetting : ∀ named, currentTenant link.setting = some named →
      link.serving = some (.tenant named))
    (hpool : ∀ owner, link.serving = some owner →
      owner.fits (pool connection) = true) :
    Linked pool (state.setLink connection link) where
  settings at_ named hnamed := by
    rw [State.setLink_link] at hnamed ⊢
    split at hnamed
    · rename_i heq
      rw [if_pos heq]
      exact hsetting named hnamed
    · rename_i hne
      rw [if_neg hne]
      exact hstate.settings at_ named hnamed
  pools at_ owner howner := by
    rw [State.setLink_link] at howner
    split at howner
    · rename_i heq
      exact heq ▸ hpool owner howner
    · exact hstate.pools at_ owner howner
  answers := hstate.answers

/-- The end of a transaction, whether the connection is kept or not. -/
theorem ended
    (hstate : Linked pool state) (connection : Connection)
    (serving : Option Owner)
    (hserving : ∀ owner, serving = some owner →
      (state.link connection).serving = some owner) :
    Linked pool (state.setLink connection
      { (state.link connection).ended with serving := serving }) := by
  refine hstate.setLink _ (fun named hnamed => ?_) fun owner howner => ?_
  · have hended := currentTenant_ended (state.link connection)
    exact absurd (hended.symm.trans hnamed) (by simp)
  · exact hstate.pools connection owner (hserving owner howner)

theorem checkout
    (hstate : Linked pool state) {owner : Owner}
    (hfree : (state.link connection).serving = none)
    (hfits : owner.fits (pool connection) = true) :
    Linked pool
      (state.setLink connection
        ⟨owner.opening (state.link connection).setting, some owner, false⟩) := by
  have hidle : currentTenant (state.link connection).setting = none := by
    by_contra hsome
    obtain ⟨named, hnamed⟩ := Option.ne_none_iff_exists'.mp hsome
    have hserving := hstate.settings connection named hnamed
    rw [hfree] at hserving
    contradiction
  refine hstate.setLink _ (fun named hnamed => ?_) fun user huser => ?_
  · cases owner with
    | tenant id =>
        have hopened := (currentTenant_uuidText id).symm.trans hnamed
        rw [Option.some.inj hopened]
    | bare => exact absurd (hidle.symm.trans hnamed) (by simp)
    | lookup => exact absurd (hidle.symm.trans hnamed) (by simp)
  · cases huser
    exact hfits

theorem fail (hstate : Linked pool state) (owner : Owner) :
    Linked pool (state.fail connection owner) := by
  have hlinked := hstate.setLink { state.link connection with aborted := true }
    (fun named hnamed => hstate.settings connection named hnamed)
    (fun user huser => hstate.pools connection user huser)
  refine ⟨hlinked.settings, hlinked.pools, fun entry hentry => ?_⟩
  rcases List.mem_append.mp hentry with hbefore | hnew
  · exact hstate.answers entry hbefore
  · obtain rfl := List.mem_singleton.mp hnew
    simp [Answered]

variable [Fintype Id] [DecidableEq Id]

theorem write
    (hstate : Linked pool state) {owner : Owner}
    (hserving : (state.link connection).serving = some owner)
    {statement : Statement Id Cells} {outcome : Outcome Id Cells}
    (hperform : statement.perform (pool connection)
      (state.link connection).setting (state.seen connection) =
        some outcome) :
    Linked pool (state.write connection owner outcome) := by
  refine ⟨hstate.settings, hstate.pools, fun entry hentry => ?_⟩
  rcases List.mem_append.mp hentry with hbefore | hnew
  · exact hstate.answers entry hbefore
  · obtain rfl := List.mem_singleton.mp hnew
    intro returned hreturned key row hrow
    cases hreturned
    have hfits := hstate.pools connection owner hserving
    rcases perform_returned hperform hrow with hnamed | hlookup
    · rw [hstate.owner_eq hserving hnamed]
    · by_cases howner : owner = .lookup
      · subst howner
        exact hlookup
      · have happ := Owner.eq_app_of_fits howner hfits
        simp [happ, lookupPolicy] at hlookup

theorem step
    (hstate : Linked pool state)
    (hstep : (machine Id Cells pool).step state action = some next) :
    Linked pool next := by
  obtain ⟨connection, owner, operation⟩ := action
  cases operation with
  | checkout =>
      simp only [machine, State.step] at hstep
      split at hstep
      · rename_i hfree
        cases hstep
        exact hstate.checkout hfree.1 hfree.2
      · contradiction
  | execute statement refused =>
      simp only [machine, State.step] at hstep
      split at hstep
      · rename_i hserving
        split at hstep
        · cases hstep
          exact hstate.fail owner
        · rcases State.execute_cases hstep with rfl | ⟨outcome, hperform, rfl⟩
          · exact hstate.fail owner
          · exact hstate.write hserving hperform
      · contradiction
  | commit =>
      simp only [machine, State.step] at hstep
      split at hstep
      · cases hstep
        have hended := hstate.ended connection _ fun _ => id
        exact ⟨hended.settings, hended.pools, hended.answers⟩
      · contradiction
  | rollback =>
      simp only [machine, State.step] at hstep
      split at hstep
      · cases hstep
        have hended := hstate.ended connection _ fun _ => id
        exact ⟨hended.settings, hended.pools, hended.answers⟩
      · contradiction
  | close =>
      simp only [machine, State.step] at hstep
      split at hstep
      · cases hstep
        have hended := hstate.ended connection none (by simp)
        exact ⟨hended.settings, hended.pools, hended.answers⟩
      · contradiction

end Linked

namespace Housed

theorem seen (hstate : Housed home state) (connection : Connection) :
    Settled home (state.seen connection) := by
  intro key row hrow
  unfold State.seen at hrow
  split at hrow
  · exact hstate.rows key row hrow
  · rename_i holder version hpending
    split at hrow
    · exact hstate.versions key holder version hpending row hrow
    · exact hstate.rows key row hrow

theorem finish (hstate : Housed home state) (link : Link) :
    Housed home { state.setLink connection link with
      table := state.table.finish connection } where
  rows := hstate.rows
  versions key holder version hpending :=
    hstate.versions key holder version (Option.filter_eq_some_iff.mp hpending).1
  holders key holder version hpending := by
    obtain ⟨hheld, hother⟩ := Option.filter_eq_some_iff.mp hpending
    have hne : holder ≠ connection := by simpa using hother
    rw [State.setLink_link, if_neg hne]
    exact hstate.holders key holder version hheld

theorem commit (hstate : Housed home state) (link : Link) :
    Housed home { state.setLink connection link with
      table := state.table.commit connection } where
  rows key row hrow := by
    simp only [PendingRows.commit] at hrow
    split at hrow
    · exact hstate.rows key row hrow
    · rename_i holder version hpending
      split at hrow
      · exact hstate.versions key holder version hpending row hrow
      · exact hstate.rows key row hrow
  versions := (hstate.finish link).versions
  holders := (hstate.finish link).holders

theorem checkout
    (hstate : Housed home state) (link : Link)
    (hfree : (state.link connection).serving = none) :
    Housed home (state.setLink connection link) where
  rows := hstate.rows
  versions := hstate.versions
  holders key holder version hpending := by
    have hserving := hstate.holders key holder version hpending
    have hne : holder ≠ connection := by
      rintro rfl
      rw [hfree] at hserving
      contradiction
    rwa [State.setLink_link, if_neg hne]

theorem fail (hstate : Housed home state) (owner : Owner) :
    Housed home (state.fail connection owner) where
  rows := hstate.rows
  versions := hstate.versions
  holders key holder version hpending := by
    have hserving := hstate.holders key holder version hpending
    by_cases heq : holder = connection
    · subst heq
      simpa [State.fail, State.setLink_link] using hserving
    · simpa [State.fail, State.setLink_link, heq] using hserving

omit [DecidableEq Connection] in
theorem write
    (hstate : Housed home state) {owner : Owner} {outcome : Outcome Id Cells}
    (hwritten : ∀ key version, outcome.written key = some version →
      (state.link connection).serving = some (.tenant (home key)) ∧
        ∀ row ∈ version, AtHome home key row) :
    Housed home (state.write connection owner outcome) := by
  have hpending : ∀ key holder version,
      (state.write connection owner outcome).table.pending key =
          some (holder, version) →
        (state.link holder).serving = some (.tenant (home key)) ∧
          ∀ row ∈ version, AtHome home key row := by
    intro key holder version hnew
    simp only [State.write] at hnew
    split at hnew
    · exact ⟨hstate.holders key holder version hnew,
        hstate.versions key holder version hnew⟩
    · rename_i new hkey
      cases hnew
      exact hwritten key version hkey
  exact
    { rows := hstate.rows
      versions := fun key holder version hnew =>
        (hpending key holder version hnew).2
      holders := fun key holder version hnew =>
        (hpending key holder version hnew).1 }

end Housed

namespace Confined

variable [Fintype Id] [DecidableEq Id]

/-- What a statement writes when it is executed. -/
theorem perform_written
    (hstate : Confined pool home state)
    {owner : Owner} {statement : Statement Id Cells} {refused : Bool}
    (hserving : (state.link connection).serving = some owner)
    (hstays : StaysHome pool home state
      ⟨connection, owner, .execute statement refused⟩)
    {outcome : Outcome Id Cells}
    (hperform : statement.perform (pool connection)
      (state.link connection).setting (state.seen connection) = some outcome)
    (key : RowKey Id) (version : Option (Row Id Cells))
    (hwritten : outcome.written key = some version) :
    owner = .tenant (home key) ∧ ∀ row ∈ version, AtHome home key row := by
  have hallowed : ∀ named,
      currentTenant (state.link connection).setting = some named →
        statement.StaysHome home named
          (visible (pool connection) (state.link connection).setting
            (state.seen connection)) := by
    intro named hnamed
    obtain rfl := hstate.owner_eq hserving hnamed
    exact hstays
  have hrow := RowSecurity.perform_written (hstate.seen connection) hallowed
    hperform hwritten
  exact ⟨hstate.owner_eq hserving hrow.1, hrow.2⟩

theorem step
    (hstate : Confined pool home state)
    (hstays : StaysHome pool home state action)
    (hstep : (machine Id Cells pool).step state action = some next) :
    Confined pool home next := by
  refine ⟨hstate.toLinked.step hstep, ?_⟩
  obtain ⟨connection, owner, operation⟩ := action
  cases operation with
  | checkout =>
      simp only [machine, State.step] at hstep
      split at hstep
      · rename_i hfree
        cases hstep
        exact hstate.toHoused.checkout _ hfree.1
      · contradiction
  | execute statement refused =>
      simp only [machine, State.step] at hstep
      split at hstep
      · rename_i hserving
        split at hstep
        · cases hstep
          exact hstate.toHoused.fail owner
        · rcases State.execute_cases hstep with rfl | ⟨outcome, hperform, rfl⟩
          · exact hstate.toHoused.fail owner
          · refine hstate.toHoused.write fun key version hwritten => ?_
            have hrow := hstate.perform_written hserving hstays hperform
              key version hwritten
            exact ⟨hserving.trans (congrArg some hrow.1), hrow.2⟩
      · contradiction
  | commit =>
      simp only [machine, State.step] at hstep
      split at hstep
      · cases hstep
        split
        · exact hstate.finish _
        · exact hstate.commit _
      · contradiction
  | rollback =>
      simp only [machine, State.step] at hstep
      split at hstep
      · cases hstep
        exact hstate.finish _
      · contradiction
  | close =>
      simp only [machine, State.step] at hstep
      split at hstep
      · cases hstep
        exact hstate.finish _
      · contradiction

end Confined

/-! ## Two runs -/

/-- The second run has only what the tenant has: its rows, its transactions,
its connections and its answers. -/
structure Alike
    (home : Homes Id) (tenant : Uuid)
    (state other : State Connection Id Cells) : Prop where
  rows : AgreeAt home tenant state.table.rows other.table.rows
  pending : ∀ key, home key = tenant →
    state.table.pending key = other.table.pending key
  serving : ∀ connection,
    (state.link connection).serving = some (.tenant tenant) →
      other.link connection = state.link connection
  idle : ∀ connection,
    (state.link connection).serving ≠ some (.tenant tenant) →
      (other.link connection).serving = none
  log : other.log =
    state.log.filter fun entry => decide (entry.1 = .tenant tenant)

structure Related
    (pool : Connection → PoolRole) (home : Homes Id) (tenant : Uuid)
    (state other : State Connection Id Cells) : Prop
    extends Alike home tenant state other where
  confined : Confined pool home state
  alone : Confined pool home other

namespace Related

theorem seen
    (hrelated : Related pool home tenant state other)
    (connection : Connection) :
    AgreeAt home tenant (state.seen connection) (other.seen connection) := by
  intro key hkey
  simp only [State.seen, hrelated.rows key hkey, hrelated.pending key hkey]

/-- What becomes of the connections when both runs move one of them. -/
theorem links
    (hrelated : Related pool home tenant state other)
    (connection : Connection) (link linkAlone : Link)
    (hsame : link.serving = some (.tenant tenant) → linkAlone = link)
    (hidle : link.serving ≠ some (.tenant tenant) → linkAlone.serving = none) :
    (∀ at_, ((state.setLink connection link).link at_).serving =
        some (.tenant tenant) →
      (other.setLink connection linkAlone).link at_ =
        (state.setLink connection link).link at_) ∧
    ∀ at_, ((state.setLink connection link).link at_).serving ≠
        some (.tenant tenant) →
      ((other.setLink connection linkAlone).link at_).serving = none := by
  simp only [State.setLink_link]
  constructor <;> intro at_ hserving <;> split at hserving
  · rename_i heq
    rw [if_pos heq, if_pos heq]
    exact hsame hserving
  · rename_i hne
    rw [if_neg hne, if_neg hne]
    exact hrelated.serving at_ hserving
  · rename_i heq
    rw [if_pos heq]
    exact hidle hserving
  · rename_i hne
    rw [if_neg hne]
    exact hrelated.idle at_ hserving

/-- The end of a transaction of the tenant, in both runs. -/
theorem finish_pending
    (hrelated : Related pool home tenant state other) (key : RowKey Id)
    (hkey : home key = tenant) :
    (state.table.finish connection).pending key =
      (other.table.finish connection).pending key := by
  simp only [PendingRows.finish, hrelated.pending key hkey]

theorem commit_rows
    (hrelated : Related pool home tenant state other) :
    AgreeAt home tenant (state.table.commit connection).rows
      (other.table.commit connection).rows := by
  intro key hkey
  simp only [PendingRows.commit, hrelated.pending key hkey,
    hrelated.rows key hkey]

omit [DecidableEq Connection] in
/-- The transactions of others hold no row of the tenant. -/
theorem pending_elsewhere
    (hrelated : Related pool home tenant state other) {owner : Owner}
    (hserving : (state.link connection).serving = some owner)
    (howner : owner ≠ .tenant tenant) {key : RowKey Id}
    (hkey : home key = tenant) {holder : Connection}
    {version : Option (Row Id Cells)}
    (hpending : state.table.pending key = some (holder, version)) :
    holder ≠ connection := by
  rintro rfl
  have hheld := hrelated.confined.holders key holder version hpending
  rw [hserving, hkey] at hheld
  exact howner (Option.some.inj hheld)

theorem finish_elsewhere
    (hrelated : Related pool home tenant state other) {owner : Owner}
    (hserving : (state.link connection).serving = some owner)
    (howner : owner ≠ .tenant tenant) (key : RowKey Id)
    (hkey : home key = tenant) :
    (state.table.finish connection).pending key = state.table.pending key := by
  cases hpending : state.table.pending key with
  | none => simp [PendingRows.finish, hpending]
  | some held =>
      have hne := hrelated.pending_elsewhere hserving howner hkey hpending
      simp [PendingRows.finish, hpending, hne]

theorem commit_elsewhere
    (hrelated : Related pool home tenant state other) {owner : Owner}
    (hserving : (state.link connection).serving = some owner)
    (howner : owner ≠ .tenant tenant) (key : RowKey Id)
    (hkey : home key = tenant) :
    (state.table.commit connection).rows key = state.table.rows key := by
  cases hpending : state.table.pending key with
  | none => simp [PendingRows.commit, hpending]
  | some held =>
      have hne := hrelated.pending_elsewhere hserving howner hkey hpending
      simp [PendingRows.commit, hpending, hne]

/-- A connection which serves somebody else is idle in the second run, and
stays so. -/
theorem links_dropped
    (hrelated : Related pool home tenant state other)
    (connection : Connection) (link : Link)
    (hbefore : (state.link connection).serving ≠ some (.tenant tenant))
    (hafter : link.serving ≠ some (.tenant tenant)) :
    (∀ at_, ((state.setLink connection link).link at_).serving =
        some (.tenant tenant) →
      other.link at_ = (state.setLink connection link).link at_) ∧
    ∀ at_, ((state.setLink connection link).link at_).serving ≠
        some (.tenant tenant) →
      (other.link at_).serving = none := by
  simp only [State.setLink_link]
  constructor <;> intro at_ hserving <;> split at hserving
  · exact absurd hserving hafter
  · rename_i hne
    rw [if_neg hne]
    exact hrelated.serving at_ hserving
  · rename_i heq
    exact heq ▸ hrelated.idle connection hbefore
  · exact hrelated.idle at_ hserving

omit [DecidableEq Connection] in
/-- A session of the tenant has the same setting in both runs, and may see the
same. -/
theorem setting_eq
    (hrelated : Related pool home tenant state other)
    (hserving : (state.link connection).serving = some (.tenant tenant))
    (current : Uuid)
    (hcurrent : currentTenant (state.link connection).setting = some current) :
    current = tenant :=
  (Owner.tenant.inj (hrelated.confined.owner_eq hserving hcurrent)).symm

theorem stays
    (hrelated : Related pool home tenant state other)
    {operation : Operation Id Cells}
    (hserving : ∀ statement refused, operation = .execute statement refused →
      (state.link connection).serving = some (.tenant tenant))
    (hstays : StaysHome pool home state
      ⟨connection, .tenant tenant, operation⟩) :
    StaysHome pool home other ⟨connection, .tenant tenant, operation⟩ := by
  cases operation with
  | execute statement refused =>
      have hserved := hserving statement refused rfl
      have happ := Owner.eq_app_of_fits (by simp)
        (hrelated.confined.pools connection _ hserved)
      have hvisible := visible_congr (hrelated.confined.seen connection)
        (hrelated.alone.seen connection) (hrelated.seen connection)
        (hrelated.setting_eq hserved)
      simp only [StaysHome] at hstays ⊢
      rwa [hrelated.serving connection hserved, happ, ← hvisible, ← happ]
  | checkout => trivial
  | commit => trivial
  | rollback => trivial
  | close => trivial

theorem fail_alike
    (hrelated : Related pool home tenant state other)
    (hserving : (state.link connection).serving = some (.tenant tenant)) :
    Alike home tenant (state.fail connection (.tenant tenant))
      (other.fail connection (.tenant tenant)) := by
  have hlinks := hrelated.links connection
    { state.link connection with aborted := true }
    { other.link connection with aborted := true }
    (fun _ => by rw [hrelated.serving connection hserving])
    (fun hne => absurd hserving hne)
  exact
    { rows := hrelated.rows
      pending := hrelated.pending
      serving := hlinks.1
      idle := hlinks.2
      log := by simp [State.fail, hrelated.log] }

/-- An entry of the tenant is held in both runs or in none. -/
theorem entryHeld_alike
    (hrelated : Related pool home tenant state other) {key : RowKey Id}
    {row : Row Id Cells} (hrow : AtHome home key row)
    (hkey : home key = tenant) (at_ : RowKey Id) :
    state.entryHeld connection row at_ = other.entryHeld connection row at_ := by
  have helsewhere : ∀ run : State Connection Id Cells,
      Confined pool home run → home at_ ≠ tenant →
        run.entryHeld connection row at_ = false := by
    intro run hrun hat
    have hshares : ∀ held, AtHome home at_ held →
        row.sharesEntry held = false := by
      intro held hheld
      rw [Bool.eq_false_iff]
      exact fun hentry =>
        hat ((hrow.eq_of_sharesEntry hheld hentry).symm.trans hkey)
    have hrows : (run.table.rows at_).any row.sharesEntry = false := by
      rw [Option.any_eq_false]
      exact fun held hheld => hshares held (hrun.rows at_ held hheld)
    have hpending : ((run.table.pending at_).any fun write =>
        write.2.any row.sharesEntry) = false := by
      rw [Option.any_eq_false]
      intro write hwrite
      rw [Option.any_eq_false]
      exact fun held hheld =>
        hshares held (hrun.versions at_ write.1 write.2 hwrite held hheld)
    rw [State.entryHeld, hrows, hpending, Bool.or_false, Bool.and_false]
  by_cases hat : home at_ = tenant
  · simp only [State.entryHeld, State.heldByOther, hrelated.rows at_ hat,
      hrelated.pending at_ hat]
  · rw [helsewhere state hrelated.confined hat,
      helsewhere other hrelated.alone hat]

theorem unheld_alike
    (hrelated : Related pool home tenant state other)
    (connection : Connection) {outcome : Outcome Id Cells} (hwritten : outcome.WrittenAt home tenant) :
    state.Unheld connection outcome ↔ other.Unheld connection outcome := by
  refine forall₂_congr fun key hkey => ?_
  obtain ⟨version, hversion⟩ := Option.isSome_iff_exists.mp hkey
  obtain ⟨hhome, hrows⟩ := hwritten key version hversion
  have hheld : state.heldByOther connection key =
      other.heldByOther connection key := by
    rw [State.heldByOther, State.heldByOther, hrelated.pending key hhome]
  have hover : ∀ rows : Rows Id Cells, outcome.over rows key = version := by
    intro rows
    rw [Outcome.over, hversion, Option.getD_some]
  rw [hheld, hover, hover]
  refine and_congr_right fun _ => forall_congr' fun at_ => ?_
  cases version with
  | none => exact Iff.rfl
  | some row =>
      rw [Option.all_some, Option.all_some,
        hrelated.entryHeld_alike (hrows row rfl) hhome at_]

variable [Fintype Id] [DecidableEq Id]

theorem execute_alike
    (hrelated : Related pool home tenant state other)
    {statement : Statement Id Cells}
    (hserving : (state.link connection).serving = some (.tenant tenant))
    (hstays : StaysHome pool home state
      ⟨connection, .tenant tenant, .execute statement false⟩)
    (hstep : state.execute (pool connection) connection (.tenant tenant)
      statement = some next) :
    ∃ after, other.execute (pool connection) connection (.tenant tenant)
        statement = some after ∧ Alike home tenant next after := by
  have happ := Owner.eq_app_of_fits (by simp)
    (hrelated.confined.pools connection _ hserving)
  have hsame : statement.perform (pool connection)
        (state.link connection).setting (state.seen connection) =
      statement.perform (pool connection)
        (other.link connection).setting (other.seen connection) := by
    rw [hrelated.serving connection hserving, happ]
    refine perform_congr (hrelated.confined.seen connection)
      (hrelated.alone.seen connection) (hrelated.seen connection)
      (hrelated.setting_eq hserving) ?_
    simp only [StaysHome] at hstays
    rwa [happ] at hstays
  cases hperform : statement.perform (pool connection)
      (state.link connection).setting (state.seen connection) with
  | none =>
      have hnext : state.fail connection (.tenant tenant) = next := by
        simpa only [State.execute, hperform, Option.some.injEq] using hstep
      refine ⟨other.fail connection (.tenant tenant), ?_, ?_⟩
      · simp only [State.execute, ← hsame, hperform]
      · exact hnext ▸ hrelated.fail_alike hserving
  | some outcome =>
      have hwritten : outcome.WrittenAt home tenant := by
        intro key version hversion
        have hrow := hrelated.confined.perform_written hserving hstays hperform
          key version hversion
        exact ⟨(Owner.tenant.inj hrow.1).symm, hrow.2⟩
      have hunheld := hrelated.unheld_alike connection hwritten
      have hclashes := clashes_congr hwritten
        (hrelated.confined.seen connection) (hrelated.alone.seen connection)
        (hrelated.seen connection)
      simp only [State.execute, hperform] at hstep
      simp only [State.execute, ← hsame, hperform, ← hunheld, ← hclashes]
      split at hstep
      next hfree =>
        rw [if_pos hfree]
        split at hstep
        next hclash =>
          rw [if_pos hclash]
          exact ⟨_, rfl, Option.some.inj hstep ▸ hrelated.fail_alike hserving⟩
        next hclash =>
          rw [if_neg hclash]
          refine ⟨_, rfl, ?_⟩
          obtain rfl := Option.some.inj hstep
          exact
            { rows := hrelated.rows
              pending := fun key hkey => by
                simp only [State.write, hrelated.pending key hkey]
              serving := hrelated.serving
              idle := hrelated.idle
              log := by simp [State.write, hrelated.log] }
      · contradiction

/-- An action of the tenant is answered alike in both runs. -/
theorem kept
    (hrelated : Related pool home tenant state other)
    (howner : action.owner = .tenant tenant)
    (hstays : StaysHome pool home state action)
    (hstep : (machine Id Cells pool).step state action = some next) :
    ∃ after, (machine Id Cells pool).step other action = some after ∧
      Related pool home tenant next after := by
  obtain ⟨connection, owner, operation⟩ := action
  subst howner
  suffices halike : StaysHome pool home other
        ⟨connection, .tenant tenant, operation⟩ ∧
      ∃ after, (machine Id Cells pool).step other
        ⟨connection, .tenant tenant, operation⟩ = some after ∧
          Alike home tenant next after by
    obtain ⟨hstaysAlone, after, hafter, hnext⟩ := halike
    exact ⟨after, hafter, hnext, hrelated.confined.step hstays hstep,
      hrelated.alone.step hstaysAlone hafter⟩
  cases operation with
  | checkout =>
      refine ⟨trivial, ?_⟩
      simp only [machine, State.step] at hstep ⊢
      split at hstep
      · rename_i hfree
        cases hstep
        have hidle := hrelated.idle connection (by simp [hfree.1])
        rw [if_pos ⟨hidle, hfree.2⟩]
        have hlinks := hrelated.links connection
          ⟨some (uuidText tenant), some (.tenant tenant), false⟩
          ⟨some (uuidText tenant), some (.tenant tenant), false⟩
          (fun _ => rfl) (fun hne => absurd rfl hne)
        exact ⟨_, rfl, hrelated.rows, hrelated.pending, hlinks.1, hlinks.2,
          hrelated.log⟩
      · contradiction
  | execute statement refused =>
      simp only [machine, State.step] at hstep ⊢
      split at hstep
      · rename_i hserving
        refine ⟨hrelated.stays (fun _ _ _ => hserving) hstays, ?_⟩
        have hlink := hrelated.serving connection hserving
        rw [hlink, if_pos hserving]
        split at hstep
        · rename_i hfailed
          cases hstep
          rw [if_pos hfailed]
          exact ⟨_, rfl, hrelated.fail_alike hserving⟩
        · rename_i hfailed
          rw [if_neg hfailed]
          exact hrelated.execute_alike hserving hstays hstep
      · contradiction
  | commit =>
      refine ⟨trivial, ?_⟩
      simp only [machine, State.step] at hstep ⊢
      split at hstep
      · rename_i hserving
        cases hstep
        have hlink := hrelated.serving connection hserving
        rw [hlink, if_pos hserving]
        have hlinks := hrelated.links connection
          (state.link connection).ended (state.link connection).ended
          (fun _ => rfl) (fun hne => absurd hserving hne)
        refine ⟨_, rfl, ?_, ?_, hlinks.1, hlinks.2, hrelated.log⟩
        · split
          · exact hrelated.rows
          · exact hrelated.commit_rows
        · split
          · exact hrelated.finish_pending
          · exact hrelated.finish_pending
      · contradiction
  | rollback =>
      refine ⟨trivial, ?_⟩
      simp only [machine, State.step] at hstep ⊢
      split at hstep
      · rename_i hserving
        cases hstep
        have hlink := hrelated.serving connection hserving
        rw [hlink, if_pos hserving]
        have hlinks := hrelated.links connection
          (state.link connection).ended (state.link connection).ended
          (fun _ => rfl) (fun hne => absurd hserving hne)
        exact ⟨_, rfl, hrelated.rows, hrelated.finish_pending, hlinks.1,
          hlinks.2, hrelated.log⟩
      · contradiction
  | close =>
      refine ⟨trivial, ?_⟩
      simp only [machine, State.step] at hstep ⊢
      split at hstep
      · rename_i hserving
        cases hstep
        have hlink := hrelated.serving connection hserving
        rw [hlink, if_pos hserving]
        have hlinks := hrelated.links connection
          { (state.link connection).ended with serving := none }
          { (state.link connection).ended with serving := none }
          (fun _ => rfl) (fun _ => rfl)
        exact ⟨_, rfl, hrelated.rows, hrelated.finish_pending, hlinks.1,
          hlinks.2, hrelated.log⟩
      · contradiction

/-- An action of somebody else is not seen in the second run. -/
theorem dropped
    (hrelated : Related pool home tenant state other)
    (howner : action.owner ≠ .tenant tenant)
    (hstays : StaysHome pool home state action)
    (hstep : (machine Id Cells pool).step state action = some next) :
    Related pool home tenant next other := by
  suffices halike : Alike home tenant next other from
    ⟨halike, hrelated.confined.step hstays hstep, hrelated.alone⟩
  obtain ⟨connection, owner, operation⟩ := action
  have hother : ∀ serving, serving = some owner →
      serving ≠ some (.tenant tenant) := fun serving hserving htenant =>
    howner (Option.some.inj (hserving.symm.trans htenant))
  cases operation with
  | checkout =>
      simp only [machine, State.step] at hstep
      split at hstep
      · rename_i hfree
        cases hstep
        have hlinks := hrelated.links_dropped connection
          ⟨owner.opening (state.link connection).setting, some owner, false⟩
          (by simp [hfree.1]) (hother _ rfl)
        exact ⟨hrelated.rows, hrelated.pending, hlinks.1, hlinks.2,
          hrelated.log⟩
      · contradiction
  | execute statement refused =>
      have hfail : (state.link connection).serving = some owner →
          Alike home tenant (state.fail connection owner) other := by
        intro hserving
        have hlinks := hrelated.links_dropped connection
          { state.link connection with aborted := true }
          (hother _ hserving) (hother _ hserving)
        exact ⟨hrelated.rows, hrelated.pending, hlinks.1, hlinks.2,
          by simpa [State.fail, howner] using hrelated.log⟩
      simp only [machine, State.step] at hstep
      split at hstep
      · rename_i hserving
        split at hstep
        · cases hstep
          exact hfail hserving
        · rcases State.execute_cases hstep with rfl | ⟨outcome, hperform, rfl⟩
          · exact hfail hserving
          · refine ⟨hrelated.rows, fun key hkey => ?_, hrelated.serving,
              hrelated.idle, by simpa [State.write, howner] using hrelated.log⟩
            rw [← hrelated.pending key hkey]
            cases hversion : outcome.written key with
            | none => simp only [State.write, hversion]
            | some version =>
                have hrow := hrelated.confined.perform_written hserving
                  hstays hperform key version hversion
                exact absurd (hkey ▸ hrow.1) howner
      · contradiction
  | commit =>
      simp only [machine, State.step] at hstep
      split at hstep
      · rename_i hserving
        cases hstep
        have hlinks := hrelated.links_dropped connection
          (state.link connection).ended (hother _ hserving) (hother _ hserving)
        have hfinish := hrelated.finish_elsewhere hserving howner
        have hcommit := hrelated.commit_elsewhere hserving howner
        refine ⟨fun key hkey => ?_, fun key hkey => ?_, hlinks.1, hlinks.2,
          hrelated.log⟩
        · rw [← hrelated.rows key hkey]
          split
          · rfl
          · exact hcommit key hkey
        · rw [← hrelated.pending key hkey]
          split
          · exact hfinish key hkey
          · exact hfinish key hkey
      · contradiction
  | rollback =>
      simp only [machine, State.step] at hstep
      split at hstep
      · rename_i hserving
        cases hstep
        have hlinks := hrelated.links_dropped connection
          (state.link connection).ended (hother _ hserving) (hother _ hserving)
        have hfinish := hrelated.finish_elsewhere hserving howner
        refine ⟨hrelated.rows, fun key hkey => ?_, hlinks.1, hlinks.2,
          hrelated.log⟩
        rw [← hrelated.pending key hkey]
        exact hfinish key hkey
      · contradiction
  | close =>
      simp only [machine, State.step] at hstep
      split at hstep
      · rename_i hserving
        cases hstep
        have hlinks := hrelated.links_dropped connection
          { (state.link connection).ended with serving := none }
          (hother _ hserving) (by simp)
        have hfinish := hrelated.finish_elsewhere hserving howner
        refine ⟨hrelated.rows, fun key hkey => ?_, hlinks.1, hlinks.2,
          hrelated.log⟩
        rw [← hrelated.pending key hkey]
        exact hfinish key hkey
      · contradiction

end Related

theorem linked_of_initial
    [Fintype Id] [DecidableEq Id]
    (hinitial : (machine Id Cells pool).Initial state) : Linked pool state where
  settings at_ named hnamed := by
    simp [hinitial.2.1 at_, currentTenant] at hnamed
  pools at_ owner howner := by simp [hinitial.2.1 at_] at howner
  answers entry hentry := by simp [hinitial.2.2] at hentry

/-- Two initial states whose databases have the same rows of a tenant. -/
theorem related_of_initial
    [Fintype Id] [DecidableEq Id]
    (hinitial : (machine Id Cells pool).Initial state)
    (halone : (machine Id Cells pool).Initial other)
    (hsettled : Settled home state.table.rows)
    (hsettledAlone : Settled home other.table.rows)
    (hagree : AgreeAt home tenant state.table.rows other.table.rows) :
    Related pool home tenant state other := by
  have hconfined : ∀ start : State Connection Id Cells,
      (machine Id Cells pool).Initial start →
        Settled home start.table.rows → Confined pool home start := by
    intro start hstart hrows
    have hlinked := linked_of_initial hstart
    exact
      { toLinked := hlinked
        rows := hrows
        versions := fun key _ _ hheld => by simp [hstart.1 key] at hheld
        holders := fun key _ _ hheld => by simp [hstart.1 key] at hheld }
  exact
    { rows := hagree
      pending := fun key _ => (hinitial.1 key).trans (halone.1 key).symm
      serving := fun at_ hserving => by simp [hinitial.2.1 at_] at hserving
      idle := fun at_ _ => by simp [halone.2.1 at_]
      log := by simp [hinitial.2.2, halone.2.2]
      confined := hconfined state hinitial hsettled
      alone := hconfined other halone hsettledAlone }

end Runs

/-- Whatever has used the connections before, a session is answered with rows of
its tenant only; without a context it is answered with none, and the lookups
read nothing but their own tables. -/
theorem answers_confined
    {Id Cells Connection : Type} [Fintype Id] [DecidableEq Id]
    [DecidableEq Connection]
    (pool : Connection → PoolRole) (state : State Connection Id Cells)
    (hreach : (machine Id Cells pool).Reachable state)
    (owner : Owner) (connection : Connection) (returned : Rows Id Cells)
    (hanswer : (owner, connection, some returned) ∈ state.log)
    (key : RowKey Id) (row : Row Id Cells) (hrow : returned key = some row) :
    owner = .tenant row.tenantId ∨
      (owner = .lookup ∧ lookupPolicy (pool connection) key.1 = true) := by
  have hlinked : Linked pool state :=
    hreach.invariant (fun _ => linked_of_initial) fun _ _ _ hbefore hstep =>
      hbefore.step hstep
  have hanswered := hlinked.answers _ hanswer returned rfl key row hrow
  cases owner with
  | tenant id => exact .inl (congrArg Owner.tenant hanswered.symm)
  | bare => exact absurd hanswered id
  | lookup => exact .inr ⟨rfl, hanswered⟩

def Action.ofTenant (tenant : Uuid) (action : Action Connection Id Cells) :
    Bool :=
  action.owner = .tenant tenant

/-- The answers to a tenant and its rows are those of the run in which nobody
else acts, also from a database with other rows of the others. -/
theorem tenants_noninterference
    {Id Cells Connection : Type} [Fintype Id] [DecidableEq Id]
    [DecidableEq Connection]
    (pool : Connection → PoolRole) (home : Homes Id) (tenant : Uuid)
    (state other : State Connection Id Cells)
    (hinitial : (machine Id Cells pool).Initial state)
    (halone : (machine Id Cells pool).Initial other)
    (hsettled : Settled home state.table.rows)
    (hsettledAlone : Settled home other.table.rows)
    (hagree : AgreeAt home tenant state.table.rows other.table.rows)
    (actions : List (Action Connection Id Cells))
    (hstays : (machine Id Cells pool).AllowedAlong (StaysHome pool home)
      state actions)
    (final : State Connection Id Cells)
    (hrun : (machine Id Cells pool).run state actions = some final) :
    ∃ purged, (machine Id Cells pool).run other
        (actions.filter (Action.ofTenant tenant)) = some purged ∧
      (purged.log =
        final.log.filter fun entry => decide (entry.1 = .tenant tenant)) ∧
      AgreeAt home tenant final.table.rows purged.table.rows := by
  have hrelated : Related pool home tenant state other :=
    related_of_initial hinitial halone hsettled hsettledAlone hagree
  have hkept : ∀ before alone (action : Action Connection Id Cells) after,
      Related pool home tenant before alone →
        action.ofTenant tenant = true → StaysHome pool home before action →
          (machine Id Cells pool).step before action = some after →
            ∃ next, (machine Id Cells pool).step alone action = some next ∧
              Related pool home tenant after next :=
    fun _ _ _ _ hbetween howner hallowed hstep =>
      hbetween.kept (of_decide_eq_true howner) hallowed hstep
  have hdropped : ∀ before alone (action : Action Connection Id Cells) after,
      Related pool home tenant before alone →
        action.ofTenant tenant = false → StaysHome pool home before action →
          (machine Id Cells pool).step before action = some after →
            Related pool home tenant after alone :=
    fun _ _ _ _ hbetween howner hallowed hstep =>
      hbetween.dropped (of_decide_eq_false howner) hallowed hstep
  obtain ⟨purged, hpurged, hfinal⟩ :=
    Machine.exists_run_filter hkept hdropped hrelated hstays hrun
  exact ⟨purged, hpurged, hfinal.log, hfinal.rows⟩

/-! ## A connection of two tenants -/

/-- The slugs of the receivers of the two tenants. -/
def slugOf (id : Fin 2) : UniqueEntry :=
  ⟨"receivers.slug".toList, if id = 0 then ['a'] else ['b']⟩

def twoHomes : Homes (Fin 2) where
  key key := if key.2 = 0 then 1 else 2
  entry entry := if entry = slugOf 0 then 1 else 2

/-- A receiver of each tenant, or of the first only. -/
def receiversOf (ids : Finset (Fin 2)) : Rows (Fin 2) ℕ := fun key =>
  if key.1 = .receivers ∧ key.2 ∈ ids then
    some ⟨twoHomes key, [], [slugOf key.2], 0⟩
  else none

theorem entry_slugOf (id : Fin 2) :
    twoHomes.entry (slugOf id) = if id = 0 then 1 else 2 := by
  fin_cases id <;> decide

def unusedPool (rows : Rows (Fin 2) ℕ) : State (Fin 1) (Fin 2) ℕ :=
  ⟨.atRest rows, fun _ => ⟨none, none, false⟩, []⟩

theorem unusedPool_initial (rows : Rows (Fin 2) ℕ) :
    (machine (Fin 2) ℕ fun _ : Fin 1 => .app).Initial (unusedPool rows) :=
  ⟨fun _ => rfl, fun _ => rfl, rfl⟩

theorem receiversOf_settled (ids : Finset (Fin 2)) :
    Settled twoHomes (receiversOf ids) := by
  intro key row hrow
  unfold receiversOf at hrow
  split at hrow
  · cases hrow
    refine ⟨rfl, by simp, fun entry hentry => ?_⟩
    rw [List.mem_singleton.mp hentry]
    exact entry_slugOf key.2
  · contradiction

/-- The second tenant stores a notification; the first one lists the receivers
on the same connection and raises its own. -/
def sharedConnection : List (Action (Fin 1) (Fin 2) ℕ) :=
  [⟨0, .tenant 2, .checkout⟩,
    ⟨0, .tenant 2, .execute (.insert .notifications 1 fun _ =>
      ⟨2, [⟨(.receivers, 1), .cascade⟩], [], 5⟩) false⟩,
    ⟨0, .tenant 2, .commit⟩, ⟨0, .tenant 2, .close⟩,
    ⟨0, .tenant 1, .checkout⟩,
    ⟨0, .tenant 1, .execute (.select .receivers fun _ _ _ => true) false⟩,
    ⟨0, .tenant 1, .execute (.update .receivers (fun _ _ _ => true)
      fun _ _ row => ⟨row.tenantId, [], [slugOf 0], row.cells + 1⟩) false⟩,
    ⟨0, .tenant 1, .commit⟩, ⟨0, .tenant 1, .close⟩]

theorem sharedConnection_stays (state : State (Fin 1) (Fin 2) ℕ) :
    (machine (Fin 2) ℕ fun _ : Fin 1 => .app).AllowedAlong
      (StaysHome (fun _ => .app) twoHomes) state sharedConnection := by
  refine Machine.allowedAlong_of_forall _ (fun action hmem current => ?_) state
  simp only [sharedConnection, List.mem_cons, List.not_mem_nil, or_false] at hmem
  rcases hmem with rfl | rfl | rfl | rfl | rfl | rfl | rfl | rfl | rfl <;>
    simp [StaysHome, Statement.StaysHome, twoHomes]

theorem tenants_noninterference_sharedConnection :
    ∃ final purged,
      (machine (Fin 2) ℕ fun _ : Fin 1 => .app).run
          (unusedPool (receiversOf {0, 1})) sharedConnection = some final ∧
        (machine (Fin 2) ℕ fun _ : Fin 1 => .app).run
          (unusedPool (receiversOf {0}))
          (sharedConnection.filter (Action.ofTenant 1)) = some purged ∧
        purged.log.length = 2 ∧
        AgreeAt twoHomes 1 final.table.rows purged.table.rows := by
  obtain ⟨final, hrun, hlog⟩ : ∃ final,
      (machine (Fin 2) ℕ fun _ : Fin 1 => .app).run
          (unusedPool (receiversOf {0, 1})) sharedConnection = some final ∧
        (final.log.filter fun entry =>
          decide (entry.1 = .tenant 1)).length = 2 :=
    ⟨_, rfl, by decide⟩
  have hagree : AgreeAt twoHomes 1 (receiversOf {0, 1}) (receiversOf {0}) := by
    intro key hkey
    have hzero : key.2 = 0 := by
      by_contra hne
      simp [twoHomes, hne] at hkey
    simp [receiversOf, hzero]
  obtain ⟨purged, hpurged, hsame, hrows⟩ :=
    tenants_noninterference (fun _ : Fin 1 => .app) twoHomes 1
      (unusedPool (receiversOf {0, 1})) (unusedPool (receiversOf {0}))
      (unusedPool_initial _) (unusedPool_initial _) (receiversOf_settled _)
      (receiversOf_settled _) hagree sharedConnection
      (sharedConnection_stays _) final hrun
  exact ⟨final, purged, hrun, hpurged, hsame ▸ hlog, hrows⟩

theorem answers_confined_sharedConnection :
    ∃ final returned row,
      (machine (Fin 2) ℕ fun _ : Fin 1 => .app).run
          (unusedPool (receiversOf {0, 1})) sharedConnection = some final ∧
        (Owner.tenant 1, (0 : Fin 1), some returned) ∈ final.log ∧
        returned (.receivers, 0) = some row ∧ row.tenantId = 1 := by
  obtain ⟨final, returned, row, hrun, hentry, hrow⟩ : ∃ final returned row,
      (machine (Fin 2) ℕ fun _ : Fin 1 => .app).run
          (unusedPool (receiversOf {0, 1})) sharedConnection = some final ∧
        final.log[1]? = some (Owner.tenant 1, (0 : Fin 1), some returned) ∧
        returned (.receivers, 0) = some row :=
    ⟨_, _, _, rfl, rfl, rfl⟩
  have hreach : (machine (Fin 2) ℕ fun _ : Fin 1 => .app).Reachable final :=
    .run (.initial (unusedPool_initial _)) hrun
  have hmem := List.mem_of_getElem? hentry
  rcases answers_confined (fun _ : Fin 1 => .app) final hreach _ _ _ hmem _ _
    hrow with hown | hlookup
  · exact ⟨final, returned, row, hrun, hmem, hrow,
      (Owner.tenant.inj hown).symm⟩
  · exact absurd hlookup.1 (by simp)

/-! ## An address of another tenant -/

def addressOf : UniqueEntry := ⟨"users.email".toList, "a@x".toList⟩

/-- A user of the second tenant, or nobody. -/
def usersOf (ids : Finset (Fin 2)) : Rows (Fin 2) ℕ := fun key =>
  if key.1 = .users ∧ key.2 ∈ ids then some ⟨2, [], [addressOf], 0⟩ else none

/-- The first tenant adds a user with the address. -/
def addUser : List (Action (Fin 1) (Fin 2) ℕ) :=
  [⟨0, .tenant 1, .checkout⟩,
    ⟨0, .tenant 1, .execute (.insert .users 0 fun _ =>
      ⟨1, [], [addressOf], 0⟩) false⟩]

/-- The refusal tells the first tenant of the user of the second. -/
theorem address_taken :
    ∀ ids, ids = {1} ∨ ids = ∅ → ∃ final,
      (machine (Fin 2) ℕ fun _ : Fin 1 => .app).run
          (unusedPool (usersOf ids)) addUser = some final ∧
        final.log.map (fun entry => entry.2.2.isNone) = [decide (ids = {1})] := by
  rintro ids (rfl | rfl)
  · exact ⟨_, rfl, by decide⟩
  · exact ⟨_, rfl, by decide⟩

end NotifyHub.RowSecurity
