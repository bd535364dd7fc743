import NotifyHub.IngestAwaitPoints
import NotifyHub.RowLocks
import NotifyHub.TransitionMachine
import Mathlib.Tactic

/-!
# Quotas of one tenant

`enforce_tenant_quotas` inside the ingestions of a tenant, beside the passes
of `check_expected_schedules`, which insert without asking, and the PATCH of
the tenant, which changes the limits.  An ingestion whose body stays inline
checks once and inserts in the same transaction; one whose body goes to the
object store checks in a first transaction, uploads, and checks again in the
transaction which inserts.  Notifications may be deleted at any time.
-/

namespace NotifyHub

/-- The columns of `notifications` which the quotas look at. -/
structure QuotaRow where
  receivedAt : Instant
  contentSize : ℕ
  deriving DecidableEq, Repr

structure QuotaStore where
  limits : QuotaLimits
  notifications : List QuotaRow
  deriving DecidableEq

def QuotaStore.countSince (store : QuotaStore) (since : Instant) : ℕ :=
  store.notifications.countP fun row => since ≤ row.receivedAt

def QuotaStore.usedBytes (store : QuotaStore) : ℕ :=
  (store.notifications.map QuotaRow.contentSize).sum

/-- The check before the upload, or the check before the insertion. -/
inductive QuotaStage
  | beforeUpload
  | beforeInsert
  deriving DecidableEq, Repr

/-- From `checking` to `admitted` an ingestion is inside
`enforce_tenant_quotas`; `since` is the bound of its last daily count. -/
inductive QuotaPhase
  | idle
  | checking (stage : QuotaStage) (incomingBytes : ℕ)
  | locking (stage : QuotaStage) (incomingBytes : ℕ)
  | counting (stage : QuotaStage) (incomingBytes : ℕ) (limits : QuotaLimits)
  | summing
      (stage : QuotaStage) (incomingBytes : ℕ) (limits : QuotaLimits)
      (since : Option Instant)
  | admitted
      (stage : QuotaStage) (incomingBytes : ℕ) (since : Option Instant)
  | inserted (row : QuotaRow) (since : Option Instant)
  | watching (now : Instant) (rows : List QuotaRow)
  | configuring (limits : QuotaLimits)
  | committed
  | refused (problem : Problem)
  | failed
  deriving DecidableEq

def QuotaPhase.isOpen : QuotaPhase → Bool
  | .idle | .committed | .refused _ | .failed => false
  | _ => true

structure QuotaState (Process : Type*) where
  store : QuotaStore
  tenantLock : RowLock Process
  phase : Process → QuotaPhase

inductive QuotaAction (Process : Type*)
  | ingest (process : Process) (incomingBytes : ℕ)
  | readLimits (process : Process)
  | lockTenant (process : Process)
  | count (process : Process) (now : Instant)
  | sum (process : Process)
  | upload (process : Process)
  | insert (process : Process) (now : Instant)
  | watch (process : Process) (now : Instant)
  | synthesize (process : Process) (contentSize : ℕ)
  | configure (process : Process) (limits : QuotaLimits)
  | commit (process : Process)
  | fail (process : Process)
  | discard (row : QuotaRow)

variable {Process : Type*} [DecidableEq Process]

namespace QuotaState

def goto
    (state : QuotaState Process) (process : Process) (phase : QuotaPhase) :
    QuotaState Process :=
  { state with phase := Function.update state.phase process phase }

/-- The end of a transaction. -/
def finish
    (state : QuotaState Process) (process : Process) (phase : QuotaPhase) :
    QuotaState Process :=
  { state with
    tenantLock := state.tenantLock.release process
    phase := Function.update state.phase process phase }

def lock
    (state : QuotaState Process) (process : Process) (mode : LockMode)
    (phase : QuotaPhase) : Option (QuotaState Process) :=
  (state.tenantLock.acquire process mode).map fun lock =>
    { state with tenantLock := lock }.goto process phase

/-- The daily quota. -/
def count
    (state : QuotaState Process) (process : Process) (now : Instant)
    (stage : QuotaStage) (incomingBytes : ℕ) (limits : QuotaLimits) :
    QuotaState Process :=
  match limits.maxNotificationsPerDay with
  | none => state.goto process (.summing stage incomingBytes limits none)
  | some limit =>
      let since := now - microsecondsPerDay
      if limit ≤ state.store.countSince since then
        state.finish process (.refused dailyQuotaExceeded)
      else
        state.goto process
          (.summing stage incomingBytes limits (some since))

/-- The storage quota. -/
def sum
    (state : QuotaState Process) (process : Process) (stage : QuotaStage)
    (incomingBytes : ℕ) (limits : QuotaLimits) (since : Option Instant) :
    QuotaState Process :=
  match limits.maxStorageBytes with
  | none => state.goto process (.admitted stage incomingBytes since)
  | some limit =>
      if limit < state.store.usedBytes + incomingBytes then
        state.finish process (.refused storageQuotaExceeded)
      else state.goto process (.admitted stage incomingBytes since)

def commit
    (state : QuotaState Process) (process : Process) :
    Option (QuotaState Process) :=
  match state.phase process with
  | .inserted row _ =>
      some
        { state.finish process .committed with
          store :=
            { state.store with
              notifications := row :: state.store.notifications } }
  | .watching _ rows =>
      some
        { state.finish process .committed with
          store :=
            { state.store with
              notifications := rows ++ state.store.notifications } }
  | .configuring limits =>
      some
        { state.finish process .committed with
          store := { state.store with limits := limits } }
  | _ => none

/-- `inlineMaxBytes` is `settings.notifyhub_inline_max_bytes`. -/
def step
    (inlineMaxBytes : ℕ) (state : QuotaState Process) :
    QuotaAction Process → Option (QuotaState Process)
  | .ingest process incomingBytes =>
      match state.phase process with
      | .idle =>
          if inlineMaxBytes < incomingBytes then
            some (state.goto process (.checking .beforeUpload incomingBytes))
          else
            some (state.goto process (.checking .beforeInsert incomingBytes))
      | _ => none
  | .readLimits process =>
      match state.phase process with
      | .checking stage incomingBytes =>
          if state.store.limits = .unlimited then
            some (state.goto process (.admitted stage incomingBytes none))
          else some (state.goto process (.locking stage incomingBytes))
      | _ => none
  | .lockTenant process =>
      match state.phase process with
      | .locking stage incomingBytes =>
          state.lock process .forUpdate
            (.counting stage incomingBytes state.store.limits)
      | _ => none
  | .count process now =>
      match state.phase process with
      | .counting stage incomingBytes limits =>
          some (state.count process now stage incomingBytes limits)
      | _ => none
  | .sum process =>
      match state.phase process with
      | .summing stage incomingBytes limits since =>
          some (state.sum process stage incomingBytes limits since)
      | _ => none
  | .upload process =>
      match state.phase process with
      | .admitted .beforeUpload incomingBytes _ =>
          some (state.finish process (.checking .beforeInsert incomingBytes))
      | _ => none
  | .insert process now =>
      match state.phase process with
      | .admitted .beforeInsert incomingBytes since =>
          state.lock process .keyShare
            (.inserted ⟨now, incomingBytes⟩ since)
      | _ => none
  | .watch process now =>
      match state.phase process with
      | .idle => state.lock process .noKeyUpdate (.watching now [])
      | _ => none
  | .synthesize process contentSize =>
      match state.phase process with
      | .watching now rows =>
          state.lock process .keyShare
            (.watching now (⟨now, contentSize⟩ :: rows))
      | _ => none
  | .configure process limits =>
      match state.phase process with
      | .idle => state.lock process .noKeyUpdate (.configuring limits)
      | _ => none
  | .commit process => state.commit process
  | .fail process =>
      if (state.phase process).isOpen then
        some (state.finish process .failed)
      else none
  | .discard row =>
      some
        { state with
          store :=
            { state.store with
              notifications := state.store.notifications.erase row } }

omit [DecidableEq Process] in
structure Quiet (state : QuotaState Process) : Prop where
  phase : ∀ process, state.phase process = .idle
  tenantLock : state.tenantLock = .free

end QuotaState

def quotaMachine
    (inlineMaxBytes : ℕ) (Process : Type*) [DecidableEq Process] :
    Machine (QuotaState Process) (QuotaAction Process) where
  Initial := QuotaState.Quiet
  step := QuotaState.step inlineMaxBytes

/-! ## What a check has settled -/

/-- Both quotas are configured. -/
def QuotaLimits.Configured (limits : QuotaLimits) : Prop :=
  limits.maxNotificationsPerDay.isSome ∧ limits.maxStorageBytes.isSome

instance (limits : QuotaLimits) : Decidable limits.Configured :=
  inferInstanceAs (Decidable (_ ∧ _))

/-- Room for one more notification in the last day. -/
def QuotaStore.DayHasRoom
    (store : QuotaStore) (since : Option Instant) : Prop :=
  ∃ moment limit, since = some moment ∧
    store.limits.maxNotificationsPerDay = some limit ∧
    store.countSince moment < limit

def QuotaStore.StorageHasRoom
    (store : QuotaStore) (incomingBytes : ℕ) : Prop :=
  ∃ limit, store.limits.maxStorageBytes = some limit ∧
    store.usedBytes + incomingBytes ≤ limit

/-- The store has lost notifications at most. -/
structure QuotaStore.Shrinks (store after : QuotaStore) : Prop where
  limits : after.limits = store.limits
  notifications : after.notifications.Sublist store.notifications

theorem QuotaStore.Shrinks.refl (store : QuotaStore) : store.Shrinks store :=
  ⟨rfl, .refl _⟩

theorem QuotaStore.DayHasRoom.shrinks
    {store after : QuotaStore} {since : Option Instant}
    (hroom : store.DayHasRoom since) (hshrinks : store.Shrinks after) :
    after.DayHasRoom since := by
  obtain ⟨moment, limit, hsince, hlimit, hcount⟩ := hroom
  refine ⟨moment, limit, hsince, hshrinks.limits ▸ hlimit, ?_⟩
  exact (hshrinks.notifications.countP_le).trans_lt hcount

theorem QuotaStore.StorageHasRoom.shrinks
    {store after : QuotaStore} {incomingBytes : ℕ}
    (hroom : store.StorageHasRoom incomingBytes)
    (hshrinks : store.Shrinks after) :
    after.StorageHasRoom incomingBytes := by
  obtain ⟨limit, hlimit, hused⟩ := hroom
  refine ⟨limit, hshrinks.limits ▸ hlimit, ?_⟩
  have hless : after.usedBytes ≤ store.usedBytes :=
    (hshrinks.notifications.map QuotaRow.contentSize).sum_le_sum
      fun _ _ => Nat.zero_le _
  omega

omit [DecidableEq Process] in
/-- What a process relies on: from its lock on, an ingestion holds the tenant
for update, and what it has checked is still so. -/
def QuotaPhase.Sound
    (store : QuotaStore) (lock : RowLock Process) (process : Process) :
    QuotaPhase → Prop
  | .counting _ _ limits =>
      lock.Holds process .forUpdate ∧ limits = store.limits
  | .summing _ _ limits since =>
      lock.Holds process .forUpdate ∧ limits = store.limits ∧
        store.DayHasRoom since
  | .admitted _ incomingBytes since =>
      lock.Holds process .forUpdate ∧ store.DayHasRoom since ∧
        store.StorageHasRoom incomingBytes
  | .inserted row since =>
      lock.Holds process .forUpdate ∧ store.DayHasRoom since ∧
        store.StorageHasRoom row.contentSize
  | .watching _ _ | .configuring _ => lock.Holds process .noKeyUpdate
  | .idle | .checking _ _ | .locking _ _ | .committed | .refused _
  | .failed => True

omit [DecidableEq Process] in
theorem QuotaPhase.Sound.shrinks
    {store after : QuotaStore} {lock next : RowLock Process}
    {process : Process} {phase : QuotaPhase}
    (hsound : phase.Sound store lock process)
    (hshrinks : store.Shrinks after)
    (hlock : ∀ mode, lock.Holds process mode → next.Holds process mode) :
    phase.Sound after next process := by
  cases phase with
  | counting stage incomingBytes limits =>
      exact ⟨hlock _ hsound.1, hsound.2.trans hshrinks.limits.symm⟩
  | summing stage incomingBytes limits since =>
      obtain ⟨hheld, hlimits, hday⟩ := hsound
      exact ⟨hlock _ hheld, hlimits.trans hshrinks.limits.symm,
        hday.shrinks hshrinks⟩
  | admitted stage incomingBytes since =>
      obtain ⟨hheld, hday, hstorage⟩ := hsound
      exact ⟨hlock _ hheld, hday.shrinks hshrinks, hstorage.shrinks hshrinks⟩
  | inserted row since =>
      obtain ⟨hheld, hday, hstorage⟩ := hsound
      exact ⟨hlock _ hheld, hday.shrinks hshrinks, hstorage.shrinks hshrinks⟩
  | watching now rows => exact hlock _ hsound
  | configuring limits => exact hlock _ hsound
  | _ => trivial

omit [DecidableEq Process] in
/-- Nobody relies on a store which another process may write. -/
theorem QuotaPhase.Sound.rewrite
    {store after : QuotaStore} {lock next : RowLock Process}
    {process writer : Process} {phase : QuotaPhase} {mode : LockMode}
    (hsound : phase.Sound store lock process)
    (hwriter : lock.Holds writer mode) (hne : process ≠ writer)
    (hlock : ∀ mode, lock.Holds process mode → next.Holds process mode) :
    phase.Sound after next process := by
  have hfree : ¬lock.Holds process .forUpdate := fun hheld =>
    hne (RowLock.holds_forUpdate_unique hheld hwriter)
  cases phase with
  | counting _ _ _ => exact absurd hsound.1 hfree
  | summing _ _ _ _ => exact absurd hsound.1 hfree
  | admitted _ _ _ => exact absurd hsound.1 hfree
  | inserted _ _ => exact absurd hsound.1 hfree
  | watching _ _ => exact hlock _ hsound
  | configuring _ => exact hlock _ hsound
  | _ => trivial

namespace QuotaState

omit [DecidableEq Process] in
def Guarded (state : QuotaState Process) : Prop :=
  ∀ process, (state.phase process).Sound state.store state.tenantLock process

omit [DecidableEq Process] in
theorem Quiet.guarded {state : QuotaState Process} (hquiet : state.Quiet) :
    state.Guarded := by
  intro process
  rw [hquiet.phase process]
  trivial

/-! ## Steps -/

variable {state next : QuotaState Process} {process : Process}

/-- The process goes on and writes nothing. -/
theorem Guarded.advance
    (hguarded : state.Guarded) {phase : QuotaPhase}
    (hstore : next.store = state.store)
    (hphase : next.phase = Function.update state.phase process phase)
    (hlock : ∀ other, other ≠ process → ∀ mode,
      state.tenantLock.Holds other mode → next.tenantLock.Holds other mode)
    (hself : phase.Sound state.store next.tenantLock process) :
    next.Guarded := by
  intro other
  rw [hphase, hstore]
  by_cases heq : other = process
  · subst heq
    rw [Function.update_self]
    exact hself
  · rw [Function.update_of_ne heq]
    exact (hguarded other).shrinks (.refl _) (hlock other heq)

theorem Guarded.goto
    (hguarded : state.Guarded) {phase : QuotaPhase}
    (hself : phase.Sound state.store state.tenantLock process) :
    (state.goto process phase).Guarded :=
  hguarded.advance rfl rfl (fun _ _ _ hheld => hheld) hself

theorem Guarded.finish
    (hguarded : state.Guarded) {phase : QuotaPhase}
    (hself : ∀ lock, phase.Sound state.store lock process) :
    (state.finish process phase).Guarded :=
  hguarded.advance rfl rfl
    (fun _ hne _ hheld => RowLock.holds_release_iff.mpr ⟨hheld, hne⟩)
    (hself _)

theorem Guarded.lock
    (hguarded : state.Guarded) {mode : LockMode} {phase : QuotaPhase}
    (hlock : state.lock process mode phase = some next)
    (hself : ∀ lock : RowLock Process, lock.Holds process mode →
      (∀ held, state.tenantLock.Holds process held →
        lock.Holds process held) →
      phase.Sound state.store lock process) : next.Guarded := by
  obtain ⟨lock, hacquire, rfl⟩ := Option.map_eq_some_iff.mp hlock
  have hheld : ∀ other held, state.tenantLock.Holds other held →
      lock.Holds other held := fun other held hheld =>
    (RowLock.holds_acquire_iff hacquire).mpr (.inr hheld)
  refine hguarded.advance rfl rfl (fun other _ => hheld other) ?_
  exact hself lock ((RowLock.holds_acquire_iff hacquire).mpr (.inl ⟨rfl, rfl⟩))
    (hheld process)

/-- A commit under a lock of the tenant. -/
theorem Guarded.write
    (hguarded : state.Guarded) {mode : LockMode}
    (hheld : state.tenantLock.Holds process mode) (store : QuotaStore) :
    Guarded { state.finish process .committed with store := store } := by
  intro other
  by_cases heq : other = process
  · subst heq
    simp [QuotaState.finish, QuotaPhase.Sound]
  · simp only [QuotaState.finish, Function.update_of_ne heq]
    exact (hguarded other).rewrite hheld heq fun _ hother =>
      RowLock.holds_release_iff.mpr ⟨hother, heq⟩

theorem Guarded.count
    (hguarded : state.Guarded) (hconfigured : state.store.limits.Configured)
    {stage : QuotaStage} {incomingBytes : ℕ} {limits : QuotaLimits}
    (hphase : state.phase process = .counting stage incomingBytes limits)
    (now : Instant) :
    (state.count process now stage incomingBytes limits).Guarded := by
  have hself := hguarded process
  rw [hphase] at hself
  obtain ⟨hheld, rfl⟩ := hself
  unfold QuotaState.count
  split
  next hnone => simp [QuotaLimits.Configured, hnone] at hconfigured
  next limit hlimit =>
    dsimp only
    split
    · exact hguarded.finish fun _ => trivial
    next hroom =>
      exact hguarded.goto
        ⟨hheld, rfl, _, limit, rfl, hlimit, not_le.mp hroom⟩

theorem Guarded.sum
    (hguarded : state.Guarded) (hconfigured : state.store.limits.Configured)
    {stage : QuotaStage} {incomingBytes : ℕ} {limits : QuotaLimits}
    {since : Option Instant}
    (hphase : state.phase process =
      .summing stage incomingBytes limits since) :
    (state.sum process stage incomingBytes limits since).Guarded := by
  have hself := hguarded process
  rw [hphase] at hself
  obtain ⟨hheld, rfl, hday⟩ := hself
  unfold QuotaState.sum
  split
  next hnone => simp [QuotaLimits.Configured, hnone] at hconfigured
  next limit hlimit =>
    split
    · exact hguarded.finish fun _ => trivial
    next hroom =>
      exact hguarded.goto ⟨hheld, hday, limit, hlimit, not_lt.mp hroom⟩

theorem Guarded.commit
    (hguarded : state.Guarded)
    (hcommit : state.commit process = some next) : next.Guarded := by
  have hself := hguarded process
  unfold QuotaState.commit at hcommit
  split at hcommit
  next row since hphase =>
    rw [hphase] at hself
    exact Option.some.inj hcommit ▸ hguarded.write hself.1 _
  next now rows hphase =>
    rw [hphase] at hself
    exact Option.some.inj hcommit ▸ hguarded.write hself _
  next limits hphase =>
    rw [hphase] at hself
    exact Option.some.inj hcommit ▸ hguarded.write hself _
  next => contradiction

theorem Guarded.step
    {inlineMaxBytes : ℕ} (hguarded : state.Guarded)
    (hconfigured : state.store.limits.Configured)
    {action : QuotaAction Process}
    (hstep : state.step inlineMaxBytes action = some next) :
    next.Guarded := by
  cases action with
  | ingest process incomingBytes =>
      simp only [QuotaState.step] at hstep
      split at hstep
      · split at hstep
        · exact Option.some.inj hstep ▸ hguarded.goto trivial
        · exact Option.some.inj hstep ▸ hguarded.goto trivial
      · contradiction
  | readLimits process =>
      simp only [QuotaState.step] at hstep
      split at hstep
      · split at hstep
        next hnone =>
          simp [QuotaLimits.Configured, hnone, QuotaLimits.unlimited]
            at hconfigured
        next => exact Option.some.inj hstep ▸ hguarded.goto trivial
      · contradiction
  | lockTenant process =>
      simp only [QuotaState.step] at hstep
      split at hstep
      · exact hguarded.lock hstep fun _ hheld _ => ⟨hheld, rfl⟩
      · contradiction
  | count process now =>
      simp only [QuotaState.step] at hstep
      split at hstep
      next stage incomingBytes limits hphase =>
        exact Option.some.inj hstep ▸ hguarded.count hconfigured hphase now
      next => contradiction
  | sum process =>
      simp only [QuotaState.step] at hstep
      split at hstep
      next stage incomingBytes limits since hphase =>
        exact Option.some.inj hstep ▸ hguarded.sum hconfigured hphase
      next => contradiction
  | upload process =>
      simp only [QuotaState.step] at hstep
      split at hstep
      · exact Option.some.inj hstep ▸ hguarded.finish fun _ => trivial
      · contradiction
  | insert process now =>
      simp only [QuotaState.step] at hstep
      split at hstep
      next incomingBytes since hphase =>
        have hself := hguarded process
        rw [hphase] at hself
        obtain ⟨hheld, hday, hstorage⟩ := hself
        exact hguarded.lock hstep fun _ _ hkept =>
          ⟨hkept _ hheld, hday, hstorage⟩
      next => contradiction
  | watch process now =>
      simp only [QuotaState.step] at hstep
      split at hstep
      · exact hguarded.lock hstep fun _ hheld _ => hheld
      · contradiction
  | synthesize process contentSize =>
      simp only [QuotaState.step] at hstep
      split at hstep
      next now rows hphase =>
        have hself := hguarded process
        rw [hphase] at hself
        exact hguarded.lock hstep fun _ _ hkept => hkept _ hself
      next => contradiction
  | configure process limits =>
      simp only [QuotaState.step] at hstep
      split at hstep
      · exact hguarded.lock hstep fun _ hheld _ => hheld
      · contradiction
  | commit process => exact hguarded.commit hstep
  | fail process =>
      simp only [QuotaState.step] at hstep
      split at hstep
      · exact Option.some.inj hstep ▸ hguarded.finish fun _ => trivial
      · contradiction
  | discard row =>
      obtain rfl := Option.some.inj hstep
      intro other
      exact (hguarded other).shrinks ⟨rfl, List.erase_sublist⟩ fun _ h => h

/-- Every state of the run has both quotas configured. -/
def Configured (state : QuotaState Process) (_ : QuotaAction Process) : Prop :=
  state.store.limits.Configured

instance (state : QuotaState Process) (action : QuotaAction Process) :
    Decidable (state.Configured action) :=
  inferInstanceAs (Decidable state.store.limits.Configured)

theorem guarded_of_reachable
    {inlineMaxBytes : ℕ}
    (hreach : (quotaMachine inlineMaxBytes Process).ReachableWhere
      Configured state) : state.Guarded :=
  Machine.ReachableWhere.invariant (fun _ => Quiet.guarded)
    (fun _ _ _ hguarded hconfigured hstep =>
      hguarded.step hconfigured hstep) hreach

end QuotaState

/-! ## Accepted ingestions -/

/-- In every run with both quotas configured throughout, the commit of an
ingestion leaves at most the allowed number of notifications since the day
before its last check, and at most the allowed number of bytes. -/
theorem accepted_within_quotas
    {inlineMaxBytes : ℕ} {state next : QuotaState Process}
    (hreach : (quotaMachine inlineMaxBytes Process).ReachableWhere
      QuotaState.Configured state)
    {process : Process} {row : QuotaRow} {since : Option Instant}
    (hinserted : state.phase process = .inserted row since)
    (hcommit : state.step inlineMaxBytes (.commit process) = some next) :
    ∃ lastCheck maxNotificationsPerDay maxStorageBytes,
      since = some lastCheck ∧
      next.store.limits = ⟨some maxNotificationsPerDay, some maxStorageBytes⟩ ∧
      row ∈ next.store.notifications ∧
      next.store.countSince lastCheck ≤ maxNotificationsPerDay ∧
      next.store.usedBytes ≤ maxStorageBytes := by
  have hself := QuotaState.guarded_of_reachable hreach process
  rw [hinserted] at hself
  obtain ⟨-, ⟨lastCheck, daily, rfl, hdaily, hcount⟩,
    storage, hstorage, hused⟩ := hself
  simp only [QuotaState.step, QuotaState.commit, hinserted] at hcommit
  obtain rfl := Option.some.inj hcommit
  refine ⟨lastCheck, daily, storage, rfl, ?_, List.mem_cons_self .., ?_, ?_⟩
  · rw [← hdaily, ← hstorage]
  · have hone : QuotaStore.countSince
        { state.store with
          notifications := row :: state.store.notifications } lastCheck ≤
          state.store.countSince lastCheck + 1 := by
      simp only [QuotaStore.countSince, List.countP_cons]
      split <;> omega
    exact hone.trans hcount
  · simp only [QuotaStore.usedBytes, List.map_cons, List.sum_cons] at hused ⊢
    omega

/-- One notification of ten bytes at most, and none yet. -/
def roomForOne : QuotaState ℕ where
  store := ⟨⟨some 1, some 10⟩, []⟩
  tenantLock := .free
  phase _ := .idle

/-- Eight bytes go to the object store, with a check before and after. -/
def uploadEight : List (QuotaAction ℕ) :=
  [.ingest 0 8, .readLimits 0, .lockTenant 0, .count 0 0, .sum 0, .upload 0,
    .readLimits 0, .lockTenant 0, .count 0 1, .sum 0, .insert 0 2]

theorem accepted_within_quotas_upload :
    ∃ state next : QuotaState ℕ,
      (quotaMachine 4 ℕ).run roomForOne uploadEight = some state ∧
      state.step 4 (.commit 0) = some next ∧
      next.store.countSince (1 - microsecondsPerDay) ≤ 1 ∧
      next.store.usedBytes ≤ 10 := by
  obtain ⟨state, hrun, hinserted, next, hcommit, hlimits⟩ :
      ∃ state : QuotaState ℕ,
        (quotaMachine 4 ℕ).run roomForOne uploadEight = some state ∧
        state.phase 0 = .inserted ⟨2, 8⟩ (some (1 - microsecondsPerDay)) ∧
        ∃ next, state.step 4 (.commit 0) = some next ∧
          next.store.limits = ⟨some 1, some 10⟩ :=
    ⟨_, rfl, by decide +kernel, _, rfl, rfl⟩
  have hquiet : roomForOne.Quiet := ⟨fun _ => rfl, rfl⟩
  have hallowed : (quotaMachine 4 ℕ).AllowedAlong QuotaState.Configured
      roomForOne uploadEight := by decide +kernel
  have hreach := (Machine.ReachableWhere.initial hquiet).run hallowed hrun
  obtain ⟨lastCheck, daily, storage, hsince, hafter, -, hcount, hused⟩ :=
    accepted_within_quotas hreach hinserted hcommit
  obtain rfl := Option.some.inj hsince
  rw [hlimits] at hafter
  obtain ⟨hdaily, hstorage⟩ := QuotaLimits.mk.inj hafter
  obtain rfl := Option.some.inj hdaily
  obtain rfl := Option.some.inj hstorage
  exact ⟨state, next, hrun, hcommit, hcount, hused⟩

end NotifyHub
