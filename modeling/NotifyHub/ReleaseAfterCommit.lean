import NotifyHub.IngestAwaitPoints
import Mathlib.Tactic

/-!
# The release of the key and the commit

When the `try` block of `_ingest` returns, what it leaves in the database, and
hence when the key of a stored notification is freed.
-/

namespace NotifyHub

open AsyncM FlatJson

/-! ## One session -/

/-- The exit of the session raises nothing; a `PendingRollbackError` of the
commit is swallowed. -/
def SessionPlan.ExitsQuietly (plan : SessionPlan) : Prop :=
  (plan .commit = .completes ∨
    (plan .commit).raised? = some .pendingRollback ∧
      plan .rollback = .completes) ∧
  plan .close = .completes

def HasKey (key : RedisValue) (world : IngestWorld) : Prop :=
  world.key = key

def HasStored (stored : List IngestBody) (world : IngestWorld) : Prop :=
  world.stored = stored

section Session

variable {Value : Type} {plan : SessionPlan} {body : IngestM Value}
variable {world : IngestWorld}

/-- The key is not touched by a session. -/
theorem tenantSession_keeps_key
    (key : RedisValue)
    (hbody : Keeps (HasKey key) body) :
    Keeps (HasKey key) (tenantSession plan body) := by
  refine Keeps.asyncWith (Keeps.bind (Keeps.await fun _ h => h) fun _ => ?_)
    (Keeps.await fun _ h => h)
  refine Keeps.bind (Keeps.tryExcept hbody fun fault =>
    Keeps.bind (Keeps.await fun _ h => h) fun _ => Keeps.raise fault)
    fun value => ?_
  refine Keeps.bind (Keeps.tryExcept (Keeps.await fun _ h => h) fun fault => ?_)
    fun _ => Keeps.pure value
  refine Keeps.bind (Keeps.await fun _ h => h) fun _ => ?_
  split
  · exact Keeps.pure ()
  · exact Keeps.raise fault

theorem discard_keeps_stored
    (stored : List IngestBody) (point : SessionPoint) :
    Keeps (HasStored stored) (await plan point IngestWorld.discard) :=
  Keeps.await fun _ h => h

/-- The handler of the commit keeps what is stored. -/
theorem commitHandler_keeps_stored
    (stored : List IngestBody) (fault : IngestFault) :
    Keeps (HasStored stored)
      (do await plan .rollback IngestWorld.discard
          if fault = .pendingRollback then pure () else raise fault) := by
  refine Keeps.bind (discard_keeps_stored stored .rollback) fun _ => ?_
  split
  · exact Keeps.pure ()
  · exact Keeps.raise fault

theorem commitExit_stored_of_executes
    (hexecutes : (plan .commit).executes = true) :
    HasStored (world.stored ++ world.pending) (commitExit plan world).2 := by
  refine Keeps.tryExcept_after _ ?_ (commitHandler_keeps_stored _)
  rw [await_of_executes hexecutes]
  rfl

theorem commitExit_stored_of_not_executes
    (hnot : (plan .commit).executes = false) :
    HasStored world.stored (commitExit plan world).2 := by
  refine Keeps.tryExcept_after _ ?_ (commitHandler_keeps_stored _)
  rw [await_of_not_executes hnot]
  rfl

/-- A COMMIT which takes effect stores what the body has written, however the
exit ends. -/
theorem tenantSession_stored_of_commit
    {value : Value} {middle : IngestWorld}
    (hlocal : plan .setLocal = .completes)
    (hbody : body world.discard = (.ok value, middle))
    (hexecutes : (plan .commit).executes = true) :
    (tenantSession plan body world).2.stored =
      middle.stored ++ middle.pending := by
  refine Keeps.asyncWith_after (HasStored _) ?_ (discard_keeps_stored _ _)
  rw [bind_await hlocal, bind_of_ok (tryExcept_of_ok hbody)]
  exact Keeps.bind_after _ (commitExit_stored_of_executes hexecutes)
    fun _ => Keeps.pure _

/-- Without a COMMIT which takes effect nothing is stored. -/
theorem tenantSession_stored_of_no_commit
    (hkeeps : Keeps (HasStored world.stored) body)
    (hnot : ∀ value middle, plan .setLocal = .completes →
      body world.discard = (.ok value, middle) →
        (plan .commit).executes = false) :
    (tenantSession plan body world).2.stored = world.stored := by
  have hraise : ∀ fault,
      Keeps (HasStored world.stored)
        (do await plan .rollback IngestWorld.discard
            raise fault : IngestM Value) :=
    fun fault => Keeps.bind (discard_keeps_stored _ _) fun _ =>
      Keeps.raise fault
  refine Keeps.asyncWith_after (HasStored _) ?_ (discard_keeps_stored _ _)
  by_cases hlocal : plan .setLocal = .completes
  · rw [bind_await hlocal]
    cases hbody : body world.discard with
    | mk outcome middle =>
      have hmiddle : HasStored world.stored middle := by
        simpa [hbody] using hkeeps world.discard rfl
      cases outcome with
      | ok value =>
          rw [bind_of_ok (tryExcept_of_ok hbody)]
          have hcommit : HasStored middle.stored (commitExit plan middle).2 :=
            commitExit_stored_of_not_executes (hnot value middle hlocal hbody)
          rw [show middle.stored = world.stored from hmiddle] at hcommit
          exact Keeps.bind_after _ hcommit fun _ => Keeps.pure value
      | error fault =>
          rw [bind_of_not_ok]
          · exact Keeps.tryExcept_after _ (by rw [hbody]; exact hmiddle) hraise
          · intro value next hok
            simp [hbody] at hok
  · rw [bind_of_not_ok]
    · exact discard_keeps_stored world.stored .setLocal world rfl
    · intro value next hok
      exact hlocal (await_eq_ok.mp hok).1

theorem commitExit_returns_iff :
    (∃ next, commitExit plan world = (.ok (), next)) ↔
      plan .commit = .completes ∨
        (plan .commit).raised? = some .pendingRollback ∧
          plan .rollback = .completes := by
  have hhandler : ∀ fault middle,
      (∃ next, (do await plan .rollback IngestWorld.discard
                   if fault = .pendingRollback then pure ()
                   else raise fault : IngestM Unit) middle =
          (.ok (), next)) ↔
        fault = .pendingRollback ∧ plan .rollback = .completes := by
    intro fault middle
    by_cases hfault : fault = .pendingRollback
    · simp [hfault]
    · simp [hfault]
  unfold commitExit tryExcept
  cases hcommit : plan .commit with
  | completes => simp [await, hcommit]
  | failsBefore fault =>
      by_cases hcaught : fault.isException = true
      · simpa [await, hcommit, hcaught, Disposition.raised?] using
          hhandler fault world
      · cases fault <;>
          simp_all [await, Disposition.raised?, IngestFault.isException]
  | failsAfter fault =>
      by_cases hcaught : fault.isException = true
      · simpa [await, hcommit, hcaught, Disposition.raised?] using
          hhandler fault world.commit
      · cases fault <;>
          simp_all [await, Disposition.raised?, IngestFault.isException]

/-- When a session returns. -/
theorem tenantSession_returns_iff {value : Value} :
    (∃ next, tenantSession plan body world = (.ok value, next)) ↔
      plan .setLocal = .completes ∧
        (∃ middle, body world.discard = (.ok value, middle)) ∧
        plan.ExitsQuietly := by
  constructor
  · rintro ⟨next, hreturns⟩
    simp only [tenantSession, asyncWith_eq_ok, bind_eq_ok, await_eq_ok,
      tryExcept_eq_ok, pure_eq_ok, raise_eq_ok, and_false, exists_false,
      or_false] at hreturns
    obtain ⟨_, ⟨_, _, ⟨hlocal, rfl⟩, _, middle, hbody, _, committed, hexit,
      rfl, rfl⟩, hclose, -⟩ := hreturns
    exact ⟨hlocal, ⟨middle, hbody⟩,
      commitExit_returns_iff.mp ⟨_, hexit⟩, hclose⟩
  · rintro ⟨hlocal, ⟨middle, hbody⟩, hquiet, hclose⟩
    obtain ⟨committed, hexit⟩ := commitExit_returns_iff.mpr hquiet
    refine ⟨committed.discard, asyncWith_eq_ok.mpr
      ⟨committed, ?_, await_eq_ok.mpr ⟨hclose, rfl⟩⟩⟩
    rw [bind_await hlocal, bind_of_ok (tryExcept_of_ok hbody),
      bind_of_ok hexit]
    rfl

end Session

/-! ## The bodies of the sessions -/

/-- The quota check neither faults nor refuses. -/
def SessionPlan.QuotaPasses
    (plan : SessionPlan) (reads : SessionReads) (incomingBytes : ℕ) : Prop :=
  plan .quotaLimits = .completes ∧
    (reads.limits = .unlimited ∨
      plan .quotaLock = .completes ∧
      (∀ maximum, reads.tenant.maxNotificationsPerDay = some maximum →
        plan .quotaCount = .completes ∧
          reads.notificationsToday < maximum) ∧
      (∀ maximum, reads.tenant.maxStorageBytes = some maximum →
        plan .quotaStorage = .completes ∧
          reads.usedBytes + incomingBytes ≤ maximum))

def SessionPlan.PreparePasses (plan : SessionPlan) : Prop :=
  plan .loadRules = .completes ∧ plan .resolveSeverity = .completes

def SessionPlan.PersistPasses
    (plan : SessionPlan) (reads : SessionReads) : Prop :=
  plan .updateReceiver = .completes ∧ plan .flushNotification = .completes ∧
    plan .selectBindings = .completes ∧
    (reads.hasBindings = true →
      plan .selectOverrides = .completes ∧
      plan .selectChannels = .completes ∧
      (reads.targets ≠ 0 → plan .flushDeliveries = .completes))

section Bodies

variable {plan : SessionPlan} {reads : SessionReads} {incomingBytes : ℕ}
variable {world next : IngestWorld} {result : Unit}

@[simp] theorem refuseIf_eq_ok
    {condition : Prop} [Decidable condition] {problem : Problem} :
    refuseIf condition problem world = (.ok result, next) ↔
      ¬ condition ∧ world = next := by
  unfold refuseIf
  by_cases hcondition : condition
  · simp [hcondition]
  · simp [hcondition]

theorem enforceDailyQuota_eq_ok :
    enforceDailyQuota plan reads world = (.ok result, next) ↔
      (∀ maximum, reads.tenant.maxNotificationsPerDay = some maximum →
        plan .quotaCount = .completes ∧
          reads.notificationsToday < maximum) ∧ world = next := by
  unfold enforceDailyQuota
  cases reads.tenant.maxNotificationsPerDay with
  | none => simp
  | some maximum => simp [and_assoc]

theorem enforceStorageQuota_eq_ok :
    enforceStorageQuota plan reads incomingBytes world = (.ok result, next) ↔
      (∀ maximum, reads.tenant.maxStorageBytes = some maximum →
        plan .quotaStorage = .completes ∧
          reads.usedBytes + incomingBytes ≤ maximum) ∧ world = next := by
  unfold enforceStorageQuota
  cases reads.tenant.maxStorageBytes with
  | none => simp
  | some maximum => simp [and_assoc]

@[simp] theorem enforceTenantQuotas_eq_ok :
    enforceTenantQuotas plan reads incomingBytes world = (.ok result, next) ↔
      plan.QuotaPasses reads incomingBytes ∧ world = next := by
  unfold enforceTenantQuotas SessionPlan.QuotaPasses
  by_cases hlimits : reads.limits = .unlimited
  · simp [hlimits]
  · simp [hlimits, enforceDailyQuota_eq_ok, enforceStorageQuota_eq_ok,
      and_assoc]

@[simp] theorem prepareNotification_eq_ok
    {request : IngestRequest} {prepared : PreparedNotification} :
    prepareNotification plan request world = (.ok prepared, next) ↔
      plan.PreparePasses ∧ request.prepared = prepared ∧ world = next := by
  simp [prepareNotification, SessionPlan.PreparePasses, and_assoc]

theorem createDeliveries_eq_ok {created : ℕ} :
    createDeliveries plan reads world = (.ok created, next) ↔
      plan .selectBindings = .completes ∧
      (reads.hasBindings = true →
        plan .selectOverrides = .completes ∧
        plan .selectChannels = .completes ∧
        (reads.targets ≠ 0 → plan .flushDeliveries = .completes)) ∧
      reads.forwardedTo = created ∧ world = next := by
  unfold createDeliveries SessionReads.forwardedTo
  cases reads.hasBindings with
  | false => simp [and_assoc, and_left_comm, and_comm]
  | true =>
      by_cases htargets : reads.targets = 0
      · simp [htargets, and_assoc]
      · simp [htargets, and_assoc]

@[simp] theorem persisti_eq_ok
    {prepared : PreparedNotification} {body : IngestBody} :
    persisti plan reads prepared world = (.ok body, next) ↔
      plan.PersistPasses reads ∧ prepared.body reads.forwardedTo = body ∧
        world.insert (prepared.body reads.forwardedTo) = next := by
  simp [persisti, createDeliveries_eq_ok, SessionPlan.PersistPasses, and_assoc]

/-! However they end, the statements before the commit touch neither the key
nor what is stored. -/

theorem enforceTenantQuotas_keeps (inv : IngestWorld → Prop) :
    Keeps inv (enforceTenantQuotas plan reads incomingBytes) := by
  have hread : ∀ point, Keeps inv (await plan point id) :=
    fun point => Keeps.await fun _ h => h
  have hrefuse : ∀ (condition : Prop) [Decidable condition] problem,
      Keeps inv (refuseIf condition problem) := by
    intro condition _ problem
    unfold refuseIf
    split
    · exact Keeps.raise _
    · exact Keeps.pure ()
  refine Keeps.bind (hread _) fun _ => ?_
  split
  · exact Keeps.pure ()
  · refine Keeps.bind (hread _) fun _ => Keeps.bind ?_ fun _ => ?_
    · unfold enforceDailyQuota
      split
      · exact Keeps.bind (hread _) fun _ => hrefuse _ _
      · exact Keeps.pure ()
    · unfold enforceStorageQuota
      split
      · exact Keeps.bind (hread _) fun _ => hrefuse _ _
      · exact Keeps.pure ()

theorem prepareNotification_keeps
    (inv : IngestWorld → Prop) (request : IngestRequest) :
    Keeps inv (prepareNotification plan request) :=
  Keeps.bind (Keeps.await fun _ h => h) fun _ =>
    Keeps.bind (Keeps.await fun _ h => h) fun _ => Keeps.pure _

theorem persisti_keeps
    {inv : IngestWorld → Prop}
    (hinsert : ∀ body world, inv world → inv (world.insert body))
    (prepared : PreparedNotification) :
    Keeps inv (persisti plan reads prepared) := by
  have hread : ∀ point, Keeps inv (await plan point id) :=
    fun point => Keeps.await fun _ h => h
  refine Keeps.bind (Keeps.await (hinsert _)) fun _ =>
    Keeps.bind (hread _) fun _ => Keeps.bind ?_ fun _ => Keeps.pure _
  refine Keeps.bind (hread _) fun _ => ?_
  split
  · exact Keeps.pure 0
  · refine Keeps.bind (hread _) fun _ => Keeps.bind (hread _) fun _ => ?_
    split
    · exact Keeps.pure 0
    · exact Keeps.bind (hread _) fun _ => Keeps.pure _

end Bodies

section Blocks

variable {plan : SessionPlan} {request : IngestRequest}
variable {inv : IngestWorld → Prop}

theorem inlineBlock_keeps
    (hinsert : ∀ body world, inv world → inv (world.insert body)) :
    Keeps inv (inlineBlock plan request) :=
  Keeps.bind (prepareNotification_keeps inv request) fun prepared =>
    Keeps.bind (enforceTenantQuotas_keeps inv) fun _ =>
      persisti_keeps hinsert prepared

theorem checkingBlock_keeps (inv : IngestWorld → Prop) :
    Keeps inv (checkingBlock plan request) :=
  Keeps.bind (enforceTenantQuotas_keeps inv) fun _ =>
    prepareNotification_keeps inv request

theorem writingBlock_keeps
    (hinsert : ∀ body world, inv world → inv (world.insert body))
    (prepared : PreparedNotification) :
    Keeps inv (writingBlock plan request prepared) :=
  Keeps.bind (enforceTenantQuotas_keeps inv) fun _ =>
    persisti_keeps hinsert prepared

theorem uploadObject_keeps (plan : IngestPlan) :
    Keeps inv (uploadObject plan) :=
  Keeps.tryExcept (Keeps.await fun _ h => h) fun _ => Keeps.raise _

end Blocks

/-! ## The `try` block -/

/-- The row which the request writes. -/
def IngestRequest.notification (request : IngestRequest) : IngestBody :=
  request.prepared.body request.writingReads.forwardedTo

/-- The statements of the writing session which both paths share. -/
def IngestPlan.WritingPasses
    (plan : IngestPlan) (request : IngestRequest) : Prop :=
  plan.writing.QuotaPasses request.writingReads request.bodyLength ∧
    plan.writing.PersistPasses request.writingReads

/-- What the object path does before its writing session. -/
def IngestPlan.CheckingPasses
    (plan : IngestPlan) (request : IngestRequest) : Prop :=
  plan.checking .setLocal = .completes ∧
    plan.checking.QuotaPasses request.checkingReads request.bodyLength ∧
    plan.checking.PreparePasses ∧ plan.checking.ExitsQuietly ∧
    plan .upload = .completes

/-- Nothing goes wrong before the COMMIT which stores the notification. -/
def IngestPlan.ReachesCommit
    (plan : IngestPlan) (request : IngestRequest) : Prop :=
  (if request.shouldUseObjectStorage = false then plan.writing.PreparePasses
    else plan.CheckingPasses request) ∧
  plan.writing .setLocal = .completes ∧ plan.WritingPasses request

section WritingSession

variable {plan : SessionPlan} {block : IngestM IngestBody}
variable {row : IngestBody} {Passes : Prop} {world : IngestWorld}

/-- A session whose block writes one row, when it passes. -/
theorem tenantSession_stores_row
    (hblock : ∀ body current next,
      block current = (.ok body, next) ↔
        Passes ∧ row = body ∧ current.insert row = next)
    (hlocal : plan .setLocal = .completes) (hpasses : Passes)
    (hexecutes : (plan .commit).executes = true) :
    (tenantSession plan block world).2.stored = world.stored ++ [row] := by
  have hbody := (hblock row world.discard _).mpr ⟨hpasses, rfl, rfl⟩
  rw [tenantSession_stored_of_commit hlocal hbody hexecutes]
  simp

theorem tenantSession_stores_nothing
    (hblock : ∀ body current next,
      block current = (.ok body, next) ↔
        Passes ∧ row = body ∧ current.insert row = next)
    (hkeeps : Keeps (HasStored world.stored) block)
    (hnot : ¬ (plan .setLocal = .completes ∧ Passes ∧
      (plan .commit).executes = true)) :
    (tenantSession plan block world).2.stored = world.stored := by
  refine tenantSession_stored_of_no_commit hkeeps ?_
  intro body middle hlocal hbody
  by_contra hexecutes
  exact hnot ⟨hlocal, ((hblock _ _ _).mp hbody).1, by simpa using hexecutes⟩

end WritingSession

section TryBlock

variable {plan : IngestPlan} {request : IngestRequest}
variable {world next : IngestWorld}

theorem inlineBlock_eq_ok {plan : SessionPlan} {body : IngestBody} :
    inlineBlock plan request world = (.ok body, next) ↔
      (plan.PreparePasses ∧
        plan.QuotaPasses request.writingReads request.bodyLength ∧
        plan.PersistPasses request.writingReads) ∧
      request.notification = body ∧
      world.insert request.notification = next := by
  simp [inlineBlock, IngestRequest.notification, and_assoc]

theorem checkingBlock_eq_ok
    {plan : SessionPlan} {prepared : PreparedNotification} :
    checkingBlock plan request world = (.ok prepared, next) ↔
      plan.QuotaPasses request.checkingReads request.bodyLength ∧
        plan.PreparePasses ∧ request.prepared = prepared ∧ world = next := by
  simp [checkingBlock]

theorem writingBlock_eq_ok {plan : SessionPlan} {body : IngestBody} :
    writingBlock plan request request.prepared world = (.ok body, next) ↔
      (plan.QuotaPasses request.writingReads request.bodyLength ∧
        plan.PersistPasses request.writingReads) ∧
      request.notification = body ∧
      world.insert request.notification = next := by
  simp [writingBlock, IngestRequest.notification, and_assoc]

theorem uploadObject_eq_ok {result : Unit} :
    uploadObject plan world = (.ok result, next) ↔
      plan .upload = .completes ∧ world = next := by
  simp [uploadObject]

/-- The first session of the object path stores nothing, also when its own
COMMIT takes effect. -/
theorem checkingSession_stored (plan : SessionPlan) :
    HasStored world.stored
      (tenantSession plan (checkingBlock plan request) world).2 := by
  by_cases hcommit : ∃ prepared middle, plan .setLocal = .completes ∧
      checkingBlock plan request world.discard = (.ok prepared, middle) ∧
      (plan .commit).executes = true
  · obtain ⟨prepared, middle, hlocal, hbody, hexecutes⟩ := hcommit
    obtain ⟨-, -, -, rfl⟩ := checkingBlock_eq_ok.mp hbody
    have hstored := tenantSession_stored_of_commit hlocal hbody hexecutes
    simpa [HasStored] using hstored
  · refine tenantSession_stored_of_no_commit (checkingBlock_keeps _) ?_
    intro prepared middle hlocal hbody
    by_contra hexecutes
    exact hcommit ⟨prepared, middle, hlocal, hbody, by simpa using hexecutes⟩

theorem checkingSession_returns_iff :
    (∃ prepared next, tenantSession plan.checking
        (checkingBlock plan.checking request) world = (.ok prepared, next)) ∧
        plan .upload = .completes ↔
      plan.CheckingPasses request := by
  constructor
  · rintro ⟨⟨prepared, next, hreturns⟩, hupload⟩
    obtain ⟨hlocal, ⟨middle, hbody⟩, hquiet⟩ :=
      tenantSession_returns_iff.mp ⟨next, hreturns⟩
    obtain ⟨hquota, hprepare, -, -⟩ := checkingBlock_eq_ok.mp hbody
    exact ⟨hlocal, hquota, hprepare, hquiet, hupload⟩
  · rintro ⟨hlocal, hquota, hprepare, hquiet, hupload⟩
    refine ⟨⟨request.prepared, ?_⟩, hupload⟩
    exact tenantSession_returns_iff.mpr ⟨hlocal,
      ⟨_, checkingBlock_eq_ok.mpr ⟨hquota, hprepare, rfl, rfl⟩⟩, hquiet⟩

/-- The writing session of either path, once it is reached. -/
theorem storeNotification_cases :
    (request.shouldUseObjectStorage = false ∧
      storeNotification plan request world =
        tenantSession plan.writing (inlineBlock plan.writing request) world) ∨
    (request.shouldUseObjectStorage = true ∧ plan.CheckingPasses request ∧
      ∃ start, start.stored = world.stored ∧
        storeNotification plan request world =
          tenantSession plan.writing
            (writingBlock plan.writing request request.prepared) start) ∨
    (request.shouldUseObjectStorage = true ∧ ¬ plan.CheckingPasses request ∧
      (∀ body next, storeNotification plan request world ≠ (.ok body, next)) ∧
      (storeNotification plan request world).2.stored = world.stored) := by
  cases hpath : request.shouldUseObjectStorage with
  | false => exact Or.inl ⟨rfl, by simp [storeNotification, hpath]⟩
  | true =>
      right
      have hrun : storeNotification plan request = (do
          let prepared ←
            tenantSession plan.checking (checkingBlock plan.checking request)
          uploadObject plan
          tenantSession plan.writing
            (writingBlock plan.writing request prepared)) := by
        simp [storeNotification, hpath]
      have hfirst : HasStored world.stored (tenantSession plan.checking
          (checkingBlock plan.checking request) world).2 :=
        checkingSession_stored plan.checking
      rw [hrun]
      by_cases hsession : ∃ prepared middle, tenantSession plan.checking
          (checkingBlock plan.checking request) world = (.ok prepared, middle)
      · obtain ⟨prepared, middle, hok⟩ := hsession
        obtain ⟨-, ⟨_, hbody⟩, -⟩ := tenantSession_returns_iff.mp ⟨middle, hok⟩
        obtain ⟨-, -, rfl, -⟩ := checkingBlock_eq_ok.mp hbody
        have hmiddle : HasStored world.stored middle := by
          simpa [hok] using hfirst
        rw [bind_of_ok hok]
        by_cases hupload : plan .upload = .completes
        · left
          refine ⟨rfl, checkingSession_returns_iff.mp
            ⟨⟨_, middle, hok⟩, hupload⟩, middle, hmiddle, ?_⟩
          have huploaded : uploadObject plan middle = (.ok (), middle) :=
            uploadObject_eq_ok.mpr ⟨hupload, rfl⟩
          rw [bind_of_ok huploaded]
        · right
          refine ⟨rfl, fun hchecking => hupload hchecking.2.2.2.2, ?_, ?_⟩
          · intro body next hreturns
            obtain ⟨_, _, hok, -⟩ := bind_eq_ok.mp hreturns
            exact hupload (uploadObject_eq_ok.mp hok).1
          · rw [bind_of_not_ok]
            · exact uploadObject_keeps plan middle hmiddle
            · intro _ _ hok
              exact hupload (uploadObject_eq_ok.mp hok).1
      · right
        refine ⟨rfl, fun hchecking => ?_, ?_, ?_⟩
        · exact hsession (checkingSession_returns_iff.mpr hchecking).1
        · intro body next hreturns
          obtain ⟨prepared, middle, hok, -⟩ := bind_eq_ok.mp hreturns
          exact hsession ⟨prepared, middle, hok⟩
        · rw [bind_of_not_ok]
          · exact hfirst
          · intro prepared middle hok
            exact hsession ⟨prepared, middle, hok⟩

theorem storeNotification_returns_iff :
    (∃ body next, storeNotification plan request world = (.ok body, next)) ↔
      plan.ReachesCommit request ∧ plan.writing.ExitsQuietly := by
  rcases @storeNotification_cases plan request world with
    ⟨hpath, hrun⟩ | ⟨hpath, hchecking, start, -, hrun⟩ |
    ⟨hpath, hchecking, hraises, -⟩
  · constructor
    · rintro ⟨body, next, hreturns⟩
      obtain ⟨hlocal, ⟨_, hbody⟩, hquiet⟩ :=
        tenantSession_returns_iff.mp ⟨next, hrun ▸ hreturns⟩
      obtain ⟨⟨hprepare, hwriting⟩, -⟩ := inlineBlock_eq_ok.mp hbody
      exact ⟨⟨by simpa [hpath] using hprepare, hlocal, hwriting⟩, hquiet⟩
    · rintro ⟨⟨hprepare, hlocal, hwriting⟩, hquiet⟩
      rw [if_pos hpath] at hprepare
      refine ⟨request.notification, ?_⟩
      rw [hrun]
      exact tenantSession_returns_iff.mpr ⟨hlocal,
        ⟨_, inlineBlock_eq_ok.mpr ⟨⟨hprepare, hwriting⟩, rfl, rfl⟩⟩, hquiet⟩
  · constructor
    · rintro ⟨body, next, hreturns⟩
      obtain ⟨hlocal, ⟨_, hbody⟩, hquiet⟩ :=
        tenantSession_returns_iff.mp ⟨next, hrun ▸ hreturns⟩
      obtain ⟨hwriting, -⟩ := writingBlock_eq_ok.mp hbody
      exact ⟨⟨by simpa [hpath] using hchecking, hlocal, hwriting⟩, hquiet⟩
    · rintro ⟨⟨-, hlocal, hwriting⟩, hquiet⟩
      refine ⟨request.notification, ?_⟩
      rw [hrun]
      exact tenantSession_returns_iff.mpr ⟨hlocal,
        ⟨_, writingBlock_eq_ok.mpr ⟨hwriting, rfl, rfl⟩⟩, hquiet⟩
  · constructor
    · rintro ⟨body, next, hreturns⟩
      exact absurd hreturns (hraises body next)
    · rintro ⟨⟨hfirst, -⟩, -⟩
      exact absurd (by simpa [hpath] using hfirst) hchecking

theorem storeNotification_stores
    (hreaches : plan.ReachesCommit request)
    (hexecutes : (plan.writing .commit).executes = true) :
    (storeNotification plan request world).2.stored =
      world.stored ++ [request.notification] := by
  obtain ⟨hfirst, hlocal, hwriting⟩ := hreaches
  rcases @storeNotification_cases plan request world with
    ⟨hpath, hrun⟩ | ⟨hpath, hchecking, start, hstart, hrun⟩ |
    ⟨hpath, hchecking, -, -⟩
  · rw [if_pos hpath] at hfirst
    rw [hrun]
    exact tenantSession_stores_row (fun _ _ _ => inlineBlock_eq_ok) hlocal
      ⟨hfirst, hwriting⟩ hexecutes
  · rw [hrun, ← hstart]
    exact tenantSession_stores_row (fun _ _ _ => writingBlock_eq_ok) hlocal
      hwriting hexecutes
  · exact absurd (by simpa [hpath] using hfirst) hchecking

theorem storeNotification_stores_nothing
    (hnot : ¬ (plan.ReachesCommit request ∧
      (plan.writing .commit).executes = true)) :
    (storeNotification plan request world).2.stored = world.stored := by
  rcases @storeNotification_cases plan request world with
    ⟨hpath, hrun⟩ | ⟨hpath, hchecking, start, hstart, hrun⟩ |
    ⟨-, -, -, hstored⟩
  · rw [hrun]
    refine tenantSession_stores_nothing (fun _ _ _ => inlineBlock_eq_ok)
      (inlineBlock_keeps fun _ _ h => h) ?_
    rintro ⟨hlocal, ⟨hprepare, hwriting⟩, hexecutes⟩
    exact hnot ⟨⟨by simpa [hpath] using hprepare, hlocal, hwriting⟩, hexecutes⟩
  · rw [hrun, ← hstart]
    refine tenantSession_stores_nothing (fun _ _ _ => writingBlock_eq_ok)
      (writingBlock_keeps (fun _ _ h => h) _) ?_
    rintro ⟨hlocal, hwriting, hexecutes⟩
    exact hnot ⟨⟨by simpa [hpath] using hchecking, hlocal, hwriting⟩, hexecutes⟩
  · exact hstored

theorem storeNotification_keeps_key (key : RedisValue) :
    Keeps (HasKey key) (storeNotification plan request) := by
  have hinsert : ∀ body world, HasKey key world →
      HasKey key (IngestWorld.insert body world) := fun _ _ h => h
  unfold storeNotification
  split
  · exact tenantSession_keeps_key key (inlineBlock_keeps hinsert)
  · refine Keeps.bind (tenantSession_keeps_key key (checkingBlock_keeps _))
      fun prepared => Keeps.bind (uploadObject_keeps plan) fun _ => ?_
    exact tenantSession_keeps_key key (writingBlock_keeps hinsert prepared)

end TryBlock

/-! ## The key after the request -/

/-- The run in which the key of a stored notification is freed: every step
before the COMMIT succeeds, the COMMIT takes effect, the exit of the session
raises all the same, and the release reaches Redis. -/
def IngestPlan.ReleasesAfterCommit
    (plan : IngestPlan) (request : IngestRequest) : Prop :=
  plan .reserveSet = .completes ∧ plan.ReachesCommit request ∧
    (plan.writing .commit).executes = true ∧ ¬ plan.writing.ExitsQuietly ∧
    (plan .release).executes = true

/-- Requests of the same id, one after the other. -/
def ingestRetries
    (retries : List (IngestPlan × IngestRequest)) (world : IngestWorld) :
    IngestWorld :=
  retries.foldl (fun current retry => (ingest retry.1 retry.2 current).2) world

/-- What the key promises about one request. -/
structure IngestPlan.NoReleaseAfterCommit
    (plan : IngestPlan) (request : IngestRequest) (world : IngestWorld) :
    Prop where
  released : (ingest plan request world).2.key = none →
    (ingest plan request world).2.stored = []
  retried : (ingest plan request world).2.stored ≠ [] →
    ∀ retries, (ingestRetries retries (ingest plan request world).2).stored =
      (ingest plan request world).2.stored

section Key

variable {plan : IngestPlan} {request : IngestRequest} {world : IngestWorld}

theorem reserveAlone_of_key_some
    {value : Text} (hkey : world.key = some value) :
    (reserveAlone plan request world).2 = world := by
  have hsame : ({ world with key := some value } : IngestWorld) = world := by
    rw [← hkey]
  have hfinish : ∀ outcome, Keeps (fun current => current = world)
      (finishReserve (pure inProgressReservation) outcome) := by
    intro outcome
    cases outcome with
    | waiting point => exact Keeps.pure _
    | returned reservation => exact Keeps.pure _
    | raised => exact Keeps.raise _
  unfold reserveAlone
  simp only [hkey, reserveFirst, reserveSetNx_some]
  have hset : Keeps (fun current => current = world)
      (await plan .reserveSet fun current : IngestWorld =>
        { current with key := some value }) :=
    Keeps.await fun current hcurrent => by rw [hcurrent, hsame]
  exact Keeps.bind_after _ (hset world rfl) fun _ =>
    Keeps.bind (Keeps.await fun _ h => h) fun _ => hfinish _

theorem reserveAlone_not_owner
    {value : Text} (hkey : world.key = some value)
    {reservation : IdempotencyReservation} {next : IngestWorld}
    (hreserved : reserveAlone plan request world = (.ok reservation, next)) :
    reservation = inProgressReservation ∨
      ∃ body, reservation = replayReservation body := by
  unfold reserveAlone at hreserved
  simp only [hkey, reserveFirst, reserveSetNx_some, finishReserve, bind_eq_ok,
    await_eq_ok] at hreserved
  obtain ⟨_, _, -, _, _, -, hfinish⟩ := hreserved
  rcases reserveGet_some value with hget | ⟨body, hget⟩ | hget
  · simp only [hget, pure_eq_ok] at hfinish
    exact Or.inl hfinish.1.symm
  · simp only [hget, pure_eq_ok] at hfinish
    exact Or.inr ⟨body, hfinish.1.symm⟩
  · simp [hget] at hfinish

/-- While the key exists, a request changes neither the key nor the
database. -/
theorem ingest_of_key_some
    {value : Text} (hkey : world.key = some value) :
    (ingest plan request world).2 = world := by
  have hsame := @reserveAlone_of_key_some plan request world value hkey
  unfold ingest
  by_cases hreserved : ∃ reservation next,
      reserveAlone plan request world = (.ok reservation, next)
  · obtain ⟨reservation, next, hok⟩ := hreserved
    obtain rfl : next = world := by simpa [hok] using hsame
    rw [bind_of_ok hok]
    rcases reserveAlone_not_owner hkey hok with rfl | ⟨body, rfl⟩
    · rfl
    · rfl
  · rw [bind_of_not_ok fun reservation next hok =>
      hreserved ⟨reservation, next, hok⟩]
    exact hsame

theorem ingestRetries_of_key_some
    (retries : List (IngestPlan × IngestRequest))
    {value : Text} (hkey : world.key = some value) :
    ingestRetries retries world = world := by
  induction retries with
  | nil => rfl
  | cons retry rest ih =>
      rw [ingestRetries, List.foldl_cons, ingest_of_key_some hkey]
      exact ih

/-- A request which raises leaves what its release leaves. -/
theorem ingestAsOwner_of_raises
    (hraises : ∀ body next,
      storeNotification plan request world ≠ (.ok body, next))
    (ownerToken : Option Text) :
    (ingestAsOwner plan request ownerToken world).2 =
      (await plan .release (releaseKey request ownerToken)
        (storeNotification plan request world).2).2 := by
  cases hrun : storeNotification plan request world with
  | mk outcome middle =>
    cases outcome with
    | ok body => exact absurd hrun (hraises body middle)
    | error fault =>
        unfold ingestAsOwner
        rw [bind_of_not_ok]
        · rw [tryExcept_of_error hrun rfl]
          simp
        · intro body next hok
          simp [hrun] at hok

/-- A request which returns leaves what the storing of its answer leaves. -/
theorem ingestAsOwner_of_returns
    {body : IngestBody} {next : IngestWorld}
    (hreturns : storeNotification plan request world = (.ok body, next))
    (ownerToken : Option Text) :
    (ingestAsOwner plan request ownerToken world).2 =
      (await plan .storeResponse
        (storeKey request ownerToken body.record) next).2 := by
  unfold ingestAsOwner
  rw [bind_of_ok (tryExcept_of_ok hreturns)]
  simp

theorem ingestAsOwner_stored (ownerToken : Option Text) :
    (ingestAsOwner plan request ownerToken world).2.stored =
      (storeNotification plan request world).2.stored := by
  have hkeeps : ∀ effect : IngestWorld → IngestWorld,
      (∀ current, (effect current).stored = current.stored) →
      ∀ point current, (await plan point effect current).2.stored =
        current.stored := by
    intro effect heffect point current
    have hstays : Keeps (HasStored current.stored) (await plan point effect) :=
      Keeps.await fun middle hmiddle => (heffect middle).trans hmiddle
    exact hstays current rfl
  by_cases hreturns : ∃ body next,
      storeNotification plan request world = (.ok body, next)
  · obtain ⟨body, next, hok⟩ := hreturns
    rw [ingestAsOwner_of_returns hok, hok]
    exact hkeeps (storeKey request ownerToken body.record)
      (fun _ => rfl) _ _
  · rw [ingestAsOwner_of_raises fun body next hok =>
      hreturns ⟨body, next, hok⟩]
    exact hkeeps (releaseKey request ownerToken) (fun _ => rfl) _ _

/-- The owner of the key leaves it free if it raises and the release reaches
Redis. -/
theorem ingestAsOwner_key_eq_none_iff
    (hkey : HasKey (some (sentinel request.ownerToken)) world) :
    (ingestAsOwner plan request (some request.ownerToken) world).2.key =
        none ↔
      (¬ ∃ body next, storeNotification plan request world =
        (.ok body, next)) ∧ (plan .release).executes = true := by
  have hnamed : (storeNotification plan request world).2.key =
      some (sentinel request.ownerToken) :=
    @storeNotification_keeps_key plan request _ world hkey
  by_cases hreturns : ∃ body next,
      storeNotification plan request world = (.ok body, next)
  · obtain ⟨body, next, hok⟩ := hreturns
    replace hnamed : next.key = some (sentinel request.ownerToken) := by
      simpa [hok] using hnamed
    refine iff_of_false ?_ fun hnot => hnot.1 ⟨body, next, hok⟩
    rw [ingestAsOwner_of_returns hok]
    cases hstore : (plan .storeResponse).executes with
    | true =>
        rw [await_of_executes hstore]
        exact storeResponse_ne_none (by simp [hnamed]) _ _ _
    | false =>
        rw [await_of_not_executes hstore, hnamed]
        exact Option.some_ne_none _
  · rw [ingestAsOwner_of_raises fun body next hok =>
      hreturns ⟨body, next, hok⟩]
    cases hrelease : (plan .release).executes with
    | true =>
        rw [await_of_executes hrelease]
        have hfree : release (some (sentinel request.ownerToken))
            (some request.requestId) (some request.ownerToken) = none :=
          release_sentinel request.requestId_nonempty _
        simp [releaseKey, hnamed, hfree, hreturns]
    | false =>
        rw [await_of_not_executes hrelease, hnamed]
        simp

/-- The request which finds the key free becomes its owner, if the reply of
the SET comes back. -/
theorem ingest_of_key_none
    (hkey : world.key = none) (hset : plan .reserveSet = .completes) :
    ingest plan request world =
      ingestAsOwner plan request (some request.ownerToken)
        { world with key := some (sentinel request.ownerToken) } := by
  have hreserved : reserveAlone plan request world =
      (.ok (ownerReservation request.ownerToken),
        { world with key := some (sentinel request.ownerToken) }) := by
    unfold reserveAlone
    simp only [hkey, reserveFirst, reserveSetNx_none]
    rw [bind_await hset]
    rfl
  unfold ingest
  rw [bind_of_ok hreserved]
  rfl

theorem ingest_of_reserve_fails
    (hset : plan .reserveSet ≠ .completes) :
    (ingest plan request world).2.stored = world.stored := by
  have hset' : ∀ (effect : IngestWorld → IngestWorld) (result : Unit) next,
      await plan .reserveSet effect world ≠ (.ok result, next) :=
    fun effect result next hok => hset (await_eq_ok.mp hok).1
  have hreserve : ∀ reservation next,
      reserveAlone plan request world ≠ (.ok reservation, next) := by
    intro reservation next hok
    obtain ⟨_, _, hok, -⟩ := bind_eq_ok.mp hok
    exact hset' _ _ _ hok
  unfold ingest
  rw [bind_of_not_ok hreserve]
  unfold reserveAlone
  rw [bind_of_not_ok (hset' _)]
  have hkeeps : Keeps (HasStored world.stored)
      (await plan .reserveSet fun current : IngestWorld =>
        { current with
          key := (reserveFirst world.key request.ownerToken).1 }) :=
    Keeps.await fun _ h => h
  exact hkeeps world rfl

/-- While a stored notification implies a key, no retry stores another
one. -/
theorem noReleaseAfterCommit_of_released
    (hreleased : (ingest plan request world).2.key = none →
      (ingest plan request world).2.stored = []) :
    plan.NoReleaseAfterCommit request world := by
  refine ⟨hreleased, fun hstored retries => ?_⟩
  cases hkey : (ingest plan request world).2.key with
  | none => exact absurd (hreleased hkey) hstored
  | some value => rw [ingestRetries_of_key_some retries hkey]

/-- The key of a stored notification is never freed, unless the exit of the
session raises after the COMMIT and the release reaches Redis. -/
theorem no_release_after_commit_iff
    (plan : IngestPlan) (request : IngestRequest) (world : IngestWorld)
    (hkey : world.key = none) (hstored : world.stored = []) :
    plan.NoReleaseAfterCommit request world ↔
      ¬ plan.ReleasesAfterCommit request := by
  by_cases hset : plan .reserveSet = .completes
  · have hrun := @ingest_of_key_none plan request world hkey hset
    have hfree := @ingestAsOwner_key_eq_none_iff plan request
      { world with key := some (sentinel request.ownerToken) } rfl
    have hpersisted := @ingestAsOwner_stored plan request
      { world with key := some (sentinel request.ownerToken) }
      (some request.ownerToken)
    rw [storeNotification_returns_iff, ← hrun] at hfree
    rw [← hrun] at hpersisted
    constructor
    · rintro hpromise ⟨-, hreaches, hexecutes, hexit, hrelease⟩
      have hempty := hpromise.released
        (hfree.mpr ⟨fun hreturns => hexit hreturns.2, hrelease⟩)
      rw [hpersisted, storeNotification_stores hreaches hexecutes] at hempty
      simp at hempty
    · intro hnot
      refine noReleaseAfterCommit_of_released fun hnone => ?_
      obtain ⟨hraises, hrelease⟩ := hfree.mp hnone
      rw [hpersisted, storeNotification_stores_nothing]
      · exact hstored
      · rintro ⟨hreaches, hexecutes⟩
        exact hnot ⟨hset, hreaches, hexecutes,
          fun hquiet => hraises ⟨hreaches, hquiet⟩, hrelease⟩
  · refine iff_of_true (noReleaseAfterCommit_of_released fun _ => ?_)
      fun hreleases => hset hreleases.1
    rw [ingest_of_reserve_fails hset, hstored]

end Key

/-! ## A cancellation while the session closes -/

def unlimitedReads : SessionReads where
  limits := .unlimited
  tenant := .unlimited
  notificationsToday := 0
  usedBytes := 0
  hasBindings := true
  targets := 1

/-- A small body, stored inline. -/
def inlineRequest : IngestRequest where
  requestId := "cron-42".toList
  requestId_nonempty := by decide
  ownerToken := "first".toList
  bodyLength := 100
  inlineMaxBytes := 1048576
  notificationId := plainText "6f0b".toList (by decide)
  severity := .error
  severitySource := .rule
  checkingReads := unlimitedReads
  writingReads := unlimitedReads

/-- The same body sent again. -/
def retriedRequest : IngestRequest :=
  { inlineRequest with
    ownerToken := "second".toList
    notificationId := plainText "8c21".toList (by decide) }

def noFault : IngestPlan := fun _ => .completes

def cancelledAtClose : IngestPlan
  | .writing .close => .failsBefore .cancelled
  | _ => .completes

def freshWorld : IngestWorld where
  key := none
  stored := []
  pending := []

/-- The client is gone while the session closes; its retry is stored again. -/
theorem release_after_commit_cancelled :
    ¬ ∀ (plan : IngestPlan) (request : IngestRequest) (world : IngestWorld),
      world.key = none → world.stored = [] →
        plan.NoReleaseAfterCommit request world := by
  intro hall
  have hpromise := hall cancelledAtClose inlineRequest freshWorld rfl rfl
  have hretried := hpromise.retried (by decide) [(noFault, retriedRequest)]
  revert hretried
  decide

theorem no_release_after_commit_noFault :
    noFault.NoReleaseAfterCommit inlineRequest freshWorld :=
  (no_release_after_commit_iff noFault inlineRequest freshWorld rfl rfl).mpr
    fun hreleases => hreleases.2.2.2.1 ⟨Or.inl rfl, rfl⟩

end NotifyHub
