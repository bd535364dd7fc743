import NotifyHub.UserRequests
import Mathlib.Tactic

/-!
# The locks behind the statements of an edit

A transaction keeps the lock of every statement which it has executed until
it ends.  What it has executed is the part of `Edit.statements` before the
part it still has to execute, so an edit about to commit holds the row of its
target if it changes the row, and holds it for update if it has read the
refresh tokens.
-/

namespace NotifyHub

variable {Process : Type*} {Id : Type}

namespace Statement

/-- The lock with which a statement leaves its transaction. -/
def Locked (state : UserState Process Id) (process : Process) :
    Statement Id → Prop
  | .shareTenant => state.tenantLock.Holds process .keyShare
  | .shareUser userId => (state.userLock userId).Holds process .keyShare
  | .lockUser userId => (state.userLock userId).Holds process .forUpdate
  | .writeUser userId => (state.userLock userId).Holds process .noKeyUpdate
  | .readGroups _ | .readTokens => True

end Statement

/-- A process loses no lock. -/
structure UserState.KeepsLocks
    (state next : UserState Process Id) (process : Process) : Prop where
  tenant : ∀ mode, state.tenantLock.Holds process mode →
    next.tenantLock.Holds process mode
  user : ∀ id mode, (state.userLock id).Holds process mode →
    (next.userLock id).Holds process mode

theorem Statement.Locked.keep
    {state next : UserState Process Id} {process : Process}
    {statement : Statement Id} (hlocked : statement.Locked state process)
    (hkeeps : state.KeepsLocks next process) :
    statement.Locked next process := by
  cases statement with
  | shareTenant => exact hkeeps.tenant _ hlocked
  | shareUser userId => exact hkeeps.user _ _ hlocked
  | lockUser userId => exact hkeeps.user _ _ hlocked
  | writeUser userId => exact hkeeps.user _ _ hlocked
  | readGroups groupIds => trivial
  | readTokens => trivial

namespace UserState

theorem KeepsLocks.refl (state : UserState Process Id) (process : Process) :
    state.KeepsLocks state process :=
  ⟨fun _ hheld => hheld, fun _ _ hheld => hheld⟩

variable [DecidableEq Process]

theorem KeepsLocks.goto
    {state locked : UserState Process Id} {other : Process}
    (hkeeps : state.KeepsLocks locked other) (process : Process)
    (phase : UserPhase Id) :
    state.KeepsLocks (locked.goto process phase) other :=
  ⟨hkeeps.tenant, hkeeps.user⟩

theorem keepsLocks_finish
    (state : UserState Process Id) {process other : Process}
    (outcome : Outcome) (hne : other ≠ process) :
    state.KeepsLocks (state.finish process outcome) other :=
  ⟨fun _ hheld => RowLock.holds_release_iff.mpr ⟨hheld, hne⟩,
    fun _ _ hheld => RowLock.holds_release_iff.mpr ⟨hheld, hne⟩⟩

theorem lockTenant_eq_some
    {state locked : UserState Process Id} {process : Process}
    {mode : LockMode} (hlock : state.lockTenant process mode = some locked) :
    locked.store = state.store ∧ locked.phase = state.phase ∧
      locked.tenantLock.Holds process mode ∧
      ∀ other, state.KeepsLocks locked other := by
  obtain ⟨lock, hacquire, rfl⟩ := Option.map_eq_some_iff.mp hlock
  refine ⟨rfl, rfl, (RowLock.holds_acquire_iff hacquire).mpr (.inl ⟨rfl, rfl⟩),
    fun other => ⟨fun mode hheld => ?_, fun _ _ hheld => hheld⟩⟩
  exact (RowLock.holds_acquire_iff hacquire).mpr (.inr hheld)

variable [DecidableEq Id]

theorem lockUser_eq_some
    {state locked : UserState Process Id} {process : Process} {userId : Id}
    {mode : LockMode}
    (hlock : state.lockUser process userId mode = some locked) :
    locked.store = state.store ∧ locked.phase = state.phase ∧
      (locked.userLock userId).Holds process mode ∧
      ∀ other, state.KeepsLocks locked other := by
  obtain ⟨lock, hacquire, rfl⟩ := Option.map_eq_some_iff.mp hlock
  refine ⟨rfl, rfl, ?_, fun other =>
    ⟨fun _ hheld => hheld, fun id mode hheld => ?_⟩⟩
  · simp only [Function.update_self]
    exact (RowLock.holds_acquire_iff hacquire).mpr (.inl ⟨rfl, rfl⟩)
  · by_cases heq : id = userId
    · subst heq
      simp only [Function.update_self]
      exact (RowLock.holds_acquire_iff hacquire).mpr (.inr hheld)
    · simpa only [Function.update_of_ne heq] using hheld

end UserState

/-! ## One statement -/

/-- What a statement adds to the work of its transaction. -/
def Statement.reads (store : UserStore Id) : Statement Id → Work Id → Work Id
  | .readGroups groupIds, work => work.readGroups store groupIds
  | .readTokens, work => work.readTokens store
  | _, work => work

theorem Statement.work_of_reads
    {store : UserStore Id} {statement : Statement Id} {work : Work Id}
    {change : Edit Id} {after : Progress Id}
    (hreads : statement.reads store work = .edit change after) :
    ∃ before, work = .edit change before := by
  cases work with
  | edit other before =>
      refine ⟨before, ?_⟩
      cases statement with
      | _ => rw [(Work.edit.inj hreads).1]
  | _ =>
      cases statement with
      | _ => contradiction

variable [DecidableEq Process] [DecidableEq Id] [ToString Id]

theorem UserState.execute_cases
    {state next : UserState Process Id} {process : Process} {work : Work Id}
    {statement : Statement Id} {rest : List (Statement Id)}
    (hexecute : state.execute process work rest statement = some next) :
    (∃ outcome, next = state.finish process outcome) ∨
      (next.store = state.store ∧
        next.phase = Function.update state.phase process
          (.writing (statement.reads state.store work) rest) ∧
        statement.Locked next process ∧
        ∀ other, state.KeepsLocks next other) := by
  cases statement with
  | shareTenant =>
      obtain ⟨locked, hlock, rfl⟩ := Option.map_eq_some_iff.mp hexecute
      obtain ⟨hstore, hphase, hheld, hkeeps⟩ := lockTenant_eq_some hlock
      exact .inr ⟨hstore, by rw [goto_phase, hphase]; rfl, hheld,
        fun other => (hkeeps other).goto _ _⟩
  | shareUser userId =>
      obtain ⟨locked, hlock, rfl⟩ := Option.map_eq_some_iff.mp hexecute
      obtain ⟨hstore, hphase, hheld, hkeeps⟩ := lockUser_eq_some hlock
      exact .inr ⟨hstore, by rw [goto_phase, hphase]; rfl, hheld,
        fun other => (hkeeps other).goto _ _⟩
  | lockUser userId =>
      obtain ⟨locked, hlock, rfl⟩ := Option.map_eq_some_iff.mp hexecute
      obtain ⟨hstore, hphase, hheld, hkeeps⟩ := lockUser_eq_some hlock
      exact .inr ⟨hstore, by rw [goto_phase, hphase]; rfl, hheld,
        fun other => (hkeeps other).goto _ _⟩
  | writeUser userId =>
      obtain ⟨locked, hlock, rfl⟩ := Option.map_eq_some_iff.mp hexecute
      obtain ⟨hstore, hphase, hheld, hkeeps⟩ := lockUser_eq_some hlock
      exact .inr ⟨hstore, by rw [goto_phase, hphase]; rfl, hheld,
        fun other => (hkeeps other).goto _ _⟩
  | readGroups groupIds =>
      simp only [UserState.execute] at hexecute
      split at hexecute
      · exact .inl ⟨_, (Option.some.inj hexecute).symm⟩
      · obtain rfl := Option.some.inj hexecute
        exact .inr ⟨rfl, rfl, trivial,
          fun other => (KeepsLocks.refl state other).goto _ _⟩
  | readTokens =>
      obtain rfl := Option.some.inj hexecute
      exact .inr ⟨rfl, rfl, trivial,
          fun other => (KeepsLocks.refl state other).goto _ _⟩

theorem UserState.step_keepsLocks
    {state next : UserState Process Id} {action : UserAction Process Id}
    (hstep : state.step action = some next) {other : Process}
    (hne : other ≠ action.process) : state.KeepsLocks next other := by
  cases action with
  | start process request =>
      simp only [step] at hstep
      split at hstep
      · split at hstep
        · exact Option.some.inj hstep ▸ keepsLocks_finish state _ hne
        · exact Option.some.inj hstep ▸ (KeepsLocks.refl state other).goto _ _
      · contradiction
  | lockTenant process =>
      simp only [step] at hstep
      split at hstep
      · obtain ⟨locked, hlock, rfl⟩ := Option.map_eq_some_iff.mp hstep
        obtain ⟨-, -, -, hkeeps⟩ := lockTenant_eq_some hlock
        exact (hkeeps other).goto _ _
      · contradiction
  | countOwners process =>
      simp only [step] at hstep
      split at hstep
      · split at hstep
        · exact Option.some.inj hstep ▸ keepsLocks_finish state _ hne
        · exact Option.some.inj hstep ▸ (KeepsLocks.refl state other).goto _ _
      · contradiction
  | lockInvitation process now =>
      simp only [step] at hstep
      split at hstep
      · split at hstep
        · exact Option.some.inj hstep ▸ keepsLocks_finish state _ hne
        split at hstep
        · exact Option.some.inj hstep ▸ keepsLocks_finish state _ hne
        · obtain ⟨lock, -, rfl⟩ := Option.map_eq_some_iff.mp hstep
          split
          · exact keepsLocks_finish state _ hne
          · exact ⟨fun _ hheld => hheld, fun _ _ hheld => hheld⟩
      · contradiction
  | execute process =>
      simp only [step] at hstep
      split at hstep
      · rcases execute_cases hstep with ⟨outcome, rfl⟩ | ⟨-, -, -, hkeeps⟩
        · exact keepsLocks_finish state _ hne
        · exact hkeeps other
      · contradiction
  | commit process =>
      obtain ⟨work, store, -, -, rfl⟩ := commit_eq_some hstep
      obtain ⟨htenant, huser⟩ := keepsLocks_finish state .succeeded hne
      exact ⟨htenant, huser⟩
  | rollback process =>
      simp only [step] at hstep
      split at hstep
      · exact Option.some.inj hstep ▸ keepsLocks_finish state _ hne
      · contradiction

/-! ## Refresh tokens under the requests -/

omit [DecidableEq Process] [ToString Id] in
theorem UserStore.commitEdit_liveTokens
    {store after : UserStore Id} {edit : Edit Id} {progress : Progress Id}
    (hcommit : store.commitEdit edit progress = some after) :
    after.liveTokens edit.target =
      store.liveTokens edit.target \ progress.revoked := by
  simp only [commitEdit] at hcommit
  split at hcommit
  next => exact Option.some.inj hcommit ▸ by simp
  next => contradiction

omit [DecidableEq Process] [ToString Id] in
/-- No request of this machine opens a session. -/
theorem Work.apply_liveTokens_subset
    {store after : UserStore Id} {work : Work Id}
    (happly : work.apply store = some after) (id : Id) :
    after.liveTokens id ⊆ store.liveTokens id := by
  have hinsert : ∀ {role userId groupIds} {inserted : UserStore Id},
      store.insertUser userId role groupIds = some inserted →
        inserted.liveTokens id ⊆ store.liveTokens id := by
    intro role userId groupIds inserted hinsert
    unfold UserStore.insertUser at hinsert
    split at hinsert
    next =>
      obtain rfl := Option.some.inj hinsert
      by_cases heq : id = userId
      · subst heq
        simp
      · simp [heq]
    next => contradiction
  cases work with
  | edit change progress =>
      by_cases heq : id = change.target
      · subst heq
        rw [UserStore.commitEdit_liveTokens happly]
        exact Finset.sdiff_subset
      · rw [((UserStore.commitEdit_eq_some happly).2.2 id heq).liveTokens]
  | create claims userId body => exact hinsert happly
  | invite invitationId invitation =>
      simp only [Work.apply] at happly
      split at happly
      next => exact Option.some.inj happly ▸ subset_rfl
      next => contradiction
  | accept invitationId invitation userId now =>
      obtain ⟨inserted, hinserted, rfl⟩ := Option.map_eq_some_iff.mp happly
      have hsubset := hinsert hinserted
      exact hsubset

theorem UserState.step_liveTokens
    {state next : UserState Process Id} {action : UserAction Process Id}
    (hstep : state.step action = some next) (id : Id) :
    next.store.liveTokens id ⊆ state.store.liveTokens id := by
  rcases step_effect hstep with
    ⟨process, work, store, -, -, happly, rfl⟩ | heffect
  · exact Work.apply_liveTokens_subset happly id
  · rw [heffect.store_eq]

/-- No user goes away. -/
theorem UserState.step_users
    {state next : UserState Process Id} {action : UserAction Process Id}
    (hstep : state.step action = some next) :
    state.store.users ⊆ next.store.users := by
  rcases step_effect hstep with
    ⟨process, work, store, -, -, happly, rfl⟩ | heffect
  · rcases Work.apply_cases happly with
      ⟨_, _, -, husers, -⟩ | ⟨userId, _, -, -, husers, -⟩ | ⟨husers, -⟩
    · exact husers.ge
    · rw [finish_store, husers]
      exact Finset.subset_insert ..
    · exact husers.ge
  · rw [heffect.store_eq]

/-! ## Executed statements -/

omit [DecidableEq Process] [DecidableEq Id] [ToString Id] in
/-- What holds of an edit which has executed `done`: it keeps the locks it has
taken, and it revokes all refresh tokens of its target once it has read
them. -/
structure Edit.Executed
    (state : UserState Process Id) (process : Process) (change : Edit Id)
    (progress : Progress Id) (done : List (Statement Id)) : Prop where
  locked : ∀ statement ∈ done, statement.Locked state process
  read : .readTokens ∈ done →
    state.store.liveTokens change.target ⊆ progress.revoked
  unread : .readTokens ∉ done → progress.revoked = ∅

section Order

omit [DecidableEq Id] [ToString Id]

theorem Edit.lockUser_mem_of_readTokens
    {change : Edit Id} {done rest : List (Statement Id)}
    (hsplit : done ++ rest = change.statements)
    (hread : .readTokens ∈ done) : .lockUser change.target ∈ done := by
  have hends : change.endsSessions = true := by
    have hmem : Statement.readTokens ∈ change.statements :=
      hsplit ▸ List.mem_append_left rest hread
    by_contra hends
    simp only [statements, hends, if_false, List.nil_append,
      List.append_nil, List.mem_append] at hmem
    rcases hmem with hmem | hmem
    · split at hmem <;> simp at hmem
    · split at hmem <;> simp at hmem
  -- The two locks come first, and reading the tokens is neither of them.
  simp only [statements, hends, if_true, List.append_assoc,
    List.cons_append, List.nil_append] at hsplit
  match done, hread, hsplit with
  | [first], hread, hsplit =>
      obtain ⟨rfl, -⟩ := List.cons.inj hsplit
      simp at hread
  | first :: second :: later, _, hsplit =>
      obtain ⟨-, htail⟩ := List.cons.inj hsplit
      obtain ⟨rfl, -⟩ := List.cons.inj htail
      simp

theorem Edit.readTokens_mem
    {change : Edit Id} (hends : change.endsSessions = true) :
    .readTokens ∈ change.statements := by
  simp [statements, hends]

theorem Edit.writeUser_mem
    {change : Edit Id} (hchanges : change.final ≠ change.loaded) :
    .writeUser change.target ∈ change.statements := by
  simp [statements, hchanges]

end Order

namespace Edit.Executed

section Facts

omit [DecidableEq Process] [DecidableEq Id] [ToString Id]

variable {state : UserState Process Id} {process : Process}
  {change : Edit Id} {progress : Progress Id}
  {done rest : List (Statement Id)}

theorem holds_of_read
    (hexecuted : change.Executed state process progress done)
    (hsplit : done ++ rest = change.statements)
    (hread : .readTokens ∈ done) :
    (state.userLock change.target).Holds process .forUpdate :=
  hexecuted.locked _ (change.lockUser_mem_of_readTokens hsplit hread)

/-- Whoever is about to revoke a refresh token holds its user for update. -/
theorem holds_of_revoked
    (hexecuted : change.Executed state process progress done)
    (hsplit : done ++ rest = change.statements) {id : Id}
    (hrevoked : id ∈ progress.revoked) :
    (state.userLock change.target).Holds process .forUpdate := by
  apply hexecuted.holds_of_read hsplit
  by_contra hunread
  rw [hexecuted.unread hunread] at hrevoked
  simp at hrevoked

/-- Before its commit an edit which ends the sessions has read them all. -/
theorem liveTokens_subset
    (hexecuted : change.Executed state process progress change.statements)
    (hends : change.endsSessions = true) :
    state.store.liveTokens change.target ⊆ progress.revoked :=
  hexecuted.read (change.readTokens_mem hends)

/-- Before its commit an edit which changes the row holds it. -/
theorem holds_of_changes
    (hexecuted : change.Executed state process progress change.statements)
    (hchanges : change.final ≠ change.loaded) :
    (state.userLock change.target).Holds process .noKeyUpdate :=
  hexecuted.locked _ (change.writeUser_mem hchanges)

theorem mono
    (hexecuted : change.Executed state process progress done)
    {next : UserState Process Id} (hkeeps : state.KeepsLocks next process)
    (hlive : .readTokens ∈ done →
      next.store.liveTokens change.target ⊆
        state.store.liveTokens change.target) :
    change.Executed next process progress done where
  locked statement hmem := (hexecuted.locked statement hmem).keep hkeeps
  read hread := (hlive hread).trans (hexecuted.read hread)
  unread := hexecuted.unread

theorem start
    (state : UserState Process Id) (process : Process) (change : Edit Id) :
    change.Executed state process .start [] where
  locked _ hmem := nomatch hmem
  read hread := nomatch hread
  unread _ := rfl

end Facts

end Edit.Executed

/-- Every edit under way has executed the first part of its statements. -/
def UserState.Tracks (state : UserState Process Id) : Prop :=
  ∀ process change progress rest,
    state.phase process = .writing (.edit change progress) rest →
      ∃ done, done ++ rest = change.statements ∧
        change.Executed state process progress done

namespace UserState.Tracks

omit [DecidableEq Process] [DecidableEq Id] [ToString Id] in
theorem executed_of_nil
    {state : UserState Process Id} (htracks : state.Tracks)
    {process : Process} {change : Edit Id} {progress : Progress Id}
    (hphase : state.phase process = .writing (.edit change progress) []) :
    change.Executed state process progress change.statements := by
  obtain ⟨done, hsplit, hexecuted⟩ := htracks process change progress [] hphase
  rw [List.append_nil] at hsplit
  exact hsplit ▸ hexecuted

omit [DecidableEq Id] [ToString Id] [DecidableEq Process] in
theorem quiet
    {state : UserState Process Id} (hquiet : state.Quiet) : state.Tracks := by
  intro process change progress rest hphase
  rw [hquiet.phase process] at hphase
  contradiction

omit [DecidableEq Id] [ToString Id] [DecidableEq Process] in
/-- The statement which an edit executes joins those it has executed. -/
theorem execute
    {state next : UserState Process Id} (htracks : state.Tracks)
    {process : Process} {change : Edit Id} {progress : Progress Id}
    {statement : Statement Id} {rest : List (Statement Id)}
    (hphase : state.phase process =
      .writing (.edit change progress) (statement :: rest))
    (hstore : next.store = state.store)
    (hlocked : statement.Locked next process)
    (hkeeps : state.KeepsLocks next process) {after : Progress Id}
    (hafter : Work.edit change after =
      statement.reads state.store (.edit change progress)) :
    ∃ done, done ++ rest = change.statements ∧
      change.Executed next process after done := by
  obtain ⟨done, hsplit, hexecuted⟩ :=
    htracks process change progress _ hphase
  refine ⟨done ++ [statement], by simpa using hsplit, ?_⟩
  have hmono := hexecuted.mono hkeeps fun _ => by rw [hstore]
  have hall : ∀ executed ∈ done ++ [statement],
      executed.Locked next process := by
    intro executed hmem
    rcases List.mem_append.mp hmem with hmem | hmem
    · exact hmono.locked executed hmem
    · exact List.mem_singleton.mp hmem ▸ hlocked
  cases statement with
  | readTokens =>
      obtain rfl := (Work.edit.inj hafter).2
      refine ⟨hall, fun _ => ?_, fun hunread => ?_⟩
      · rw [hstore]
      · simp at hunread
  | readGroups groupIds =>
      obtain rfl := (Work.edit.inj hafter).2
      exact ⟨hall, fun hread => hmono.read (by simpa using hread),
        fun hunread => hmono.unread (by simpa using hunread)⟩
  | _ =>
      obtain rfl := (Work.edit.inj hafter).2
      exact ⟨hall, fun hread => hmono.read (by simpa using hread),
        fun hunread => hmono.unread (by simpa using hunread)⟩

omit [DecidableEq Id] [ToString Id] [DecidableEq Process] in
theorem started
    (state : UserState Process Id) (process : Process)
    {edit change : Edit Id} {progress : Progress Id}
    {rest : List (Statement Id)}
    (hphase : UserPhase.writing (.edit edit .start) edit.statements =
      .writing (.edit change progress) rest) :
    ∃ done, done ++ rest = change.statements ∧
      change.Executed state process progress done := by
  obtain ⟨hwork, rfl⟩ := UserPhase.writing.inj hphase
  obtain ⟨rfl, rfl⟩ := Work.edit.inj hwork
  exact ⟨[], rfl, .start state process edit⟩

theorem step_self
    {state next : UserState Process Id} (htracks : state.Tracks)
    {action : UserAction Process Id}
    (hstep : state.step action = some next)
    {change : Edit Id} {progress : Progress Id} {rest : List (Statement Id)}
    (hafter : next.phase action.process =
      .writing (.edit change progress) rest) :
    ∃ done, done ++ rest = change.statements ∧
      change.Executed next action.process progress done := by
  cases action with
  | start process request =>
      simp only [UserState.step] at hstep
      split at hstep
      · split at hstep
        · obtain rfl := Option.some.inj hstep
          simp [UserAction.process] at hafter
        next phase hstart =>
          obtain rfl := Option.some.inj hstep
          simp only [UserAction.process, goto_phase,
            Function.update_self] at hafter
          rcases UserStore.start_cases hstart with
            ⟨edit, -, rfl⟩ | ⟨work, statements, rfl, htarget, -⟩ |
            ⟨_, _, rfl⟩
          · unfold Edit.phase at hafter
            split at hafter
            · contradiction
            · exact started _ _ hafter
          · obtain ⟨rfl, -⟩ := UserPhase.writing.inj hafter
            contradiction
          · contradiction
      · contradiction
  | lockTenant process =>
      simp only [UserState.step] at hstep
      split at hstep
      · obtain ⟨locked, -, rfl⟩ := Option.map_eq_some_iff.mp hstep
        simp [UserAction.process] at hafter
      · contradiction
  | countOwners process =>
      simp only [UserState.step] at hstep
      split at hstep
      · split at hstep
        · obtain rfl := Option.some.inj hstep
          simp [UserAction.process] at hafter
        · obtain rfl := Option.some.inj hstep
          simp only [UserAction.process, goto_phase,
            Function.update_self] at hafter
          exact started _ _ hafter
      · contradiction
  | lockInvitation process now =>
      rcases UserState.step_effect hstep with
        ⟨_, _, _, haction, -⟩ | heffect
      · contradiction
      · simp only [UserState.step] at hstep
        split at hstep
        next invitationId newId hphase =>
          cases heffect with
          | accepts _ _ => simp [UserAction.process] at hafter
          | ends outcome => simp [UserAction.process] at hafter
          | opens hother _ => simp [UserAction.process, hphase] at hother
          | locksTenant hother _ => simp [UserAction.process, hphase] at hother
          | counts hother _ => simp [UserAction.process, hphase] at hother
          | executes hother _ _ _ _ =>
              simp [UserAction.process, hphase] at hother
        next => contradiction
  | execute process =>
      simp only [UserState.step] at hstep
      split at hstep
      next work statement statements hphase =>
        rcases execute_cases hstep with
          ⟨outcome, rfl⟩ | ⟨hstore, hmoved, hlocked, hkeeps⟩
        · simp [UserAction.process] at hafter
        · simp only [UserAction.process, hmoved,
            Function.update_self] at hafter
          obtain ⟨hwork, rfl⟩ := UserPhase.writing.inj hafter
          obtain ⟨before, rfl⟩ := Statement.work_of_reads hwork
          exact htracks.execute hphase hstore hlocked (hkeeps process)
            hwork.symm
      next => contradiction
  | commit process =>
      obtain ⟨work, store, -, -, rfl⟩ := commit_eq_some hstep
      simp [UserAction.process] at hafter
  | rollback process =>
      simp only [UserState.step] at hstep
      split at hstep
      · obtain rfl := Option.some.inj hstep
        simp [UserAction.process] at hafter
      · contradiction

theorem step
    {state next : UserState Process Id} (htracks : state.Tracks)
    {action : UserAction Process Id}
    (hstep : state.step action = some next) : next.Tracks := by
  intro process change progress rest hphase
  by_cases heq : process = action.process
  · subst heq
    exact htracks.step_self hstep hphase
  · rw [UserState.step_phase_of_ne hstep heq] at hphase
    obtain ⟨done, hsplit, hexecuted⟩ :=
      htracks process change progress rest hphase
    exact ⟨done, hsplit, hexecuted.mono
      (UserState.step_keepsLocks hstep heq)
      fun _ => UserState.step_liveTokens hstep change.target⟩

end UserState.Tracks

/-! ## Edits which disable their target -/

omit [DecidableEq Process] [DecidableEq Id] [ToString Id] in
/-- An edit which changes the status to `disabled` ends the sessions too. -/
def Edit.EndsWhenDisabling (change : Edit Id) : Prop :=
  change.final.status = .disabled → change.loaded.status ≠ .disabled →
    change.endsSessions = true

omit [DecidableEq Process] [ToString Id] in
theorem UserStore.updateUser_ends
    {store : UserStore Id} {claims : AccessClaims Id} {userId : Id}
    {body : UserPatchIn Id} {edit : Edit Id}
    (hedit : store.updateUser claims userId body = .ok edit) :
    edit.EndsWhenDisabling := by
  simp only [updateUser, Except.bind_eq_ok] at hedit
  obtain ⟨_, -, user, -, _, -, _, -, hok⟩ := hedit
  obtain rfl := Except.ok.inj hok
  intro hfinal hloaded
  cases hstatus : body.status with
  | none => exact absurd (by simpa [hstatus] using hfinal) hloaded
  | some status =>
      obtain rfl : status = .disabled := by simpa [hstatus] using hfinal
      simpa using hloaded

omit [DecidableEq Process] [ToString Id] in
theorem UserStore.removeUser_ends
    {store : UserStore Id} {claims : AccessClaims Id} {userId : Id}
    {edit : Edit Id} (hedit : store.removeUser claims userId = .ok edit) :
    edit.EndsWhenDisabling := by
  simp only [removeUser, Except.bind_eq_ok] at hedit
  obtain ⟨_, -, user, -, _, -, hok⟩ := hedit
  obtain rfl := Except.ok.inj hok
  exact fun _ _ => rfl

omit [DecidableEq Process] [DecidableEq Id] [ToString Id] in
theorem Edit.phase_edit (edit : Edit Id) : edit.phase.edit = some edit := by
  unfold Edit.phase
  split <;> rfl

omit [DecidableEq Process] in
theorem UserStore.start_ends
    {store : UserStore Id} {request : UserRequest Id} {phase : UserPhase Id}
    (hstart : store.start request = .ok phase) :
    ∀ edit ∈ phase.edit, edit.EndsWhenDisabling := by
  intro edit hedit
  cases request with
  | updateUser claims userId body =>
      obtain ⟨opened, hopened, rfl⟩ := Except.map_eq_ok.mp hstart
      rw [Edit.phase_edit] at hedit
      exact Option.some.inj hedit ▸ updateUser_ends hopened
  | removeUser claims userId =>
      obtain ⟨opened, hopened, rfl⟩ := Except.map_eq_ok.mp hstart
      rw [Edit.phase_edit] at hedit
      exact Option.some.inj hedit ▸ removeUser_ends hopened
  | createUser claims newId body =>
      obtain ⟨work, hwork, rfl⟩ := Except.map_eq_ok.mp hstart
      simp only [createUser, Except.bind_eq_ok] at hwork
      obtain ⟨_, -, _, -, _, -, hok⟩ := hwork
      obtain rfl := Except.ok.inj hok
      contradiction
  | createInvitation claims newId role now =>
      obtain ⟨work, hwork, rfl⟩ := Except.map_eq_ok.mp hstart
      simp only [NotifyHub.createInvitation, Except.bind_eq_ok] at hwork
      obtain ⟨_, -, _, -, hok⟩ := hwork
      obtain rfl := Except.ok.inj hok
      contradiction
  | acceptInvitation invitationId newId now =>
      obtain rfl := acceptInvitation_eq_ok hstart
      contradiction

theorem UserState.step_ends
    {state next : UserState Process Id} {action : UserAction Process Id}
    (hends : ∀ process, ∀ edit ∈ (state.phase process).edit,
      edit.EndsWhenDisabling)
    (hstep : state.step action = some next) :
    ∀ process, ∀ edit ∈ (next.phase process).edit,
      edit.EndsWhenDisabling := by
  intro process edit hedit
  by_cases heq : process = action.process
  · subst heq
    have hself := hends action.process
    rcases UserState.step_effect hstep with
      ⟨process, work, store, rfl, -, -, rfl⟩ | heffect
    · simp [UserAction.process, UserPhase.edit] at hedit
    · cases heffect with
      | opens _ hstart =>
          rw [goto_phase, Function.update_self] at hedit
          exact UserStore.start_ends hstart edit hedit
      | locksTenant hphase _ =>
          rw [hphase] at hself
          rw [goto_phase, Function.update_self] at hedit
          exact hself edit hedit
      | counts hphase _ =>
          rw [hphase] at hself
          rw [goto_phase, Function.update_self] at hedit
          exact hself edit hedit
      | accepts _ _ => simp [UserPhase.edit] at hedit
      | executes hphase hwork _ hmoved _ =>
          rw [hphase] at hself
          rw [hmoved, Function.update_self] at hedit
          rcases hwork with rfl | ⟨change, before, after, rfl, rfl⟩
          · exact hself edit (UserPhase.edit_writing .. ▸ hedit)
          · exact hself edit hedit
      | ends outcome => simp [UserPhase.edit] at hedit
  · rw [UserState.step_phase_of_ne hstep heq] at hedit
    exact hends process edit hedit

end NotifyHub
