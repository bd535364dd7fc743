import NotifyHub.UserManagement
import Mathlib.Tactic

/-!
# The user management requests as one machine

Each process is one request.  It is started on the rows committed at that
moment, goes through its statements one at a time, waiting wherever a lock is
not granted, and commits.  Before the statements of its own writes a guarded
edit locks the tenant for update and counts the active owners.
-/

namespace NotifyHub

inductive UserRequest (Id : Type)
  | updateUser
      (claims : AccessClaims Id) (userId : Id) (body : UserPatchIn Id)
  | removeUser (claims : AccessClaims Id) (userId : Id)
  | createUser
      (claims : AccessClaims Id) (newId : Id) (body : UserCreateIn Id)
  | createInvitation
      (claims : AccessClaims Id) (newId : Id) (role : UserRole)
      (now : Instant)
  | acceptInvitation (invitationId newId : Id) (now : Instant)

inductive Outcome
  | succeeded
  | refused (problem : Problem)
  | rolledBack
  deriving DecidableEq

inductive UserPhase (Id : Type)
  | idle
  | guarding (edit : Edit Id)
  | counting (edit : Edit Id)
  | accepting (invitationId newId : Id)
  | writing (work : Work Id) (rest : List (Statement Id))
  | ended (outcome : Outcome)
  deriving DecidableEq

def UserPhase.isOpen {Id : Type} : UserPhase Id → Bool
  | .idle | .ended _ => false
  | _ => true

/-- The edit of an open PATCH or DELETE. -/
def UserPhase.edit {Id : Type} : UserPhase Id → Option (Edit Id)
  | .guarding edit | .counting edit | .writing (.edit edit _) _ => some edit
  | _ => none

theorem UserPhase.edit_writing {Id : Type}
    (work : Work Id) (before after : List (Statement Id)) :
    (UserPhase.writing work before).edit =
      (UserPhase.writing work after).edit := by
  cases work <;> rfl

structure UserState (Process : Type*) (Id : Type) where
  store : UserStore Id
  tenantLock : RowLock Process
  userLock : Id → RowLock Process
  invitationLock : Id → RowLock Process
  phase : Process → UserPhase Id

inductive UserAction (Process : Type*) (Id : Type)
  | start (process : Process) (request : UserRequest Id)
  | lockTenant (process : Process)
  | countOwners (process : Process)
  | lockInvitation (process : Process) (now : Instant)
  | execute (process : Process)
  | commit (process : Process)
  | rollback (process : Process)

variable {Process : Type*} {Id : Type}

def UserAction.process : UserAction Process Id → Process
  | .start process _ | .lockTenant process | .countOwners process
  | .lockInvitation process _ | .execute process | .commit process
  | .rollback process => process

/-! ## The start of a request -/

def invalidInvitation : Problem :=
  unauthorized "Invalid or already accepted invitation.".toList

def invitationExpired : Problem :=
  unauthorized "Invitation expired.".toList

variable [DecidableEq Id]

/-- An edit goes to its statements, or to the tenant's lock first. -/
def Edit.phase (edit : Edit Id) : UserPhase Id :=
  if edit.guarded then .guarding edit
  else .writing (.edit edit .start) edit.statements

variable [ToString Id]

def UserStore.createUser
    (store : UserStore Id) (claims : AccessClaims Id) (newId : Id)
    (body : UserCreateIn Id) : Except Problem (Work Id) := do
  requireAdmin claims
  assertCanGrantOwner claims (some body.role)
  store.assertGroupsExist body.groupIds
  .ok (.create claims newId body)

omit [DecidableEq Id] [ToString Id] in
def createInvitation
    (claims : AccessClaims Id) (newId : Id) (role : UserRole)
    (now : Instant) : Except Problem (Work Id) := do
  requireAdmin claims
  assertCanGrantOwner claims (some role)
  .ok
    (.invite newId
      { role := role
        expiresAt := now + 7 * microsecondsPerDay
        acceptedAt := none
        issuedBy := claims })

omit [DecidableEq Id] [ToString Id] in
/-- The checks of `accept_invitation` on the identity of the invitation. -/
def UserStore.acceptInvitation
    (store : UserStore Id) (invitationId newId : Id) (now : Instant) :
    Except Problem (UserPhase Id) :=
  match store.invitations invitationId with
  | none => .error invalidInvitation
  | some identity => do
      raiseIf (identity.acceptedAt.isSome = true) invalidInvitation
      raiseIf (identity.expiresAt < now) invitationExpired
      .ok (.accepting invitationId newId)

def UserStore.start (store : UserStore Id) :
    UserRequest Id → Except Problem (UserPhase Id)
  | .updateUser claims userId body =>
      (store.updateUser claims userId body).map Edit.phase
  | .removeUser claims userId =>
      (store.removeUser claims userId).map Edit.phase
  | .createUser claims newId body =>
      (store.createUser claims newId body).map fun work =>
        .writing work [.shareTenant]
  | .createInvitation claims newId role now =>
      (createInvitation claims newId role now).map fun work =>
        .writing work [.shareTenant, .shareUser claims.sub]
  | .acceptInvitation invitationId newId now =>
      store.acceptInvitation invitationId newId now

/-! ## Steps -/

namespace UserState

variable [DecidableEq Process]

omit [DecidableEq Id] [ToString Id] in
def goto
    (state : UserState Process Id) (process : Process)
    (phase : UserPhase Id) : UserState Process Id :=
  { state with phase := Function.update state.phase process phase }

omit [DecidableEq Id] [ToString Id] in
/-- The end of a transaction, which gives back all its locks. -/
def finish
    (state : UserState Process Id) (process : Process) (outcome : Outcome) :
    UserState Process Id :=
  { state with
    tenantLock := state.tenantLock.release process
    userLock := fun id => (state.userLock id).release process
    invitationLock := fun id => (state.invitationLock id).release process
    phase := Function.update state.phase process (.ended outcome) }

omit [ToString Id] in
def lockUser
    (state : UserState Process Id) (process : Process) (userId : Id)
    (mode : LockMode) : Option (UserState Process Id) :=
  ((state.userLock userId).acquire process mode).map fun lock =>
    { state with userLock := Function.update state.userLock userId lock }

omit [DecidableEq Id] [ToString Id] in
def lockTenant
    (state : UserState Process Id) (process : Process) (mode : LockMode) :
    Option (UserState Process Id) :=
  (state.tenantLock.acquire process mode).map fun lock =>
    { state with tenantLock := lock }

/-- One statement of the work of a process. -/
def execute
    (state : UserState Process Id) (process : Process) (work : Work Id)
    (rest : List (Statement Id)) :
    Statement Id → Option (UserState Process Id)
  | .shareTenant =>
      (state.lockTenant process .keyShare).map fun locked =>
        locked.goto process (.writing work rest)
  | .shareUser userId =>
      (state.lockUser process userId .keyShare).map fun locked =>
        locked.goto process (.writing work rest)
  | .lockUser userId =>
      (state.lockUser process userId .forUpdate).map fun locked =>
        locked.goto process (.writing work rest)
  | .writeUser userId =>
      (state.lockUser process userId .noKeyUpdate).map fun locked =>
        locked.goto process (.writing work rest)
  | .readGroups groupIds =>
      match state.store.assertGroupsExist groupIds with
      | .error problem => some (state.finish process (.refused problem))
      | .ok () =>
          some (state.goto process
            (.writing (work.readGroups state.store groupIds) rest))
  | .readTokens =>
      some (state.goto process (.writing (work.readTokens state.store) rest))

def step
    (state : UserState Process Id) :
    UserAction Process Id → Option (UserState Process Id)
  | .start process request =>
      match state.phase process with
      | .idle =>
          match state.store.start request with
          | .error problem => some (state.finish process (.refused problem))
          | .ok phase => some (state.goto process phase)
      | _ => none
  | .lockTenant process =>
      match state.phase process with
      | .guarding edit =>
          (state.lockTenant process .forUpdate).map fun locked =>
            locked.goto process (.counting edit)
      | _ => none
  | .countOwners process =>
      match state.phase process with
      | .counting edit =>
          match state.store.assertNotLastOwner with
          | .error problem => some (state.finish process (.refused problem))
          | .ok () =>
              some (state.goto process
                (.writing (.edit edit .start) edit.statements))
      | _ => none
  | .lockInvitation process now =>
      match state.phase process with
      | .accepting invitationId newId =>
          if state.store.tenantStatus ≠ .active then
            some (state.finish process (.refused invalidInvitation))
          else
            match state.store.invitations invitationId with
            | none => some (state.finish process .rolledBack)
            | some invitation =>
                ((state.invitationLock invitationId).acquire process
                  .forUpdate).map fun lock =>
                    if invitation.acceptedAt.isSome then
                      state.finish process (.refused invalidInvitation)
                    else
                      { state.goto process
                          (.writing (.accept invitationId invitation newId now)
                            [.shareTenant]) with
                        invitationLock := Function.update
                          state.invitationLock invitationId lock }
      | _ => none
  | .execute process =>
      match state.phase process with
      | .writing work (statement :: rest) =>
          state.execute process work rest statement
      | _ => none
  | .commit process =>
      match state.phase process with
      | .writing work [] =>
          (work.apply state.store).map fun store =>
            { state with store := store }.finish process .succeeded
      | _ => none
  | .rollback process =>
      if (state.phase process).isOpen then
        some (state.finish process .rolledBack)
      else none

omit [DecidableEq Id] [ToString Id] [DecidableEq Process] in
/-- Nothing is going on, on whatever rows are there. -/
structure Quiet (state : UserState Process Id) : Prop where
  phase : ∀ process, state.phase process = .idle
  tenantLock : state.tenantLock = .free
  userLock : ∀ id, state.userLock id = .free
  invitationLock : ∀ id, state.invitationLock id = .free

omit [DecidableEq Id] [ToString Id] [DecidableEq Process] in
def atRest (store : UserStore Id) : UserState Process Id where
  store := store
  tenantLock := .free
  userLock := fun _ => .free
  invitationLock := fun _ => .free
  phase := fun _ => .idle

omit [DecidableEq Id] [ToString Id] [DecidableEq Process] in
theorem atRest_quiet (store : UserStore Id) :
    (atRest store : UserState Process Id).Quiet :=
  ⟨fun _ => rfl, rfl, fun _ => rfl, fun _ => rfl⟩

end UserState

def userMachine
    (Process : Type*) (Id : Type) [DecidableEq Process] [DecidableEq Id]
    [ToString Id] :
    Machine (UserState Process Id) (UserAction Process Id) where
  Initial := UserState.Quiet
  step := UserState.step

/-! ## What a step can do -/

namespace UserState

variable [DecidableEq Process]

section Frame

omit [DecidableEq Id] [ToString Id]

variable (state : UserState Process Id) (process : Process)

@[simp] theorem goto_store (phase : UserPhase Id) :
    (state.goto process phase).store = state.store := rfl

@[simp] theorem goto_tenantLock (phase : UserPhase Id) :
    (state.goto process phase).tenantLock = state.tenantLock := rfl

@[simp] theorem goto_phase (phase : UserPhase Id) :
    (state.goto process phase).phase =
      Function.update state.phase process phase := rfl

@[simp] theorem finish_store (outcome : Outcome) :
    (state.finish process outcome).store = state.store := rfl

@[simp] theorem finish_tenantLock (outcome : Outcome) :
    (state.finish process outcome).tenantLock =
      state.tenantLock.release process := rfl

@[simp] theorem finish_phase (outcome : Outcome) :
    (state.finish process outcome).phase =
      Function.update state.phase process (.ended outcome) := rfl

end Frame

end UserState

omit [DecidableEq Id] [ToString Id] in
/-- The same work, with more of its rows read. -/
def Work.Continues (work later : Work Id) : Prop :=
  later = work ∨ ∃ change before after,
    work = .edit change before ∧ later = .edit change after

omit [DecidableEq Id] [ToString Id] in
theorem Work.readGroups_continues
    (store : UserStore Id) (groupIds : List Id) (work : Work Id) :
    work.Continues (work.readGroups store groupIds) := by
  cases work with
  | edit change progress => exact .inr ⟨change, _, _, rfl, rfl⟩
  | _ => exact .inl rfl

omit [DecidableEq Id] [ToString Id] in
theorem Work.readTokens_continues (store : UserStore Id) (work : Work Id) :
    work.Continues (work.readTokens store) := by
  cases work with
  | edit change progress => exact .inr ⟨change, _, _, rfl, rfl⟩
  | _ => exact .inl rfl

variable [DecidableEq Process]

/-- The effects of the steps before the commit. -/
inductive QuietEffect
    (state : UserState Process Id) (process : Process) :
    UserState Process Id → Prop
  | opens {request : UserRequest Id} {phase : UserPhase Id}
      (hphase : state.phase process = .idle)
      (hstart : state.store.start request = .ok phase) :
      QuietEffect state process (state.goto process phase)
  | locksTenant {edit : Edit Id} {lock : RowLock Process}
      (hphase : state.phase process = .guarding edit)
      (hlock : state.tenantLock.acquire process .forUpdate = some lock) :
      QuietEffect state process
        ({ state with tenantLock := lock }.goto process (.counting edit))
  | counts {edit : Edit Id}
      (hphase : state.phase process = .counting edit)
      (howners : 1 < state.store.activeOwners.card) :
      QuietEffect state process
        (state.goto process (.writing (.edit edit .start) edit.statements))
  | accepts {invitationId newId : Id} {invitation : Invitation Id}
      {now : Instant} {locks : Id → RowLock Process}
      (hphase : state.phase process = .accepting invitationId newId)
      (hinvitation : state.store.invitations invitationId = some invitation) :
      QuietEffect state process
        { state.goto process
            (.writing (.accept invitationId invitation newId now)
              [.shareTenant]) with
          invitationLock := locks }
  | executes {work later : Work Id} {statement : Statement Id}
      {rest : List (Statement Id)} {next : UserState Process Id}
      (hphase : state.phase process = .writing work (statement :: rest))
      (hwork : work.Continues later)
      (hstore : next.store = state.store)
      (hmoved : next.phase =
        Function.update state.phase process (.writing later rest))
      (hlocks : ∀ other mode, state.tenantLock.Holds other mode →
        next.tenantLock.Holds other mode) :
      QuietEffect state process next
  | ends (outcome : Outcome) :
      QuietEffect state process (state.finish process outcome)

theorem QuietEffect.store_eq
    {state next : UserState Process Id} {process : Process}
    (heffect : QuietEffect state process next) :
    next.store = state.store := by
  cases heffect with
  | executes _ _ hstore _ _ => exact hstore
  | _ => rfl

/-- A statement which only waits for a row of `users`. -/
theorem UserState.lockUser_effect
    {state next : UserState Process Id} {process : Process} {work : Work Id}
    {statement : Statement Id} {rest : List (Statement Id)} {userId : Id}
    {mode : LockMode}
    (hphase : state.phase process = .writing work (statement :: rest))
    (hlocked : ((state.lockUser process userId mode).map fun locked =>
      locked.goto process (.writing work rest)) = some next) :
    QuietEffect state process next := by
  obtain ⟨locked, hlock, rfl⟩ := Option.map_eq_some_iff.mp hlocked
  obtain ⟨lock, -, rfl⟩ := Option.map_eq_some_iff.mp hlock
  exact .executes hphase (.inl rfl) rfl rfl fun _ _ hholds => hholds

theorem UserState.execute_effect
    {state next : UserState Process Id} {process : Process} {work : Work Id}
    {statement : Statement Id} {rest : List (Statement Id)}
    (hphase : state.phase process = .writing work (statement :: rest))
    (hexecute : state.execute process work rest statement = some next) :
    QuietEffect state process next := by
  cases statement with
  | shareTenant =>
      obtain ⟨locked, hlock, rfl⟩ := Option.map_eq_some_iff.mp hexecute
      obtain ⟨lock, hacquire, rfl⟩ := Option.map_eq_some_iff.mp hlock
      refine .executes hphase (.inl rfl) rfl rfl fun other mode hholds => ?_
      exact (RowLock.holds_acquire_iff hacquire).mpr (.inr hholds)
  | shareUser userId => exact UserState.lockUser_effect hphase hexecute
  | lockUser userId => exact UserState.lockUser_effect hphase hexecute
  | writeUser userId => exact UserState.lockUser_effect hphase hexecute
  | readGroups groupIds =>
      simp only [UserState.execute] at hexecute
      split at hexecute
      · exact Option.some.inj hexecute ▸ .ends _
      · obtain rfl := Option.some.inj hexecute
        exact .executes hphase (work.readGroups_continues _ _) rfl rfl
          fun _ _ hholds => hholds
  | readTokens =>
      obtain rfl := Option.some.inj hexecute
      exact .executes hphase (work.readTokens_continues _) rfl rfl
        fun _ _ hholds => hholds

theorem UserState.commit_eq_some
    {state next : UserState Process Id} {process : Process}
    (hcommit : state.step (.commit process) = some next) :
    ∃ work store, state.phase process = .writing work [] ∧
      work.apply state.store = some store ∧
      next = { state with store := store }.finish process .succeeded := by
  cases hphase : state.phase process with
  | writing work rest =>
      cases rest with
      | cons statement rest => simp [UserState.step, hphase] at hcommit
      | nil =>
          simp only [UserState.step, hphase] at hcommit
          obtain ⟨store, happly, rfl⟩ := Option.map_eq_some_iff.mp hcommit
          exact ⟨work, store, rfl, happly, rfl⟩
  | _ => simp [UserState.step, hphase] at hcommit

/-- A step is a commit, or keeps the committed rows. -/
theorem UserState.step_effect
    {state next : UserState Process Id} {action : UserAction Process Id}
    (hstep : state.step action = some next) :
    (∃ process work store, action = .commit process ∧
      state.phase process = .writing work [] ∧
      work.apply state.store = some store ∧
      next = { state with store := store }.finish process .succeeded) ∨
    QuietEffect state action.process next := by
  cases action with
  | start process request =>
      cases hphase : state.phase process with
      | idle =>
          simp only [UserState.step, hphase] at hstep
          split at hstep
          · exact .inr (Option.some.inj hstep ▸ .ends _)
          next phase hstart =>
            exact .inr (Option.some.inj hstep ▸ .opens hphase hstart)
      | _ => simp [UserState.step, hphase] at hstep
  | lockTenant process =>
      cases hphase : state.phase process with
      | guarding edit =>
          simp only [UserState.step, hphase] at hstep
          obtain ⟨locked, hlock, rfl⟩ := Option.map_eq_some_iff.mp hstep
          obtain ⟨lock, hacquire, rfl⟩ := Option.map_eq_some_iff.mp hlock
          exact .inr (.locksTenant hphase hacquire)
      | _ => simp [UserState.step, hphase] at hstep
  | countOwners process =>
      cases hphase : state.phase process with
      | counting edit =>
          simp only [UserState.step, hphase] at hstep
          split at hstep
          · exact .inr (Option.some.inj hstep ▸ .ends _)
          next hcount =>
            rw [UserStore.assertNotLastOwner, raiseIf_eq_ok_iff,
              not_le] at hcount
            exact .inr (Option.some.inj hstep ▸ .counts hphase hcount)
      | _ => simp [UserState.step, hphase] at hstep
  | lockInvitation process now =>
      cases hphase : state.phase process with
      | accepting invitationId newId =>
          simp only [UserState.step, hphase] at hstep
          split at hstep
          · exact .inr (Option.some.inj hstep ▸ .ends _)
          split at hstep
          · exact .inr (Option.some.inj hstep ▸ .ends _)
          next invitation hinvitation =>
            obtain ⟨lock, -, rfl⟩ := Option.map_eq_some_iff.mp hstep
            split
            · exact .inr (.ends _)
            · exact .inr (.accepts hphase hinvitation)
      | _ => simp [UserState.step, hphase] at hstep
  | execute process =>
      cases hphase : state.phase process with
      | writing work rest =>
          cases rest with
          | nil => simp [UserState.step, hphase] at hstep
          | cons statement rest =>
              simp only [UserState.step, hphase] at hstep
              exact .inr (UserState.execute_effect hphase hstep)
      | _ => simp [UserState.step, hphase] at hstep
  | commit process =>
      obtain ⟨work, store, hphase, happly, rfl⟩ :=
        UserState.commit_eq_some hstep
      exact .inl ⟨process, work, store, rfl, hphase, happly, rfl⟩
  | rollback process =>
      simp only [UserState.step] at hstep
      split at hstep
      · exact .inr (Option.some.inj hstep ▸ .ends _)
      · contradiction

/-- A step moves one process. -/
theorem UserState.step_phase_of_ne
    {state next : UserState Process Id} {action : UserAction Process Id}
    (hstep : state.step action = some next) {other : Process}
    (hne : other ≠ action.process) : next.phase other = state.phase other := by
  rcases UserState.step_effect hstep with
    ⟨process, work, store, rfl, -, -, rfl⟩ | heffect
  · exact Function.update_of_ne hne _ _
  · cases heffect with
    | executes _ _ _ hmoved _ =>
        rw [hmoved]
        exact Function.update_of_ne hne _ _
    | _ => exact Function.update_of_ne hne _ _

omit [DecidableEq Id] [ToString Id] [DecidableEq Process] in
theorem UserStore.acceptInvitation_eq_ok
    {store : UserStore Id} {invitationId newId : Id} {now : Instant}
    {phase : UserPhase Id}
    (haccept : store.acceptInvitation invitationId newId now = .ok phase) :
    phase = .accepting invitationId newId := by
  unfold acceptInvitation at haccept
  cases hfound : store.invitations invitationId with
  | none => simp [hfound] at haccept
  | some identity =>
      simp only [hfound, Except.bind_eq_ok] at haccept
      obtain ⟨_, -, _, -, hok⟩ := haccept
      exact (Except.ok.inj hok).symm

omit [DecidableEq Process] in
/-- A request starts with an edit of the row it has read, with the work of a
creation it may make, or with the invitation it wants to accept. -/
theorem UserStore.start_cases
    {store : UserStore Id} {request : UserRequest Id} {phase : UserPhase Id}
    (hstart : store.start request = .ok phase) :
    (∃ edit, store.Opened edit ∧ phase = edit.phase) ∨
    (∃ work rest, phase = .writing work rest ∧ work.target = none ∧
      work.Granted) ∨
    ∃ invitationId newId, phase = .accepting invitationId newId := by
  cases request with
  | updateUser claims userId body =>
      obtain ⟨edit, hedit, rfl⟩ := Except.map_eq_ok.mp hstart
      exact .inl ⟨edit, updateUser_opened hedit, rfl⟩
  | removeUser claims userId =>
      obtain ⟨edit, hedit, rfl⟩ := Except.map_eq_ok.mp hstart
      exact .inl ⟨edit, removeUser_opened hedit, rfl⟩
  | createUser claims newId body =>
      obtain ⟨work, hwork, rfl⟩ := Except.map_eq_ok.mp hstart
      simp only [createUser, Except.bind_eq_ok] at hwork
      obtain ⟨_, -, _, hgrant, _, -, hok⟩ := hwork
      obtain rfl := Except.ok.inj hok
      refine .inr (.inl ⟨_, _, rfl, rfl, fun hactor howner => ?_⟩)
      simp only [assertCanGrantOwner, raiseIf_eq_ok_iff] at hgrant
      exact hgrant ⟨congrArg some howner, hactor⟩
  | createInvitation claims newId role now =>
      obtain ⟨work, hwork, rfl⟩ := Except.map_eq_ok.mp hstart
      simp only [NotifyHub.createInvitation, Except.bind_eq_ok] at hwork
      obtain ⟨_, -, _, hgrant, hok⟩ := hwork
      obtain rfl := Except.ok.inj hok
      refine .inr (.inl ⟨_, _, rfl, rfl, fun hactor howner => ?_⟩)
      simp only [assertCanGrantOwner, raiseIf_eq_ok_iff] at hgrant
      exact hgrant ⟨congrArg some howner, hactor⟩
  | acceptInvitation invitationId newId now =>
      exact .inr (.inr ⟨invitationId, newId, acceptInvitation_eq_ok hstart⟩)

/-! ## One owner and one member -/

/-- User 0 is the only owner, user 1 a member; both are active. -/
def ownerAndMember : UserStore ℕ where
  tenantStatus := .active
  groups := ∅
  users := {0, 1}
  user id := if id = 0 then ⟨.owner, .active⟩ else ⟨.member, .active⟩
  memberships _ := ∅
  liveTokens _ := ∅
  invitations _ := none

def ownerClaims : AccessClaims ℕ := ⟨0, .owner⟩

omit [DecidableEq Process] in
/-- A PATCH with a role only. -/
def setRole
    (claims : AccessClaims ℕ) (process : Process) (userId : ℕ)
    (role : UserRole) : UserAction Process ℕ :=
  .start process (.updateUser claims userId ⟨some role, none, none⟩)

end NotifyHub
