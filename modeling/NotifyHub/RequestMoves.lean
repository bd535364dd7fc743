import NotifyHub.LockLevels
import Mathlib.Tactic

/-!
# Steps as moves on the locks

Every step of a request, or of an event of its flushes, is a move of its
transaction: it begins, takes the lock it wants next, does without some, or
gives all of them back.
-/

namespace NotifyHub

open LockOrder

variable {Process : Type*} {Id : Type}

/-- The locks which a process still takes; none outside a transaction. -/
def UserPhase.wanted (tasks : List (Task Id)) :
    UserPhase Id → Option (List (LockRequest Id))
  | .idle | .ended _ => none
  | .guarding _ => some ((.tenant, .forUpdate) :: requests tasks)
  | .counting _ | .writing _ _ => some (requests tasks)
  | .accepting invitationId _ =>
      some [(.invitation invitationId, .forUpdate), (.tenant, .keyShare)]

def SessionPhase.wanted : SessionPhase Id → Option (List (LockRequest Id))
  | .idle | .ended _ => none
  | .sharing userId _ =>
      some [(.tenant, .keyShare), (.user userId, .forUpdate)]
  | .locking userId _ => some [(.user userId, .forUpdate)]
  | _ => some []

def UserState.rows
    (state : UserState Process Id) : LockedRow Id → RowLock Process
  | .invitation id => state.invitationLock id
  | .tenant => state.tenantLock
  | .user id => state.userLock id

/-- A process without a session request may have one about the users. -/
def AuditedState.wanted
    (state : AuditedState Process Id) (process : Process) :
    Option (List (LockRequest Id)) :=
  match state.sessions.session process with
  | .idle => (state.sessions.users.phase process).wanted (state.tasks process)
  | phase => phase.wanted

def AuditedState.locking
    (state : AuditedState Process Id) : Locking Process (LockedRow Id) where
  lock := state.sessions.users.rows
  wanted := state.wanted

def AuditedState.edit
    (state : AuditedState Process Id) (process : Process) : Option (Edit Id) :=
  (state.sessions.users.phase process).edit

def AuditedAction.started :
    AuditedAction Process Id → Option (UserRequest Id)
  | .request (.users (.start _ wish)) => some wish
  | _ => none

/-- What is left to do agrees with the phase of the request. -/
def UserPhase.Aligned
    (eventsFirst : Bool) (tasks : List (Task Id)) : UserPhase Id → Prop
  | .guarding edit | .counting edit => tasks = edit.tasks eventsFirst
  | .writing _ rest => statements tasks = rest ∧ Skippable tasks
  | .idle | .accepting _ _ | .ended _ => True

def AuditedState.Aligned
    (eventsFirst : Bool) (state : AuditedState Process Id)
    (process : Process) : Prop :=
  (state.sessions.users.phase process).Aligned eventsFirst
    (state.tasks process)

theorem UserStore.start_planned [DecidableEq Id] [ToString Id]
    {store : UserStore Id} {request : UserRequest Id} {phase : UserPhase Id}
    {levels : LockLevels Id} {eventsFirst : Bool}
    (hstart : store.start request = .ok phase)
    (hfits : ∀ edit ∈ phase.edit, levels.Fits eventsFirst edit) :
    ∃ plan, phase.wanted (phase.tasks eventsFirst) = some plan ∧
      Planned levels.level [] plan := by
  have hedit : ∀ edit : Edit Id, phase = edit.phase →
      ∃ plan, phase.wanted (phase.tasks eventsFirst) = some plan ∧
        Planned levels.level [] plan := by
    rintro edit rfl
    unfold Edit.phase at hfits ⊢
    split at hfits
    next hguarded =>
      rw [if_pos hguarded]
      exact ⟨_, rfl, (hfits edit rfl).planned_guarded hguarded⟩
    next hguarded =>
      rw [if_neg hguarded]
      exact ⟨_, rfl, (hfits edit rfl).planned_unguarded
        (by simpa using hguarded)⟩
  cases request with
  | updateUser claims userId body =>
      obtain ⟨edit, -, hphase⟩ := Except.map_eq_ok.mp hstart
      exact hedit edit hphase.symm
  | removeUser claims userId =>
      obtain ⟨edit, -, hphase⟩ := Except.map_eq_ok.mp hstart
      exact hedit edit hphase.symm
  | createUser claims newId body =>
      obtain ⟨work, hcreated, rfl⟩ := Except.map_eq_ok.mp hstart
      simp only [createUser, Except.bind_eq_ok] at hcreated
      obtain ⟨_, -, _, -, _, -, hok⟩ := hcreated
      obtain rfl := Except.ok.inj hok
      exact ⟨_, rfl, levels.planned_create eventsFirst claims newId body⟩
  | createInvitation claims newId role now =>
      obtain ⟨work, hcreated, rfl⟩ := Except.map_eq_ok.mp hstart
      simp only [createInvitation, Except.bind_eq_ok] at hcreated
      obtain ⟨_, -, _, -, hok⟩ := hcreated
      obtain rfl := Except.ok.inj hok
      exact ⟨_, rfl, levels.planned_invite eventsFirst newId _⟩
  | acceptInvitation invitationId newId now =>
      obtain rfl := UserStore.acceptInvitation_eq_ok hstart
      exact ⟨_, rfl, levels.planned_accept invitationId⟩

/-! ## Steps are moves -/

section Moves

variable [DecidableEq Process] [DecidableEq Id]

theorem UserState.rows_lockTenant
    {state locked : UserState Process Id} {process : Process}
    {mode : LockMode} (hlocked : state.lockTenant process mode = some locked) :
    ∃ lock, (state.rows .tenant).acquire process mode = some lock ∧
      locked.rows = Function.update state.rows .tenant lock ∧
      locked.phase = state.phase := by
  obtain ⟨lock, hacquire, rfl⟩ := Option.map_eq_some_iff.mp hlocked
  refine ⟨lock, hacquire, funext fun row => ?_, rfl⟩
  cases row <;> simp [rows]

theorem UserState.rows_lockUser
    {state locked : UserState Process Id} {process : Process} {userId : Id}
    {mode : LockMode}
    (hlocked : state.lockUser process userId mode = some locked) :
    ∃ lock, (state.rows (.user userId)).acquire process mode = some lock ∧
      locked.rows = Function.update state.rows (.user userId) lock ∧
      locked.phase = state.phase := by
  obtain ⟨lock, hacquire, rfl⟩ := Option.map_eq_some_iff.mp hlocked
  refine ⟨lock, hacquire, funext fun row => ?_, rfl⟩
  cases row with
  | user id =>
      by_cases hid : id = userId
      · subst hid
        simp [rows]
      · simp [rows, hid]
  | _ => simp [rows]

omit [DecidableEq Process] in
theorem UserState.rows_lockInvitation
    (state : UserState Process Id) (invitationId : Id)
    (lock : RowLock Process) :
    ({ state with
        invitationLock :=
          Function.update state.invitationLock invitationId lock } :
      UserState Process Id).rows =
      Function.update state.rows (.invitation invitationId) lock := by
  funext row
  cases row with
  | invitation id =>
      by_cases hid : id = invitationId
      · subst hid
        simp [rows]
      · simp [rows, hid]
  | _ => simp [rows]

omit [DecidableEq Id] in
theorem UserState.rows_finish
    (state : UserState Process Id) (process : Process) (outcome : Outcome)
    (row : LockedRow Id) :
    (state.finish process outcome).rows row =
      (state.rows row).release process := by
  cases row <;> rfl

/-- A statement takes the lock it asks for, or only reads; either way it may
also end the request. -/
theorem UserState.execute_locks [ToString Id]
    {state next : UserState Process Id} {process : Process} {work : Work Id}
    {rest : List (Statement Id)} {statement : Statement Id}
    (hexecute : state.execute process work rest statement = some next) :
    (∃ row mode lock, statement.request = some (row, mode) ∧
      (state.rows row).acquire process mode = some lock ∧
      next.rows = Function.update state.rows row lock ∧
      next.phase =
        Function.update state.phase process (.writing work rest)) ∨
    (statement.request = none ∧ next.rows = state.rows ∧
      ∃ later, work.Continues later ∧ next.phase =
        Function.update state.phase process (.writing later rest)) ∨
    ∃ outcome, next = state.finish process outcome := by
  have hlocked : ∀ {row mode} {locked : UserState Process Id} {lock},
      statement.request = some (row, mode) →
      (state.rows row).acquire process mode = some lock →
      locked.rows = Function.update state.rows row lock →
      locked.phase = state.phase →
      ∃ row mode lock, statement.request = some (row, mode) ∧
        (state.rows row).acquire process mode = some lock ∧
        (locked.goto process (.writing work rest)).rows =
          Function.update state.rows row lock ∧
        (locked.goto process (.writing work rest)).phase =
          Function.update state.phase process (.writing work rest) := by
    intro row mode locked lock hrequest hacquire hrows hsame
    exact ⟨row, mode, lock, hrequest, hacquire, hrows, by simp [hsame]⟩
  cases statement with
  | shareTenant =>
      obtain ⟨locked, hlock, rfl⟩ := Option.map_eq_some_iff.mp hexecute
      obtain ⟨lock, hacquire, hrows, hsame⟩ := UserState.rows_lockTenant hlock
      exact .inl (hlocked rfl hacquire hrows hsame)
  | shareUser userId =>
      obtain ⟨locked, hlock, rfl⟩ := Option.map_eq_some_iff.mp hexecute
      obtain ⟨lock, hacquire, hrows, hsame⟩ := UserState.rows_lockUser hlock
      exact .inl (hlocked rfl hacquire hrows hsame)
  | lockUser userId =>
      obtain ⟨locked, hlock, rfl⟩ := Option.map_eq_some_iff.mp hexecute
      obtain ⟨lock, hacquire, hrows, hsame⟩ := UserState.rows_lockUser hlock
      exact .inl (hlocked rfl hacquire hrows hsame)
  | writeUser userId =>
      obtain ⟨locked, hlock, rfl⟩ := Option.map_eq_some_iff.mp hexecute
      obtain ⟨lock, hacquire, hrows, hsame⟩ := UserState.rows_lockUser hlock
      exact .inl (hlocked rfl hacquire hrows hsame)
  | readGroups groupIds =>
      simp only [UserState.execute] at hexecute
      split at hexecute
      · exact .inr (.inr ⟨_, (Option.some.inj hexecute).symm⟩)
      · obtain rfl := Option.some.inj hexecute
        exact .inr (.inl ⟨rfl, rfl, _, work.readGroups_continues _ _, rfl⟩)
  | readTokens =>
      obtain rfl := Option.some.inj hexecute
      exact .inr (.inl ⟨rfl, rfl, _, work.readTokens_continues _, rfl⟩)

namespace SessionState

variable {state next : SessionState Process Id} {process : Process}

theorem readLogout_cases
    (state : SessionState Process Id) (process : Process) (userId : Id)
    (body : LogoutIn Id) :
    (∃ outcome, state.readLogout process userId body =
      state.finish process outcome) ∨
    ∃ phase, phase.wanted = some [] ∧
      state.readLogout process userId body = state.goto process phase := by
  unfold readLogout
  split
  · exact .inr ⟨_, rfl, rfl⟩
  split
  · split
    · exact .inr ⟨_, rfl, rfl⟩
    · exact .inr ⟨_, rfl, rfl⟩
  split
  · dsimp only
    split
    · exact .inl ⟨_, rfl⟩
    · exact .inr ⟨_, rfl, rfl⟩
  · exact .inr ⟨_, rfl, rfl⟩

theorem readRefresh_cases
    (state : SessionState Process Id) (process : Process)
    (userId tokenId : Id) (now : Instant) :
    (∃ outcome, state.readRefresh process userId tokenId now =
      state.finish process outcome) ∨
    ∃ phase, phase.wanted = some [] ∧
      state.readRefresh process userId tokenId now =
        state.goto process phase := by
  unfold readRefresh
  split
  · exact .inl ⟨_, rfl⟩
  split
  · exact .inr ⟨_, rfl, rfl⟩
  split
  · exact .inl ⟨_, rfl⟩
  · exact .inr ⟨_, rfl, rfl⟩

theorem read_cases {now : Instant} (hread : state.read process now = some next) :
    (state.session process).wanted = some [] ∧
      ((∃ outcome, next = state.finish process outcome) ∨
        ∃ phase, phase.wanted = some [] ∧ next = state.goto process phase) := by
  cases hsession : state.session process with
  | inScope userId request =>
      cases request with
      | login userId =>
          simp only [read, hsession] at hread
          refine ⟨rfl, ?_⟩
          split at hread
          · exact .inl ⟨_, (Option.some.inj hread).symm⟩
          · exact .inr ⟨_, rfl, (Option.some.inj hread).symm⟩
      | refresh tokenId =>
          simp only [read, hsession, Option.some.injEq] at hread
          subst hread
          exact ⟨rfl, readRefresh_cases state process userId tokenId now⟩
      | logout claims body =>
          simp only [read, hsession, Option.some.injEq] at hread
          subst hread
          exact ⟨rfl, readLogout_cases state process userId body⟩
  | presenting userId tokenId =>
      simp only [read, hsession] at hread
      refine ⟨rfl, ?_⟩
      split at hread
      · exact .inl ⟨_, (Option.some.inj hread).symm⟩
      · exact .inr ⟨_, rfl, (Option.some.inj hread).symm⟩
  | scanning userId revocation =>
      simp only [read, hsession, Option.some.injEq] at hread
      exact ⟨rfl, .inr ⟨_, rfl, hread.symm⟩⟩
  | _ => simp [read, hsession] at hread

/-- What starts a session request: it is refused, or wants the tenant and its
user. -/
theorem start_cases {request : SessionRequest Id}
    (hstart : state.start process request = some next) :
    (∃ outcome, next = state.finish process outcome) ∨
      ∃ userId, next = state.goto process (.sharing userId request) := by
  cases request with
  | login userId =>
      simp only [start] at hstart
      split at hstart
      · contradiction
      split at hstart
      · exact .inl ⟨_, (Option.some.inj hstart).symm⟩
      · exact .inr ⟨_, (Option.some.inj hstart).symm⟩
  | refresh tokenId =>
      simp only [start] at hstart
      split at hstart
      · exact .inl ⟨_, (Option.some.inj hstart).symm⟩
      · exact .inr ⟨_, (Option.some.inj hstart).symm⟩
  | logout claims body =>
      simp only [start] at hstart
      split at hstart
      · contradiction
      · exact .inr ⟨_, (Option.some.inj hstart).symm⟩

end SessionState

namespace AuditedState

variable {levels : LockLevels Id} {state : AuditedState Process Id}
  {next : SessionState Process Id} {process : Process}
  {tasks : List (Task Id)}

omit [DecidableEq Id] in
/-- Only a step of its own changes what a process wants. -/
theorem wanted_users
    {users : UserState Process Id} {phase : UserPhase Id}
    (hidle : state.sessions.session process = .idle)
    (hphase : users.phase =
      Function.update state.sessions.users.phase process phase) :
    (state.advance process { state.sessions with users := users }
      tasks).wanted =
      Function.update state.wanted process (phase.wanted tasks) := by
  funext other
  by_cases hother : other = process
  · subst hother
    simp [wanted, advance, hidle, hphase]
  · simp [wanted, advance, hphase, hother]

omit [DecidableEq Id] in
theorem wanted_session {phase : SessionPhase Id}
    (hopen : phase ≠ .idle)
    (hsession : next.session =
      Function.update state.sessions.session process phase)
    (hothers : ∀ other, other ≠ process →
      next.users.phase other = state.sessions.users.phase other) :
    (state.advance process next tasks).wanted =
      Function.update state.wanted process phase.wanted := by
  funext other
  by_cases hother : other = process
  · subst hother
    rw [Function.update_self, wanted, advance, hsession, Function.update_self]
    cases phase with
    | idle => contradiction
    | _ => rfl
  · simp [wanted, advance, hsession, hother, hothers other hother]

theorem move_begins
    {plan : List (LockRequest Id)} (hnothing : state.wanted process = none)
    (hplanned : Planned levels.level [] plan)
    (hrows : next.users.rows = state.sessions.users.rows)
    (hmoved : (state.advance process next tasks).wanted =
      Function.update state.wanted process (some plan)) :
    Move levels.level state.locking process
      (state.advance process next tasks).locking := by
  rw [locking.eq_1 (state.advance process next tasks), advance, hrows]
  rw [advance] at hmoved
  rw [hmoved]
  exact .begins hnothing hplanned

theorem move_takes
    {row : LockedRow Id} {mode : LockMode} {rest : List (LockRequest Id)}
    {lock : RowLock Process}
    (hwanted : state.wanted process = some ((row, mode) :: rest))
    (hacquire : (state.sessions.users.rows row).acquire process mode =
      some lock)
    (hrows : next.users.rows =
      Function.update state.sessions.users.rows row lock)
    (hmoved : (state.advance process next tasks).wanted =
      Function.update state.wanted process (some rest)) :
    Move levels.level state.locking process
      (state.advance process next tasks).locking := by
  rw [advance] at hmoved
  rw [locking.eq_1 (state.advance process next tasks), advance, hrows, hmoved]
  exact .takes hwanted hacquire

theorem move_ends
    (hrows : ∀ row, next.users.rows row =
      (state.sessions.users.rows row).release process)
    (hmoved : (state.advance process next tasks).wanted =
      Function.update state.wanted process none) :
    Move levels.level state.locking process
      (state.advance process next tasks).locking := by
  rw [advance] at hmoved
  rw [locking.eq_1 (state.advance process next tasks), advance, funext hrows,
    hmoved]
  exact .ends

theorem move_skips
    {plan rest : List (LockRequest Id)}
    (hwanted : state.wanted process = some plan)
    (hplanned : ∀ held, Planned levels.level held plan →
      Planned levels.level held rest)
    (hrows : next.users.rows = state.sessions.users.rows)
    (hmoved : (state.advance process next tasks).wanted =
      Function.update state.wanted process (some rest)) :
    Move levels.level state.locking process
      (state.advance process next tasks).locking := by
  rw [advance] at hmoved
  rw [locking.eq_1 (state.advance process next tasks), advance, hrows, hmoved]
  exact .skips hwanted hplanned

omit [DecidableEq Process] [DecidableEq Id] in
theorem wanted_of_idle (hidle : state.sessions.session process = .idle) :
    state.wanted process =
      (state.sessions.users.phase process).wanted (state.tasks process) := by
  rw [wanted, hidle]

theorem move_users_takes
    {users : UserState Process Id} (phase : UserPhase Id)
    {row : LockedRow Id} {mode : LockMode} {rest : List (LockRequest Id)}
    {lock : RowLock Process}
    (hidle : state.sessions.session process = .idle)
    (hwanted : (state.sessions.users.phase process).wanted
      (state.tasks process) = some ((row, mode) :: rest))
    (hacquire : (state.sessions.users.rows row).acquire process mode =
      some lock)
    (hrows : users.rows = Function.update state.sessions.users.rows row lock)
    (hphase : users.phase =
      Function.update state.sessions.users.phase process phase)
    (hrest : phase.wanted tasks = some rest) :
    Move levels.level state.locking process
      (state.advance process { state.sessions with users := users }
        tasks).locking := by
  apply move_takes ((wanted_of_idle hidle).trans hwanted) hacquire hrows
  rw [wanted_users hidle hphase, hrest]

theorem move_users_skips
    {users : UserState Process Id} (phase : UserPhase Id)
    {plan rest : List (LockRequest Id)}
    (hidle : state.sessions.session process = .idle)
    (hwanted : (state.sessions.users.phase process).wanted
      (state.tasks process) = some plan)
    (hplanned : ∀ held, Planned levels.level held plan →
      Planned levels.level held rest)
    (hrows : users.rows = state.sessions.users.rows)
    (hphase : users.phase =
      Function.update state.sessions.users.phase process phase)
    (hrest : phase.wanted tasks = some rest) :
    Move levels.level state.locking process
      (state.advance process { state.sessions with users := users }
        tasks).locking := by
  apply move_skips ((wanted_of_idle hidle).trans hwanted) hplanned hrows
  rw [wanted_users hidle hphase, hrest]

/-- The end of a request about the users, whatever it has committed. -/
theorem move_users_ends
    {users : UserState Process Id} {outcome : Outcome}
    (hidle : state.sessions.session process = .idle)
    (hrows : users.rows = state.sessions.users.rows)
    (hphase : users.phase = state.sessions.users.phase) :
    Move levels.level state.locking process
      (state.advance process
        { state.sessions with users := users.finish process outcome }
        tasks).locking := by
  apply move_ends
  · intro row
    rw [← hrows]
    exact users.rows_finish process outcome row
  · have hended : (users.finish process outcome).phase = Function.update
        state.sessions.users.phase process (.ended outcome) := by
      simp [hphase]
    rw [wanted_users hidle hended]
    rfl

/-- A task which is a statement, or a lock of an event. -/
theorem move_execute [ToString Id]
    {users : UserState Process Id} {work : Work Id}
    {before rest : List (Statement Id)} {task : Task Id}
    {statement : Statement Id} {later : List (Task Id)}
    (hidle : state.sessions.session process = .idle)
    (hphase : state.sessions.users.phase process = .writing work before)
    (htasks : state.tasks process = task :: later)
    (hrequest : task.request = statement.request)
    (hlocks : statement.request ≠ none → tasks = later)
    (hskips : ∀ held, Planned levels.level held (requests later) →
      Planned levels.level held (requests tasks))
    (hexecute : state.sessions.users.execute process work rest statement =
      some users) :
    Move levels.level state.locking process
      (state.advance process { state.sessions with users := users }
        tasks).locking := by
  have hwanted : (state.sessions.users.phase process).wanted
      (state.tasks process) =
      some (statement.request.toList ++ requests later) := by
    simp [hphase, htasks, UserPhase.wanted, hrequest]
  rcases UserState.execute_locks hexecute with
    ⟨row, mode, lock, hlock, hacquire, hrows, hmoved⟩ |
    ⟨hnone, hrows, read, -, hmoved⟩ | ⟨outcome, rfl⟩
  · obtain rfl := hlocks (by simp [hlock])
    rw [hlock] at hwanted
    exact move_users_takes _ hidle hwanted hacquire hrows hmoved rfl
  · rw [hnone] at hwanted
    exact move_users_skips _ hidle hwanted hskips hrows hmoved rfl
  · exact move_users_ends hidle rfl rfl

/-- The lock of an invitation, which is given back at once when somebody
else has accepted it. -/
theorem move_invitation
    {users : UserState Process Id} {invitationId newId : Id} {now : Instant}
    {invitation : Invitation Id} (eventsFirst : Bool)
    (hidle : state.sessions.session process = .idle)
    (hphase : state.sessions.users.phase process =
      .accepting invitationId newId)
    (hlocked : (((state.sessions.users.invitationLock invitationId).acquire
      process .forUpdate).map fun lock =>
        if invitation.acceptedAt.isSome then
          state.sessions.users.finish process (.refused invalidInvitation)
        else
          { state.sessions.users.goto process
              (.writing (.accept invitationId invitation newId now)
                [.shareTenant]) with
            invitationLock := Function.update
              state.sessions.users.invitationLock invitationId lock }) =
      some users) :
    Move levels.level state.locking process
      (state.advance process { state.sessions with users := users }
        ((users.phase process).tasks eventsFirst)).locking := by
  obtain ⟨lock, hacquire, rfl⟩ := Option.map_eq_some_iff.mp hlocked
  split
  · exact move_users_ends hidle rfl rfl
  · have hwanted : (state.sessions.users.phase process).wanted
        (state.tasks process) =
        some [(.invitation invitationId, .forUpdate), (.tenant, .keyShare)] := by
      rw [hphase]
      rfl
    refine move_users_takes _ hidle hwanted hacquire
      (UserState.rows_lockInvitation (state.sessions.users.goto process _) _ _)
      rfl ?_
    simp [UserPhase.tasks, UserPhase.wanted, Work.tasks, Task.request,
      Statement.request]

theorem move_start [ToString Id]
    {request : UserRequest Id} {phase : UserPhase Id} {eventsFirst : Bool}
    (hidle : state.sessions.session process = .idle)
    (hphase : state.sessions.users.phase process = .idle)
    (hstart : state.sessions.users.store.start request = .ok phase)
    (hfits : ∀ edit ∈
      ((state.sessions.users.goto process phase).phase process).edit,
      levels.Fits eventsFirst edit) :
    Move levels.level state.locking process
      (state.advance process
        { state.sessions with users := state.sessions.users.goto process phase }
        (((state.sessions.users.goto process phase).phase process).tasks
          eventsFirst)).locking := by
  have hopened : (state.sessions.users.goto process phase).phase process =
      phase := by
    simp
  rw [hopened] at hfits ⊢
  obtain ⟨plan, hwanted, hplanned⟩ := UserStore.start_planned hstart hfits
  have hnothing : state.wanted process = none := by
    rw [wanted_of_idle hidle, hphase]
    rfl
  refine move_begins hnothing hplanned rfl ?_
  rw [← hwanted]
  exact wanted_users hidle rfl

/-- The lock of the tenant before the owners are counted. -/
theorem move_lockTenant [ToString Id]
    {locked : UserState Process Id} {edit : Edit Id} {eventsFirst : Bool}
    (hidle : state.sessions.session process = .idle)
    (hphase : state.sessions.users.phase process = .guarding edit)
    (haligned : state.Aligned eventsFirst process)
    (hlocked : state.sessions.users.lockTenant process .forUpdate =
      some locked) :
    Move levels.level state.locking process
      (state.advance process
        { state.sessions with users := locked.goto process (.counting edit) }
        (((locked.goto process (.counting edit)).phase process).tasks
          eventsFirst)).locking := by
  obtain ⟨lock, hacquire, hrows, hsame⟩ := UserState.rows_lockTenant hlocked
  simp only [Aligned, hphase, UserPhase.Aligned] at haligned
  have hwanted : (state.sessions.users.phase process).wanted
      (state.tasks process) =
      some ((.tenant, .forUpdate) :: requests (edit.tasks eventsFirst)) := by
    rw [hphase, haligned]
    rfl
  have hmoved : (locked.goto process (.counting edit)).phase =
      Function.update state.sessions.users.phase process (.counting edit) := by
    simp [hsame]
  refine move_users_takes _ hidle hwanted hacquire hrows hmoved ?_
  simp [UserPhase.tasks, UserPhase.wanted]

/-- The edit which has counted goes on with its tasks. -/
theorem move_counted [ToString Id]
    {edit : Edit Id} {eventsFirst : Bool}
    (hidle : state.sessions.session process = .idle)
    (hphase : state.sessions.users.phase process = .counting edit)
    (haligned : state.Aligned eventsFirst process) :
    Move levels.level state.locking process
      (state.advance process
        { state.sessions with
          users := state.sessions.users.goto process
            (.writing (.edit edit .start) edit.statements) }
        (((state.sessions.users.goto process
          (.writing (.edit edit .start) edit.statements)).phase process).tasks
            eventsFirst)).locking := by
  simp only [Aligned, hphase, UserPhase.Aligned] at haligned
  have hwanted : (state.sessions.users.phase process).wanted
      (state.tasks process) = some (requests (edit.tasks eventsFirst)) := by
    rw [hphase, haligned]
    rfl
  refine move_users_skips _ hidle hwanted (fun _ h => h) rfl rfl ?_
  simp [UserPhase.tasks, UserPhase.wanted, Work.tasks]

/-- What the next statement of a request finds. -/
theorem execute_cases [ToString Id]
    {users : UserState Process Id} {eventsFirst : Bool}
    {sessions : SessionState Process Id}
    (haligned : state.Aligned eventsFirst process)
    (hstep : state.sessions.users.step (.execute process) = some users)
    (htasks : state.tasksAfter eventsFirst sessions
      (.users (.execute process)) = some tasks) :
    ∃ work statement later,
      state.sessions.users.phase process =
        .writing work (statement :: statements later) ∧
      state.tasks process = .run statement :: later ∧
      Skippable (.run statement :: later) ∧
      tasks = (sessions.users.phase process).afterStatement later statement ∧
      state.sessions.users.execute process work (statements later) statement =
        some users := by
  cases hphase : state.sessions.users.phase process with
  | writing work rest =>
      cases rest with
      | nil => simp [UserState.step, hphase] at hstep
      | cons statement rest =>
          simp only [UserState.step, hphase] at hstep
          simp only [Aligned, hphase, UserPhase.Aligned] at haligned
          simp only [tasksAfter] at htasks
          split at htasks
          next first later hlater =>
            rw [hlater, statements_run] at haligned
            obtain ⟨hsame, hskippable⟩ := haligned
            obtain ⟨rfl, rfl⟩ := List.cons.inj hsame
            exact ⟨work, first, later, rfl, hlater, hskippable,
              (Option.some.inj htasks).symm, hstep⟩
          · contradiction
  | _ => simp [UserState.step, hphase] at hstep

theorem move_users [ToString Id]
    {users : UserState Process Id} {action : UserAction Process Id}
    {eventsFirst : Bool}
    (hidle : state.sessions.session action.process = .idle)
    (haligned : state.Aligned eventsFirst action.process)
    (hfits : ∀ edit ∈ (users.phase action.process).edit,
      levels.Fits eventsFirst edit)
    (hstep : state.sessions.users.step action = some users)
    (htasks : state.tasksAfter eventsFirst
      { state.sessions with users := users } (.users action) = some tasks) :
    Move levels.level state.locking action.process
      (state.advance action.process { state.sessions with users := users }
        tasks).locking := by
  cases action with
  | start process request =>
      obtain rfl := Option.some.inj htasks
      cases hphase : state.sessions.users.phase process with
      | idle =>
          simp only [UserState.step, hphase] at hstep
          split at hstep
          · exact Option.some.inj hstep ▸ move_users_ends hidle rfl rfl
          next phase hstart =>
            obtain rfl := Option.some.inj hstep
            exact move_start hidle hphase hstart hfits
      | _ => simp [UserState.step, hphase] at hstep
  | lockTenant process =>
      obtain rfl := Option.some.inj htasks
      cases hphase : state.sessions.users.phase process with
      | guarding edit =>
          simp only [UserState.step, hphase] at hstep
          obtain ⟨locked, hlock, rfl⟩ := Option.map_eq_some_iff.mp hstep
          exact move_lockTenant hidle hphase haligned hlock
      | _ => simp [UserState.step, hphase] at hstep
  | countOwners process =>
      obtain rfl := Option.some.inj htasks
      cases hphase : state.sessions.users.phase process with
      | counting edit =>
          simp only [UserState.step, hphase] at hstep
          split at hstep
          · exact Option.some.inj hstep ▸ move_users_ends hidle rfl rfl
          · obtain rfl := Option.some.inj hstep
            exact move_counted hidle hphase haligned
      | _ => simp [UserState.step, hphase] at hstep
  | lockInvitation process now =>
      obtain rfl := Option.some.inj htasks
      cases hphase : state.sessions.users.phase process with
      | accepting invitationId newId =>
          simp only [UserState.step, hphase] at hstep
          split at hstep
          · exact Option.some.inj hstep ▸ move_users_ends hidle rfl rfl
          split at hstep
          · exact Option.some.inj hstep ▸ move_users_ends hidle rfl rfl
          · exact move_invitation eventsFirst hidle hphase hstep
      | _ => simp [UserState.step, hphase] at hstep
  | execute process =>
      obtain ⟨work, statement, later, hphase, hlater, hskippable, rfl,
        hexecute⟩ := execute_cases haligned hstep htasks
      refine move_execute hidle hphase hlater rfl ?_ ?_ hexecute
      · intro hlocks
        cases statement <;> first | rfl | exact absurd rfl hlocks
      · exact fun held => hskippable.planned_afterStatement _
  | commit process =>
      obtain ⟨work, store, hphase, happly, rfl⟩ :=
        UserState.commit_eq_some hstep
      exact move_users_ends hidle rfl rfl
  | rollback process =>
      simp only [UserState.step] at hstep
      split at hstep
      · exact Option.some.inj hstep ▸ move_users_ends hidle rfl rfl
      · contradiction

/-- The end of a session request, whatever it has committed. -/
theorem move_finish
    {before : SessionState Process Id} {outcome : Outcome}
    (hrows : before.users.rows = state.sessions.users.rows)
    (hphase : before.users.phase = state.sessions.users.phase)
    (hsession : before.session = state.sessions.session) :
    Move levels.level state.locking process
      (state.advance process (before.finish process outcome) tasks).locking := by
  apply move_ends
  · intro row
    rw [← hrows]
    exact before.users.rows_finish process outcome row
  · have hended : (before.finish process outcome).session =
        Function.update state.sessions.session process (.ended outcome) := by
      rw [← hsession]
      rfl
    apply wanted_session (by simp) hended
    intro other hne
    simp [SessionState.finish, hphase, hne]

omit [DecidableEq Process] [DecidableEq Id] in
theorem wanted_of_session
    {phase : SessionPhase Id} {plan : List (LockRequest Id)}
    (hsession : state.sessions.session process = phase)
    (hphase : phase.wanted = some plan) :
    state.wanted process = some plan := by
  rw [wanted, hsession]
  cases phase with
  | idle => contradiction
  | _ => exact hphase

/-- Under the locks a request only reads, until it ends. -/
theorem move_read
    {phase : SessionPhase Id}
    (hwanted : (state.sessions.session process).wanted = some [])
    (hphase : phase.wanted = some []) :
    Move levels.level state.locking process
      (state.advance process (state.sessions.goto process phase)
        tasks).locking := by
  have hopen : phase ≠ .idle := by
    rintro rfl
    contradiction
  refine move_skips (wanted_of_session rfl hwanted) (fun _ h => h) rfl ?_
  rw [← hphase]
  exact wanted_session hopen rfl fun _ _ => rfl

/-- A request waits for the tenant and its user. -/
theorem move_session_start
    {request : SessionRequest Id}
    (hidle : state.sessions.session process = .idle)
    (huser : state.sessions.users.phase process = .idle)
    (hstart : state.sessions.start process request = some next) :
    Move levels.level state.locking process
      (state.advance process next tasks).locking := by
  rcases SessionState.start_cases hstart with ⟨outcome, rfl⟩ | ⟨userId, rfl⟩
  · exact move_finish rfl rfl rfl
  · have hnothing : state.wanted process = none := by
      rw [wanted_of_idle hidle, huser]
      rfl
    refine move_begins hnothing (levels.planned_scope userId) rfl ?_
    have hopen : SessionPhase.sharing userId request ≠ .idle := by simp
    exact wanted_session hopen rfl fun _ _ => rfl

/-- One of the two locks of `lock_user_token_scope`. -/
theorem move_scope
    {before after : SessionPhase Id} {row : LockedRow Id} {mode : LockMode}
    {rest : List (LockRequest Id)} {users : UserState Process Id}
    {lock : RowLock Process}
    (hsession : state.sessions.session process = before)
    (hbefore : before.wanted = some ((row, mode) :: rest))
    (hafter : after.wanted = some rest)
    (hacquire : (state.sessions.users.rows row).acquire process mode =
      some lock)
    (hrows : users.rows = Function.update state.sessions.users.rows row lock)
    (hphase : users.phase = state.sessions.users.phase) :
    Move levels.level state.locking process
      (state.advance process
        ({ state.sessions with users := users }.goto process after)
        tasks).locking := by
  refine move_takes (wanted_of_session hsession hbefore) hacquire hrows ?_
  have hopen : after ≠ .idle := by
    rintro rfl
    contradiction
  rw [← hafter]
  apply wanted_session hopen rfl
  intro other _
  rw [← hphase]
  rfl

theorem move_request [ToString Id]
    {eventsFirst : Bool} {ttlDays : ℤ} {action : SessionAction Process Id}
    (haligned : state.Aligned eventsFirst action.process)
    (hfits : ∀ edit ∈ (next.users.phase action.process).edit,
      levels.Fits eventsFirst edit)
    (hstep : state.sessions.step ttlDays action = some next)
    (htasks : state.tasksAfter eventsFirst next action = some tasks) :
    Move levels.level state.locking action.process
      (state.advance action.process next tasks).locking := by
  cases action with
  | users action =>
      simp only [SessionState.step] at hstep
      split at hstep
      next hidle =>
        obtain ⟨users, husers, rfl⟩ := Option.map_eq_some_iff.mp hstep
        exact move_users hidle haligned hfits husers htasks
      · contradiction
  | start process request =>
      simp only [SessionState.step] at hstep
      split at hstep
      next hidle => exact move_session_start hidle.1 hidle.2 hstep
      · contradiction
  | shareTenant process =>
      cases hsession : state.sessions.session process with
      | sharing userId request =>
          simp only [SessionState.step, hsession] at hstep
          obtain ⟨users, hlock, rfl⟩ := Option.map_eq_some_iff.mp hstep
          obtain ⟨lock, hacquire, hrows, hsame⟩ :=
            UserState.rows_lockTenant hlock
          exact move_scope hsession rfl rfl hacquire hrows hsame
      | _ => simp [SessionState.step, hsession] at hstep
  | lockUser process =>
      cases hsession : state.sessions.session process with
      | locking userId request =>
          simp only [SessionState.step, hsession] at hstep
          obtain ⟨users, hlock, rfl⟩ := Option.map_eq_some_iff.mp hstep
          obtain ⟨lock, hacquire, hrows, hsame⟩ :=
            UserState.rows_lockUser hlock
          exact move_scope hsession rfl rfl hacquire hrows hsame
      | _ => simp [SessionState.step, hsession] at hstep
  | read process now =>
      obtain ⟨hwanted, ⟨outcome, rfl⟩ | ⟨phase, hphase, rfl⟩⟩ :=
        SessionState.read_cases hstep
      · exact move_finish rfl rfl rfl
      · exact move_read hwanted hphase
  | commit process drawn now =>
      rcases SessionState.commit_cases hstep with
        ⟨userId, row, -, -, -, -, rfl⟩ | ⟨userId, tokenId, row, -, -, -, -, rfl⟩ |
        ⟨userId, revocation, revoked, -, rfl⟩
      · exact move_finish rfl rfl rfl
      · exact move_finish rfl rfl rfl
      · exact move_finish rfl rfl rfl
  | rollback process =>
      simp only [SessionState.step] at hstep
      split at hstep
      · exact Option.some.inj hstep ▸ move_finish rfl rfl rfl
      · contradiction

/-- What a step does: a request moves, or an event takes a lock. -/
theorem step_eq_some [ToString Id]
    {eventsFirst : Bool} {ttlDays : ℤ} {after : AuditedState Process Id}
    {action : AuditedAction Process Id}
    (hstep : state.step eventsFirst ttlDays action = some after) :
    (∃ request next tasks, action = .request request ∧
      state.sessions.step ttlDays request = some next ∧
      state.tasksAfter eventsFirst next request = some tasks ∧
      after = state.advance request.process next tasks) ∨
    ∃ process work rest lock tasks users, action = .insertEvent process ∧
      state.sessions.session process = .idle ∧
      state.sessions.users.phase process = .writing work rest ∧
      state.tasks process = .event lock :: tasks ∧
      state.sessions.users.execute process work rest lock = some users ∧
      after = state.advance process { state.sessions with users := users }
        tasks := by
  cases action with
  | request request =>
      obtain ⟨next, hnext, hafter⟩ := Option.bind_eq_some_iff.mp hstep
      obtain ⟨tasks, htasks, rfl⟩ := Option.map_eq_some_iff.mp hafter
      exact .inl ⟨request, next, tasks, rfl, hnext, htasks, rfl⟩
  | insertEvent process =>
      simp only [step] at hstep
      split at hstep
      next work rest lock tasks hidle hphase htasks =>
        obtain ⟨users, hexecute, rfl⟩ := Option.map_eq_some_iff.mp hstep
        exact .inr ⟨process, work, rest, lock, tasks, users, rfl, hidle,
          hphase, htasks, hexecute, rfl⟩
      · contradiction

theorem move_step [ToString Id]
    {eventsFirst : Bool} {ttlDays : ℤ} {after : AuditedState Process Id}
    {action : AuditedAction Process Id}
    (haligned : state.Aligned eventsFirst action.process)
    (hfits : ∀ edit ∈ after.edit action.process,
      levels.Fits eventsFirst edit)
    (hstep : state.step eventsFirst ttlDays action = some after) :
    Move levels.level state.locking action.process after.locking := by
  rcases step_eq_some hstep with
    ⟨request, next, tasks, rfl, hnext, htasks, rfl⟩ |
    ⟨process, work, rest, lock, tasks, users, rfl, hidle, hphase, htasks,
      hexecute, rfl⟩
  · exact move_request haligned hfits hnext htasks
  · exact move_execute hidle hphase htasks rfl (fun _ => rfl) (fun _ h => h)
      hexecute

end AuditedState

end Moves

end NotifyHub
