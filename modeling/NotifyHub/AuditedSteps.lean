import NotifyHub.RequestMoves
import Mathlib.Tactic

/-!
# What is left to do, and what is open

A step moves one process.  What the process still has to do agrees with its
phase, and its edit stays the same until it ends.
-/

namespace NotifyHub

variable {Process : Type*} {Id : Type} [DecidableEq Process] [DecidableEq Id]

omit [DecidableEq Process] in
theorem UserStore.start_aligned [ToString Id]
    {store : UserStore Id} {request : UserRequest Id} {phase : UserPhase Id}
    (eventsFirst : Bool) (hstart : store.start request = .ok phase) :
    phase.Aligned eventsFirst (phase.tasks eventsFirst) := by
  cases phase with
  | writing work rest =>
      exact ⟨start_statements eventsFirst hstart, work.skippable eventsFirst⟩
  | guarding edit => rfl
  | counting edit => rfl
  | _ => trivial

theorem QuietEffect.edit_eq [ToString Id]
    {state next : UserState Process Id} {process : Process}
    (heffect : QuietEffect state process next) :
    (next.phase process).edit = (state.phase process).edit ∨
      (∃ outcome, next.phase process = .ended outcome) ∨
      state.phase process = .idle := by
  cases heffect with
  | opens hphase _ => exact .inr (.inr hphase)
  | locksTenant hphase _ => exact .inl (by simp [hphase, UserPhase.edit])
  | counts hphase _ => exact .inl (by simp [hphase, UserPhase.edit])
  | accepts hphase _ => exact .inl (by simp [hphase, UserPhase.edit])
  | executes hphase hwork _ hmoved _ =>
      left
      rw [hmoved, Function.update_self, hphase]
      rcases hwork with rfl | ⟨change, before, after, rfl, rfl⟩
      · exact UserPhase.edit_writing _ _ _
      · rfl
  | ends outcome => exact .inr (.inl ⟨outcome, by simp⟩)

/-- A request about the users goes on with its edit, ends, or starts. -/
theorem UserState.step_edit [ToString Id]
    {state next : UserState Process Id} {action : UserAction Process Id}
    (hstep : state.step action = some next) :
    (next.phase action.process).edit = (state.phase action.process).edit ∨
    (∃ outcome, next.phase action.process = .ended outcome) ∨
    ∃ request phase, action = .start action.process request ∧
      state.phase action.process = .idle ∧
      state.store.start request = .ok phase ∧
      next.phase action.process = phase := by
  rcases UserState.step_effect hstep with
    ⟨process, work, store, rfl, -, -, rfl⟩ | heffect
  · exact .inr (.inl ⟨.succeeded, by simp [UserAction.process]⟩)
  rcases heffect.edit_eq with hedit | hended | hidle
  · exact .inl hedit
  · exact .inr (.inl hended)
  cases action with
  | start process request =>
      simp only [UserAction.process] at hidle
      simp only [UserState.step, hidle] at hstep
      split at hstep
      next problem hstart =>
        obtain rfl := Option.some.inj hstep
        exact .inr (.inl ⟨.refused problem, by simp [UserAction.process]⟩)
      next phase hstart =>
        obtain rfl := Option.some.inj hstep
        exact .inr (.inr ⟨request, phase, rfl, hidle, hstart, by
          simp [UserAction.process]⟩)
  | _ =>
      simp only [UserAction.process] at hidle
      simp [UserState.step, hidle, UserPhase.isOpen] at hstep

namespace SessionState

variable {state next : SessionState Process Id} {process : Process}

omit [DecidableEq Id] in
theorem finish_ended
    (state : SessionState Process Id) (process : Process)
    (outcome : Outcome) :
    (state.finish process outcome).session process = .ended outcome := by
  simp [finish, goto]

/-- A step is one about the users, or one which leaves their requests alone
or ends its own. -/
theorem step_users_phase [ToString Id]
    {ttlDays : ℤ} {action : SessionAction Process Id}
    (hstep : state.step ttlDays action = some next) :
    (∃ change users, action = .users change ∧
      state.session change.process = .idle ∧
      state.users.step change = some users ∧
      next = { state with users := users }) ∨
    ((∀ change, action ≠ .users change) ∧
      (next.users.phase = state.users.phase ∨
        ∃ outcome, next.session action.process = .ended outcome ∧
          next.users.phase = Function.update state.users.phase action.process
            (.ended outcome))) := by
  cases action with
  | users change =>
      simp only [step] at hstep
      split at hstep
      next hidle =>
        obtain ⟨users, husers, rfl⟩ := Option.map_eq_some_iff.mp hstep
        exact .inl ⟨change, users, rfl, hidle, husers, rfl⟩
      · contradiction
  | start process request =>
      simp only [step] at hstep
      split at hstep
      · rcases start_cases hstep with ⟨outcome, rfl⟩ | ⟨userId, rfl⟩
        · exact .inr ⟨by simp, .inr ⟨outcome, finish_ended _ _ _, rfl⟩⟩
        · exact .inr ⟨by simp, .inl rfl⟩
      · contradiction
  | shareTenant process =>
      simp only [step] at hstep
      split at hstep
      · obtain ⟨users, hlock, rfl⟩ := Option.map_eq_some_iff.mp hstep
        obtain ⟨lock, -, -, hsame⟩ := UserState.rows_lockTenant hlock
        exact .inr ⟨by simp, .inl hsame⟩
      · contradiction
  | lockUser process =>
      simp only [step] at hstep
      split at hstep
      · obtain ⟨users, hlock, rfl⟩ := Option.map_eq_some_iff.mp hstep
        obtain ⟨lock, -, -, hsame⟩ := UserState.rows_lockUser hlock
        exact .inr ⟨by simp, .inl hsame⟩
      · contradiction
  | read process now =>
      obtain ⟨-, ⟨outcome, rfl⟩ | ⟨phase, -, rfl⟩⟩ := read_cases hstep
      · exact .inr ⟨by simp, .inr ⟨outcome, finish_ended _ _ _, rfl⟩⟩
      · exact .inr ⟨by simp, .inl rfl⟩
  | commit process drawn now =>
      rcases commit_cases hstep with
        ⟨userId, row, -, -, -, -, rfl⟩ | ⟨userId, tokenId, row, -, -, -, -, rfl⟩ |
        ⟨userId, revocation, revoked, -, rfl⟩
      · exact .inr ⟨by simp, .inr ⟨_, finish_ended _ _ _, rfl⟩⟩
      · exact .inr ⟨by simp, .inr ⟨_, finish_ended _ _ _, rfl⟩⟩
      · exact .inr ⟨by simp, .inr ⟨_, finish_ended _ _ _, rfl⟩⟩
  | rollback process =>
      simp only [step] at hstep
      split at hstep
      · obtain rfl := Option.some.inj hstep
        exact .inr ⟨by simp, .inr ⟨_, finish_ended _ _ _, rfl⟩⟩
      · contradiction

end SessionState

namespace AuditedState

variable {state : AuditedState Process Id} {next : SessionState Process Id}
  {process : Process} {tasks : List (Task Id)}

theorem aligned_execute [ToString Id]
    {eventsFirst : Bool} {users : UserState Process Id} {work : Work Id}
    {rest : List (Statement Id)} {statement : Statement Id}
    (hstatements : statements tasks = rest) (hskippable : Skippable tasks)
    (hexecute : state.sessions.users.execute process work rest statement =
      some users) :
    (users.phase process).Aligned eventsFirst tasks := by
  rcases UserState.execute_locks hexecute with
    ⟨row, mode, lock, -, -, -, hmoved⟩ | ⟨-, -, later, -, hmoved⟩ |
    ⟨outcome, rfl⟩
  · rw [hmoved, Function.update_self]
    exact ⟨hstatements, hskippable⟩
  · rw [hmoved, Function.update_self]
    exact ⟨hstatements, hskippable⟩
  · simp [UserPhase.Aligned]

theorem aligned_users [ToString Id]
    {eventsFirst : Bool} {users : UserState Process Id}
    {action : UserAction Process Id}
    (haligned : state.Aligned eventsFirst action.process)
    (hstep : state.sessions.users.step action = some users)
    (htasks : state.tasksAfter eventsFirst
      { state.sessions with users := users } (.users action) = some tasks) :
    (users.phase action.process).Aligned eventsFirst tasks := by
  cases action with
  | start process request =>
      obtain rfl := Option.some.inj htasks
      cases hphase : state.sessions.users.phase process with
      | idle =>
          simp only [UserState.step, hphase] at hstep
          split at hstep
          · obtain rfl := Option.some.inj hstep
            simp [UserAction.process, UserPhase.Aligned]
          next phase hstart =>
            obtain rfl := Option.some.inj hstep
            simpa [UserAction.process] using
              UserStore.start_aligned eventsFirst hstart
      | _ => simp [UserState.step, hphase] at hstep
  | lockTenant process =>
      obtain rfl := Option.some.inj htasks
      cases hphase : state.sessions.users.phase process with
      | guarding edit =>
          simp only [UserState.step, hphase] at hstep
          obtain ⟨locked, hlock, rfl⟩ := Option.map_eq_some_iff.mp hstep
          simp [UserAction.process, UserPhase.Aligned, UserPhase.tasks]
      | _ => simp [UserState.step, hphase] at hstep
  | countOwners process =>
      obtain rfl := Option.some.inj htasks
      cases hphase : state.sessions.users.phase process with
      | counting edit =>
          simp only [UserState.step, hphase] at hstep
          split at hstep
          · obtain rfl := Option.some.inj hstep
            simp [UserAction.process, UserPhase.Aligned]
          · obtain rfl := Option.some.inj hstep
            simpa [UserAction.process, UserPhase.Aligned, UserPhase.tasks,
              Work.tasks] using
              ⟨edit.statements_tasks eventsFirst, edit.skippable eventsFirst⟩
      | _ => simp [UserState.step, hphase] at hstep
  | lockInvitation process now =>
      obtain rfl := Option.some.inj htasks
      cases hphase : state.sessions.users.phase process with
      | accepting invitationId newId =>
          simp only [UserState.step, hphase] at hstep
          split at hstep
          · obtain rfl := Option.some.inj hstep
            simp [UserAction.process, UserPhase.Aligned]
          split at hstep
          · obtain rfl := Option.some.inj hstep
            simp [UserAction.process, UserPhase.Aligned]
          · obtain ⟨lock, -, rfl⟩ := Option.map_eq_some_iff.mp hstep
            split
            · simp [UserAction.process, UserPhase.Aligned]
            · simp [UserAction.process, UserPhase.Aligned, UserPhase.tasks,
                Work.tasks, Skippable]
      | _ => simp [UserState.step, hphase] at hstep
  | execute process =>
      obtain ⟨work, statement, later, -, -, hskippable, rfl, hexecute⟩ :=
        execute_cases haligned hstep htasks
      refine aligned_execute ?_ ?_ hexecute
      · rw [statements_afterStatement]
      · exact hskippable.tail.afterStatement _ _
  | commit process =>
      obtain ⟨work, store, hphase, happly, rfl⟩ :=
        UserState.commit_eq_some hstep
      simp [UserAction.process, UserPhase.Aligned]
  | rollback process =>
      simp only [UserState.step] at hstep
      split at hstep
      · obtain rfl := Option.some.inj hstep
        simp [UserAction.process, UserPhase.Aligned]
      · contradiction

omit [DecidableEq Process] [DecidableEq Id] in
theorem aligned_of_eq
    {eventsFirst : Bool} {after : AuditedState Process Id}
    (haligned : state.Aligned eventsFirst process)
    (hphase : after.sessions.users.phase process =
      state.sessions.users.phase process)
    (htasks : after.tasks process = state.tasks process) :
    after.Aligned eventsFirst process := by
  rw [Aligned, hphase, htasks]
  exact haligned

theorem phase_of_ne [ToString Id]
    {eventsFirst : Bool} {ttlDays : ℤ} {after : AuditedState Process Id}
    {action : AuditedAction Process Id}
    (hstep : state.step eventsFirst ttlDays action = some after)
    (hne : process ≠ action.process) :
    after.sessions.users.phase process =
        state.sessions.users.phase process ∧
      after.tasks process = state.tasks process := by
  rcases step_eq_some hstep with
    ⟨request, next, tasks, rfl, hnext, -, rfl⟩ |
    ⟨acting, work, rest, lock, tasks, users, rfl, -, -, -, hexecute, rfl⟩
  · refine ⟨?_, Function.update_of_ne hne _ _⟩
    rcases SessionState.step_users_phase hnext with
      ⟨change, users, rfl, -, husers, rfl⟩ | ⟨-, hsame | ⟨outcome, -, hended⟩⟩
    · exact UserState.step_phase_of_ne husers hne
    · rw [advance, hsame]
    · rw [advance, hended]
      exact Function.update_of_ne hne _ _
  · refine ⟨?_, Function.update_of_ne hne _ _⟩
    rcases UserState.execute_locks hexecute with
      ⟨row, mode, taken, -, -, -, hmoved⟩ | ⟨-, -, later, -, hmoved⟩ |
      ⟨outcome, rfl⟩
    · rw [advance, hmoved]
      exact Function.update_of_ne hne _ _
    · rw [advance, hmoved]
      exact Function.update_of_ne hne _ _
    · exact Function.update_of_ne hne _ _

theorem aligned_step [ToString Id]
    {eventsFirst : Bool} {ttlDays : ℤ} {after : AuditedState Process Id}
    {action : AuditedAction Process Id}
    (haligned : ∀ process, state.Aligned eventsFirst process)
    (hstep : state.step eventsFirst ttlDays action = some after)
    (process : Process) : after.Aligned eventsFirst process := by
  by_cases hself : process = action.process
  · subst hself
    have hbefore := haligned action.process
    rcases step_eq_some hstep with
      ⟨request, next, tasks, rfl, hnext, htasks, rfl⟩ |
      ⟨acting, work, rest, lock, tasks, users, rfl, -, hphase, htasks,
        hexecute, rfl⟩
    · rcases SessionState.step_users_phase hnext with
        ⟨change, users, rfl, -, husers, rfl⟩ |
        ⟨hother, hsame | ⟨outcome, -, hended⟩⟩
      · have hafter := aligned_users hbefore husers htasks
        simpa [Aligned, advance, AuditedAction.process, SessionAction.process]
          using hafter
      · have hkept : tasks = state.tasks request.process := by
          cases request with
          | users change => exact absurd rfl (hother change)
          | _ => exact (Option.some.inj htasks).symm
        apply aligned_of_eq hbefore
        · rw [advance, hsame]
        · simp [advance, AuditedAction.process, hkept]
      · simp [Aligned, advance, AuditedAction.process, hended,
          UserPhase.Aligned]
    · rw [Aligned, AuditedAction.process, hphase, htasks] at hbefore
      obtain ⟨hstatements, hskippable⟩ := hbefore
      have hafter : (users.phase acting).Aligned eventsFirst tasks :=
        aligned_execute hstatements hskippable.tail hexecute
      simpa [Aligned, advance, AuditedAction.process] using hafter
  · obtain ⟨hphase, htasks⟩ := phase_of_ne hstep hself
    exact aligned_of_eq (haligned process) hphase htasks

omit [DecidableEq Process] [DecidableEq Id] in
theorem wanted_of_ended {outcome : Outcome}
    (hsession : state.sessions.session process = .idle ∨
      state.sessions.session process = .ended outcome)
    (hended : state.sessions.users.phase process = .ended outcome) :
    state.wanted process = none ∧ state.edit process = none := by
  rw [wanted, edit, hended]
  rcases hsession with hsession | hsession
  · exact ⟨by rw [hsession]; rfl, rfl⟩
  · exact ⟨by rw [hsession]; rfl, rfl⟩

theorem edit_request [ToString Id]
    {ttlDays : ℤ} {request : SessionAction Process Id}
    (hstep : state.sessions.step ttlDays request = some next) :
    let after := state.advance request.process next tasks
    after.edit request.process = state.edit request.process ∨
    (after.wanted request.process = none ∧
      after.edit request.process = none) ∨
    (state.edit request.process = none ∧
      ∃ asked ∈ (AuditedAction.request request).started,
        ∃ phase ∈ (state.sessions.users.store.start asked).toOption,
          after.edit request.process = phase.edit) := by
  rcases SessionState.step_users_phase hstep with
    ⟨change, users, rfl, hidle, husers, rfl⟩ |
    ⟨-, hsame | ⟨outcome, hsession, hended⟩⟩
  · rcases UserState.step_edit husers with
      hedit | ⟨outcome, hended⟩ | ⟨asked, phase, haction, hphase, hstart, hgone⟩
    · exact .inl hedit
    · exact .inr (.inl (wanted_of_ended (.inl hidle) hended))
    · refine .inr (.inr ⟨?_, asked, ?_, phase, ?_, congrArg _ hgone⟩)
      · change (state.sessions.users.phase change.process).edit = none
        rw [hphase]
        rfl
      · rw [haction]
        rfl
      · rw [hstart]
        rfl
  · left
    change (next.users.phase request.process).edit = _
    rw [hsame]
    rfl
  · refine .inr (.inl (wanted_of_ended (.inr hsession) ?_))
    change next.users.phase request.process = _
    rw [hended, Function.update_self]

theorem edit_execute [ToString Id]
    {users : UserState Process Id} {work : Work Id}
    {before rest : List (Statement Id)} {statement : Statement Id}
    (hidle : state.sessions.session process = .idle)
    (hphase : state.sessions.users.phase process = .writing work before)
    (hexecute : state.sessions.users.execute process work rest statement =
      some users) :
    let after :=
      state.advance process { state.sessions with users := users } tasks
    after.edit process = state.edit process ∨
      (after.wanted process = none ∧ after.edit process = none) := by
  have hedit : ∀ later : Work Id, work.Continues later →
      users.phase = Function.update state.sessions.users.phase process
        (.writing later rest) →
      (users.phase process).edit =
        (state.sessions.users.phase process).edit := by
    intro later hwork hmoved
    rw [hmoved, Function.update_self, hphase]
    rcases hwork with rfl | ⟨change, read, seen, rfl, rfl⟩
    · exact UserPhase.edit_writing _ _ _
    · rfl
  rcases UserState.execute_locks hexecute with
    ⟨row, mode, taken, -, -, -, hmoved⟩ | ⟨-, -, later, hwork, hmoved⟩ |
    ⟨outcome, rfl⟩
  · exact .inl (hedit work (.inl rfl) hmoved)
  · exact .inl (hedit later hwork hmoved)
  · have hended : (state.sessions.users.finish process outcome).phase process =
        .ended outcome := by
      simp
    exact .inr (wanted_of_ended (.inl hidle) hended)

/-- A process goes on with its edit, wants nothing any more, or has just
started the edit. -/
theorem edit_step [ToString Id]
    {eventsFirst : Bool} {ttlDays : ℤ} {after : AuditedState Process Id}
    {action : AuditedAction Process Id}
    (hstep : state.step eventsFirst ttlDays action = some after)
    (process : Process) :
    after.edit process = state.edit process ∨
    (after.wanted process = none ∧ after.edit process = none) ∨
    (state.edit process = none ∧ ∃ request ∈ action.started,
      ∃ phase ∈ (state.sessions.users.store.start request).toOption,
        after.edit process = phase.edit) := by
  by_cases hself : process = action.process
  · subst hself
    rcases step_eq_some hstep with
      ⟨request, next, tasks, rfl, hnext, htasks, rfl⟩ |
      ⟨acting, work, rest, lock, tasks, users, rfl, hidle, hphase, -,
        hexecute, rfl⟩
    · exact edit_request hnext
    · rcases edit_execute hidle hphase hexecute with hedit | hended
      · exact .inl hedit
      · exact .inr (.inl hended)
  · left
    rw [edit, (phase_of_ne hstep hself).1]
    rfl

end AuditedState

end NotifyHub
