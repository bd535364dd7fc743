import NotifyHub.UserRequests
import Mathlib.Tactic

/-!
# Disabling a user

A DELETE, or a PATCH with status `disabled`, assigns the status to the row it
has loaded.  The assignment gives an UPDATE only if the loaded status was
another one, so a request which has found the user disabled leaves the status
to whoever writes it before the commit.
-/

namespace NotifyHub

variable {Process : Type*} {Id : Type}

/-- The user whom a request wants disabled. -/
def UserRequest.disables : UserRequest Id → Option Id
  | .updateUser _ userId body =>
      if body.status = some .disabled then some userId else none
  | .removeUser _ userId => some userId
  | _ => none

/-- The edit is about the user whom the request wants disabled. -/
def UserRequest.Wants (request : UserRequest Id) (edit : Edit Id) : Prop :=
  ∀ target, request.disables = some target →
    edit.target = target ∧ edit.final.status = .disabled

variable [DecidableEq Id]

theorem UserStore.updateUser_wants
    {store : UserStore Id} {claims : AccessClaims Id} {userId : Id}
    {body : UserPatchIn Id} {edit : Edit Id}
    (hedit : store.updateUser claims userId body = .ok edit) :
    (UserRequest.updateUser claims userId body).Wants edit := by
  simp only [updateUser, Except.bind_eq_ok] at hedit
  obtain ⟨_, -, user, -, _, -, _, -, hok⟩ := hedit
  obtain rfl := Except.ok.inj hok
  intro target hdisables
  simp only [UserRequest.disables] at hdisables
  split at hdisables
  next hstatus =>
    refine ⟨Option.some.inj hdisables, ?_⟩
    simp only [hstatus, Option.getD_some]
  next => contradiction

theorem UserStore.removeUser_wants
    {store : UserStore Id} {claims : AccessClaims Id} {userId : Id}
    {edit : Edit Id} (hedit : store.removeUser claims userId = .ok edit) :
    (UserRequest.removeUser claims userId).Wants edit := by
  simp only [removeUser, Except.bind_eq_ok] at hedit
  obtain ⟨_, -, user, -, _, -, hok⟩ := hedit
  obtain rfl := Except.ok.inj hok
  exact fun target hdisables => ⟨Option.some.inj hdisables, rfl⟩

/-- The phase is one of the request, and its edit is what the request
wants. -/
def UserPhase.Serves (request : UserRequest Id) : UserPhase Id → Prop
  | .idle => False
  | .guarding edit | .counting edit | .writing (.edit edit _) _ =>
      request.Wants edit
  | .accepting .. | .writing _ _ => request.disables = none
  | .ended _ => True

omit [DecidableEq Id] in
theorem Edit.phase_serves
    {request : UserRequest Id} {edit : Edit Id} (hwants : request.Wants edit) :
    edit.phase.Serves request := by
  unfold Edit.phase
  split
  · exact hwants
  · exact hwants

omit [DecidableEq Id] in
theorem Work.Continues.serves
    {request : UserRequest Id} {work later : Work Id}
    {before after : List (Statement Id)} (hwork : work.Continues later)
    (hserves : (UserPhase.writing work before).Serves request) :
    (UserPhase.writing later after).Serves request := by
  rcases hwork with rfl | ⟨change, first, second, rfl, rfl⟩
  · cases later with
    | _ => exact hserves
  · exact hserves

variable [ToString Id]

theorem UserStore.start_serves
    {store : UserStore Id} {request : UserRequest Id} {phase : UserPhase Id}
    (hstart : store.start request = .ok phase) : phase.Serves request := by
  cases request with
  | updateUser claims userId body =>
      obtain ⟨edit, hedit, rfl⟩ := Except.map_eq_ok.mp hstart
      exact Edit.phase_serves (updateUser_wants hedit)
  | removeUser claims userId =>
      obtain ⟨edit, hedit, rfl⟩ := Except.map_eq_ok.mp hstart
      exact Edit.phase_serves (removeUser_wants hedit)
  | _ =>
      rcases start_cases hstart with
        ⟨edit, -, rfl⟩ | ⟨work, rest, rfl, htarget, -⟩ | ⟨_, _, rfl⟩
      · exact Edit.phase_serves fun target hdisables => nomatch hdisables
      · cases work with
        | edit change progress => contradiction
        | _ => rfl
      · rfl

/-! ## What a run remembers of its requests -/

variable [DecidableEq Process]

omit [ToString Id] in
theorem QuietEffect.serves [ToString Id]
    {state next : UserState Process Id} {process : Process}
    {request : UserRequest Id} (heffect : QuietEffect state process next)
    (hserves : (state.phase process).Serves request) :
    (next.phase process).Serves request := by
  cases heffect with
  | opens hphase _ =>
      rw [hphase] at hserves
      contradiction
  | locksTenant hphase _ =>
      rw [hphase] at hserves
      rw [UserState.goto_phase, Function.update_self]
      exact hserves
  | counts hphase _ =>
      rw [hphase] at hserves
      rw [UserState.goto_phase, Function.update_self]
      exact hserves
  | accepts hphase _ =>
      rw [hphase] at hserves
      simp only [UserState.goto_phase, Function.update_self]
      exact hserves
  | executes hphase hwork _ hmoved _ =>
      rw [hphase] at hserves
      rw [hmoved, Function.update_self]
      exact hwork.serves hserves
  | ends outcome => simp [UserPhase.Serves]

def Remembers
    (done : List (UserAction Process Id)) (state : UserState Process Id) :
    Prop :=
  ∀ process request, .start process request ∈ done →
    (state.phase process).Serves request

theorem Remembers.step
    {done : List (UserAction Process Id)} {state next : UserState Process Id}
    {action : UserAction Process Id} (hremembers : Remembers done state)
    (hstep : state.step action = some next) :
    Remembers (done ++ [action]) next := by
  intro process request hmem
  rcases List.mem_append.mp hmem with hmem | hmem
  · have hserves := hremembers process request hmem
    by_cases heq : process = action.process
    · subst heq
      rcases UserState.step_effect hstep with
        ⟨process, work, store, rfl, -, -, rfl⟩ | heffect
      · simp [UserAction.process, UserPhase.Serves]
      · exact heffect.serves hserves
    · rw [UserState.step_phase_of_ne hstep heq]
      exact hserves
  · obtain rfl := List.mem_singleton.mp hmem
    cases hphase : state.phase process with
    | idle =>
        simp only [UserState.step, hphase] at hstep
        split at hstep
        · obtain rfl := Option.some.inj hstep
          simp [UserPhase.Serves]
        next phase hstart =>
          obtain rfl := Option.some.inj hstep
          simp only [UserState.goto_phase, Function.update_self]
          exact UserStore.start_serves hstart
    | _ => simp [UserState.step, hphase] at hstep

theorem remembers_run
    {start state : UserState Process Id}
    {actions : List (UserAction Process Id)}
    (hrun : (userMachine Process Id).run start actions = some state) :
    Remembers actions state := by
  have hnothing : Remembers [] start := fun _ _ hmem => nomatch hmem
  exact Machine.run_history
    (fun _ _ _ _ hremembers hstep => hremembers.step hstep) hnothing hrun

/-! ## The commit -/

omit [DecidableEq Id] [ToString Id] [DecidableEq Process] in
/-- The status after an UPDATE which wants the user disabled. -/
theorem User.writeBack_status_disabled_iff
    {loaded final stored : User} (hfinal : final.status = .disabled) :
    (loaded.writeBack final stored).status = .disabled ↔
      loaded.status ≠ .disabled ∨ stored.status = .disabled := by
  by_cases hloaded : final.status = loaded.status
  · rw [writeBack, writeBack_of_eq hloaded, ← hloaded, hfinal]
    simp
  · rw [writeBack, writeBack_of_ne hloaded]
    have hchanged : loaded.status ≠ .disabled := by
      rw [← hfinal]
      exact fun heq => hloaded heq.symm
    exact ⟨fun _ => .inl hchanged, fun _ => hfinal⟩

/-- In every run, the commit of a request which wants a user disabled leaves
the user disabled exactly when the request has loaded another status or the
user is disabled already. -/
theorem disabled_after_commit_iff
    (start state next : UserState Process Id)
    (actions : List (UserAction Process Id))
    (process : Process) (request : UserRequest Id) (target : Id)
    (hrun : (userMachine Process Id).run start actions = some state)
    (hrequest : .start process request ∈ actions)
    (hdisables : request.disables = some target)
    (hcommit : (userMachine Process Id).step state (.commit process) =
      some next) :
    (next.store.user target).status = .disabled ↔
      (∃ edit ∈ (state.phase process).edit, edit.loaded.status ≠ .disabled) ∨
        (state.store.user target).status = .disabled := by
  have hserves := remembers_run hrun process request hrequest
  obtain ⟨work, store, hphase, happly, rfl⟩ :=
    UserState.commit_eq_some hcommit
  rw [hphase] at hserves
  cases work with
  | edit change progress =>
      obtain ⟨rfl, hfinal⟩ := hserves target hdisables
      obtain ⟨-, huser, -⟩ := UserStore.commitEdit_eq_some happly
      simp only [UserState.finish_store, huser, hphase, UserPhase.edit,
        Option.mem_some_iff, exists_eq_left']
      exact User.writeBack_status_disabled_iff hfinal
  | _ =>
      have hnone : request.disables = none := hserves
      rw [hdisables] at hnone
      contradiction

/-- The statements of a DELETE of user 1, up to its commit. -/
def removeMember : List (UserAction (Fin 2) ℕ) :=
  [.start 0 (.removeUser ownerClaims 1), .execute 0, .execute 0, .execute 0,
    .execute 0]

theorem disabled_after_commit_removeMember :
    ∃ state next : UserState (Fin 2) ℕ,
      (userMachine (Fin 2) ℕ).run (.atRest ownerAndMember) removeMember =
        some state ∧
      (userMachine (Fin 2) ℕ).step state (.commit 0) = some next ∧
      ((next.store.user 1).status = .disabled ↔
        (∃ edit ∈ (state.phase 0).edit, edit.loaded.status ≠ .disabled) ∨
          (state.store.user 1).status = .disabled) := by
  obtain ⟨state, hrun, next, hcommit⟩ :
      ∃ state : UserState (Fin 2) ℕ,
        (userMachine (Fin 2) ℕ).run (.atRest ownerAndMember) removeMember =
          some state ∧
        ∃ next : UserState (Fin 2) ℕ,
          (userMachine (Fin 2) ℕ).step state (.commit 0) = some next :=
    ⟨_, rfl, _, rfl⟩
  exact ⟨state, next, hrun, hcommit,
    disabled_after_commit_iff (.atRest ownerAndMember) state next removeMember
      0 (.removeUser ownerClaims 1) 1 hrun (List.mem_cons_self ..) rfl hcommit⟩

/-- User 0 is an active owner, user 1 a disabled member. -/
def ownerAndDisabled : UserStore ℕ :=
  { ownerAndMember with
    user := fun id =>
      if id = 0 then ⟨.owner, .active⟩ else ⟨.member, .disabled⟩ }

/-- The DELETE has loaded user 1 disabled, the PATCH of another process
enables the user, and the DELETE reports success. -/
theorem disable_lost :
    ∃ state next : UserState (Fin 2) ℕ,
      (userMachine (Fin 2) ℕ).run (.atRest ownerAndDisabled)
        [.start 0 (.removeUser ownerClaims 1),
          .start 1 (.updateUser ownerClaims 1 ⟨none, some .active, none⟩),
          .execute 1, .commit 1, .execute 0, .execute 0, .execute 0] =
            some state ∧
      (userMachine (Fin 2) ℕ).step state (.commit 0) = some next ∧
      next.phase 0 = .ended .succeeded ∧
      (next.store.user 1).status = .active :=
  ⟨_, _, rfl, rfl, rfl, by decide +kernel⟩

end NotifyHub
