import NotifyHub.UserRequests
import Mathlib.Tactic

/-!
# Owners are out of reach of admins

`_assert_can_manage` and `_assert_can_grant_owner` look at the token and at
the row which the request has read.  The second holds whatever happens later:
a request without the owner role never makes an owner.  The first speaks of a
row which may be out of date at the commit: it holds as long as nobody is
promoted while such a request on the same user is open.
-/

namespace NotifyHub

variable {Process : Type*} {Id : Type}

/-- The work of a creation or an acceptance. -/
def UserPhase.work : UserPhase Id → Option (Work Id)
  | .writing work _ => some work
  | _ => none

/-- In whose role a step commits, if it does. -/
def UserState.actor (state : UserState Process Id) :
    UserAction Process Id → Option UserRole
  | .commit process =>
      match state.phase process with
      | .writing work [] => some work.actor
      | _ => none
  | _ => none

/-- The request writes something before its commit. -/
def Edit.writes (edit : Edit Id) : Bool :=
  edit.final ≠ edit.loaded || edit.groupIds.isSome || edit.endsSessions

theorem Edit.statements_of_not_writes
    {edit : Edit Id} (hnothing : edit.writes = false) :
    edit.statements = [] := by
  simp only [writes, ne_eq, decide_not, Bool.or_eq_false_iff,
    Bool.not_eq_false', decide_eq_true_eq, Option.isSome_eq_false_iff,
    Option.isNone_iff_eq_none] at hnothing
  obtain ⟨⟨hsame, hgroups⟩, hends⟩ := hnothing
  simp [statements, hsame, hgroups, hends]

/-- The commit makes a user an owner whom a request without the owner role
has read and is about to change. -/
def UserState.PromotesUnderRequest
    (state : UserState Process Id) : UserAction Process Id → Prop
  | .commit process =>
      match state.phase process with
      | .writing (.edit change _) [] =>
          change.final.role = .owner ∧ change.loaded.role ≠ .owner ∧
            ∃ other, other ≠ process ∧
              ∃ edit ∈ (state.phase other).edit,
                edit.writes = true ∧ edit.target = change.target ∧
                  edit.claims.role ≠ .owner
      | _ => False
  | _ => False

instance [Fintype Process] [DecidableEq Process] [DecidableEq Id]
    (state : UserState Process Id) (action : UserAction Process Id) :
    Decidable (state.PromotesUnderRequest action) := by
  unfold UserState.PromotesUnderRequest
  split
  · split <;> infer_instance
  · infer_instance

/-! ## The invariant -/

/-- What an open edit relies on: the user it has found is there, and, where it
writes something, is not an owner unless the token is an owner's. -/
structure UserStore.Manages (store : UserStore Id) (edit : Edit Id) :
    Prop where
  granted : edit.Granted
  member : edit.target ∈ store.users
  role : edit.claims.role ≠ .owner → edit.writes = true →
    (store.user edit.target).role ≠ .owner

theorem UserStore.Opened.manages
    {store : UserStore Id} {edit : Edit Id} (hopened : store.Opened edit) :
    store.Manages edit where
  granted := hopened.granted
  member := hopened.member
  role hactor _ := hopened.loaded ▸ (hopened.granted hactor).1

structure UserPhase.Lawful (store : UserStore Id) (phase : UserPhase Id) :
    Prop where
  manages : ∀ edit ∈ phase.edit, store.Manages edit
  granted : ∀ work ∈ phase.work, work.Granted
  nothing : ∀ edit progress rest, phase = .writing (.edit edit progress) rest →
    edit.writes = false → progress = .start ∧ rest = []

structure UserState.Lawful (state : UserState Process Id) : Prop where
  phase : ∀ process, (state.phase process).Lawful state.store
  invitations : ∀ id, ∀ invitation ∈ state.store.invitations id,
    invitation.Granted

theorem UserPhase.lawful_of_closed
    (store : UserStore Id) {phase : UserPhase Id}
    (hedit : phase.edit = none) (hwork : phase.work = none) :
    phase.Lawful store := by
  refine ⟨by simp [hedit], by simp [hwork], ?_⟩
  rintro edit progress rest rfl
  contradiction

theorem UserPhase.lawful_edit
    {store : UserStore Id} {edit : Edit Id} (hmanages : store.Manages edit)
    (progress : Progress Id) (rest : List (Statement Id))
    (hnothing : edit.writes = false → progress = .start ∧ rest = []) :
    (UserPhase.writing (.edit edit progress) rest).Lawful store := by
  constructor
  · rintro _ ⟨⟩
    exact hmanages
  · rintro _ ⟨⟩
    exact hmanages.granted
  · rintro _ _ _ ⟨⟩
    exact hnothing

theorem UserPhase.lawful_of_target_none
    (store : UserStore Id) {work : Work Id} (htarget : work.target = none)
    (hgranted : work.Granted) (rest : List (Statement Id)) :
    (UserPhase.writing work rest).Lawful store := by
  constructor
  · cases work with
    | edit change progress => contradiction
    | _ => rintro _ ⟨⟩
  · rintro _ ⟨⟩
    exact hgranted
  · rintro _ _ _ ⟨⟩
    contradiction

theorem Work.Continues.lawful
    {store : UserStore Id} {work later : Work Id}
    {statement : Statement Id} {rest : List (Statement Id)}
    (hwork : work.Continues later)
    (hlawful : (UserPhase.writing work (statement :: rest)).Lawful store) :
    (UserPhase.writing later rest).Lawful store := by
  have hnothing : ∀ change progress, work = .edit change progress →
      ∀ after : Progress Id, change.writes = false →
        after = .start ∧ rest = [] := by
    rintro change progress rfl after hwrites
    have hstatements := (hlawful.nothing _ _ _ rfl hwrites).2
    contradiction
  rcases hwork with rfl | ⟨change, first, second, rfl, rfl⟩
  · cases later with
    | edit change progress =>
        exact UserPhase.lawful_edit (hlawful.manages change rfl) progress rest
          (hnothing change progress rfl progress)
    | _ =>
        exact UserPhase.lawful_of_target_none store rfl
          (hlawful.granted _ rfl) rest
  · exact UserPhase.lawful_edit (hlawful.manages change rfl) second rest
      (hnothing change first rfl second)

variable [DecidableEq Id]

omit [DecidableEq Id] in
theorem Edit.phase_lawful
    {store : UserStore Id} {edit : Edit Id} (hmanages : store.Manages edit) :
    edit.phase.Lawful store := by
  unfold Edit.phase
  split
  · constructor
    · rintro _ ⟨⟩
      exact hmanages
    · rintro _ ⟨⟩
    · rintro _ _ _ ⟨⟩
  · exact UserPhase.lawful_edit hmanages _ _ fun hnothing =>
      ⟨rfl, edit.statements_of_not_writes hnothing⟩

/-! ## Commits of other requests -/

/-- A commit which does not promote the target of an edit leaves the edit
what it relies on. -/
theorem UserStore.Manages.apply
    {store after : UserStore Id} {edit : Edit Id}
    (hmanages : store.Manages edit) {work : Work Id}
    (happly : work.apply store = some after)
    (hspares : ∀ change progress, work = .edit change progress →
      change.final.role = .owner → change.loaded.role ≠ .owner →
        edit.target = change.target → edit.writes = true →
          edit.claims.role = .owner) :
    after.Manages edit := by
  refine ⟨hmanages.granted, ?_, fun hactor hwrites => ?_⟩
  · by_cases htarget : work.target = some edit.target
    · cases work with
      | edit change progress =>
          rw [(UserStore.commitEdit_eq_some happly).1]
          exact hmanages.member
      | _ => contradiction
    · exact (Work.apply_sameUser happly hmanages.member htarget).member
        hmanages.member
  · by_cases htarget : work.target = some edit.target
    · cases work with
      | edit change progress =>
          have heq : change.target = edit.target := Option.some.inj htarget
          obtain ⟨-, huser, -⟩ := UserStore.commitEdit_eq_some happly
          rw [← heq, huser]
          by_cases hsame : change.final.role = change.loaded.role
          · rw [User.writeBack, writeBack_of_eq hsame, heq]
            exact hmanages.role hactor hwrites
          · rw [User.writeBack, writeBack_of_ne hsame]
            intro howner
            refine hactor
              (hspares change progress rfl howner ?_ heq.symm hwrites)
            rw [← howner]
            exact fun hloaded => hsame hloaded.symm
      | _ => contradiction
    · rw [(Work.apply_sameUser happly hmanages.member htarget).user]
      exact hmanages.role hactor hwrites

theorem Work.apply_invitations
    {store after : UserStore Id} {work : Work Id}
    (happly : work.apply store = some after) (hgranted : work.Granted)
    (hinvitations : ∀ id, ∀ invitation ∈ store.invitations id,
      invitation.Granted) :
    ∀ id, ∀ invitation ∈ after.invitations id, invitation.Granted := by
  have hinsert : ∀ {role userId groupIds} {inserted : UserStore Id},
      store.insertUser userId role groupIds = some inserted →
        inserted.invitations = store.invitations := by
    intro role userId groupIds inserted hinsert
    unfold UserStore.insertUser at hinsert
    split at hinsert
    next => exact Option.some.inj hinsert ▸ rfl
    next => contradiction
  have hupdate : ∀ (changed : Id) (invitation : Invitation Id),
      invitation.Granted →
        ∀ id, ∀ found ∈ Function.update store.invitations changed
          (some invitation) id, found.Granted := by
    intro changed invitation hnew id found hfound
    by_cases heq : id = changed
    · subst heq
      rw [Function.update_self] at hfound
      exact Option.some.inj hfound ▸ hnew
    · rw [Function.update_of_ne heq] at hfound
      exact hinvitations id found hfound
  cases work with
  | edit change progress =>
      simp only [Work.apply, UserStore.commitEdit] at happly
      split at happly
      next => exact Option.some.inj happly ▸ hinvitations
      next => contradiction
  | create claims userId body =>
      rw [hinsert happly]
      exact hinvitations
  | invite invitationId invitation =>
      simp only [Work.apply] at happly
      split at happly
      next =>
        exact Option.some.inj happly ▸ hupdate invitationId invitation hgranted
      next => contradiction
  | accept invitationId invitation userId now =>
      obtain ⟨inserted, hinserted, rfl⟩ := Option.map_eq_some_iff.mp happly
      simp only [hinsert hinserted]
      exact hupdate invitationId _ hgranted

/-- An edit which writes nothing leaves every user as is. -/
theorem UserStore.commitEdit_start
    {store after : UserStore Id} {edit : Edit Id}
    (hnothing : edit.writes = false)
    (hcommit : store.commitEdit edit .start = some after) (id : Id) :
    store.SameUser after id := by
  have hsame : edit.final = edit.loaded := by
    by_contra hdiffers
    simp [Edit.writes, hdiffers] at hnothing
  generalize hstart : Progress.start = progress at hcommit
  simp only [commitEdit] at hcommit
  split at hcommit
  next =>
    obtain rfl := Option.some.inj hcommit
    subst hstart
    by_cases hid : id = edit.target
    · subst hid
      constructor <;>
        simp [hsame, User.writeBack, writeBack_of_eq, Progress.start]
    · constructor <;> simp [hid]
  next => contradiction

/-! ## Steps -/

variable [DecidableEq Process]

omit [DecidableEq Id] in
/-- One process goes on, and the committed rows stay as they are. -/
theorem UserState.Lawful.move
    {state next : UserState Process Id} (hlawful : state.Lawful)
    {process : Process} {phase : UserPhase Id}
    (hstore : next.store = state.store)
    (hmoved : next.phase = Function.update state.phase process phase)
    (hphase : phase.Lawful state.store) : next.Lawful := by
  refine ⟨fun other => ?_, hstore ▸ hlawful.invitations⟩
  rw [hstore, hmoved]
  by_cases heq : other = process
  · subst heq
    rw [Function.update_self]
    exact hphase
  · rw [Function.update_of_ne heq]
    exact hlawful.phase other

theorem UserState.Lawful.commit
    {state : UserState Process Id} (hlawful : state.Lawful)
    {process : Process} {work : Work Id} {store : UserStore Id}
    (hphase : state.phase process = .writing work [])
    (happly : work.apply state.store = some store)
    (hallowed : ¬state.PromotesUnderRequest (.commit process)) :
    ({ state with store := store }.finish process .succeeded).Lawful := by
  have hgranted : work.Granted :=
    (hlawful.phase process).granted work (by rw [hphase]; rfl)
  refine ⟨fun other => ?_,
    Work.apply_invitations happly hgranted hlawful.invitations⟩
  simp only [UserState.finish_phase, UserState.finish_store]
  by_cases heq : other = process
  · subst heq
    rw [Function.update_self]
    exact UserPhase.lawful_of_closed store rfl rfl
  · rw [Function.update_of_ne heq]
    refine ⟨fun edit hedit => ?_, (hlawful.phase other).granted,
      (hlawful.phase other).nothing⟩
    apply ((hlawful.phase other).manages edit hedit).apply happly
    rintro change progress rfl hfinal hloaded htarget hwrites
    by_contra hactor
    apply hallowed
    simp only [PromotesUnderRequest, hphase]
    exact ⟨hfinal, hloaded, other, heq, edit, hedit, hwrites, htarget, hactor⟩

variable [ToString Id]

theorem UserState.Lawful.quiet
    {state next : UserState Process Id} (hlawful : state.Lawful)
    {process : Process} (heffect : QuietEffect state process next) :
    next.Lawful := by
  have hself := hlawful.phase process
  cases heffect with
  | opens _ hstart =>
      refine hlawful.move rfl rfl ?_
      rcases UserStore.start_cases hstart with
        ⟨edit, hopened, rfl⟩ | ⟨work, rest, rfl, htarget, hgranted⟩ |
        ⟨_, _, rfl⟩
      · exact Edit.phase_lawful hopened.manages
      · exact UserPhase.lawful_of_target_none _ htarget hgranted rest
      · exact UserPhase.lawful_of_closed _ rfl rfl
  | @locksTenant edit lock hphase _ =>
      rw [hphase] at hself
      refine hlawful.move rfl rfl ?_
      exact ⟨hself.manages, hself.granted, by rintro _ _ _ ⟨⟩⟩
  | @counts edit hphase _ =>
      rw [hphase] at hself
      refine hlawful.move rfl rfl ?_
      exact UserPhase.lawful_edit (hself.manages edit rfl) _ _ fun hnothing =>
        ⟨rfl, edit.statements_of_not_writes hnothing⟩
  | @accepts invitationId newId invitation now _ _ hinvitation =>
      have hgranted :
          (Work.accept invitationId invitation newId now).Granted :=
        hlawful.invitations _ _ hinvitation
      refine hlawful.move rfl rfl ?_
      exact UserPhase.lawful_of_target_none _ rfl hgranted _
  | executes hphase hwork hstore hmoved _ =>
      rw [hphase] at hself
      exact hlawful.move hstore hmoved (hwork.lawful hself)
  | ends outcome =>
      exact hlawful.move rfl rfl (UserPhase.lawful_of_closed _ rfl rfl)

theorem UserState.Lawful.step
    {state next : UserState Process Id} (hlawful : state.Lawful)
    {action : UserAction Process Id}
    (hallowed : ¬state.PromotesUnderRequest action)
    (hstep : state.step action = some next) : next.Lawful := by
  rcases UserState.step_effect hstep with
    ⟨process, work, store, rfl, hphase, happly, rfl⟩ | heffect
  · exact hlawful.commit hphase happly hallowed
  · exact hlawful.quiet heffect

/-- A step without the owner role leaves every owner as is and makes none. -/
theorem UserState.Lawful.owners
    {state next : UserState Process Id} (hlawful : state.Lawful)
    {action : UserAction Process Id}
    (hstep : state.step action = some next)
    (hactor : state.actor action ≠ some .owner) (id : Id) :
    (state.store.IsOwner id → state.store.SameUser next.store id) ∧
      (next.store.IsOwner id → state.store.IsOwner id) := by
  rcases UserState.step_effect hstep with
    ⟨process, work, store, rfl, hphase, happly, rfl⟩ | heffect
  · have hrole : work.actor ≠ .owner := by
      intro howner
      apply hactor
      simp only [actor, hphase, howner]
    have hself := hlawful.phase process
    rw [hphase] at hself
    refine ⟨fun howner => ?_,
      Work.apply_isOwner happly (hself.granted work rfl) hrole⟩
    by_cases htarget : work.target = some id
    · cases work with
      | edit change progress =>
          obtain rfl : change.target = id := Option.some.inj htarget
          cases hwrites : change.writes with
          | true =>
              exact absurd howner.2
                ((hself.manages change rfl).role hrole hwrites)
          | false =>
              obtain ⟨rfl, -⟩ := hself.nothing change progress [] rfl hwrites
              exact UserStore.commitEdit_start hwrites happly _
      | _ => contradiction
    · exact Work.apply_sameUser happly howner.1 htarget
  · rw [heffect.store_eq]
    exact ⟨fun _ => UserStore.SameUser.refl _ id, fun howner => howner⟩

/-! ## Runs -/

/-- While nobody is promoted under an open request, a request without the
owner role neither changes an owner nor makes one. -/
theorem owners_out_of_reach
    (start state next : UserState Process Id)
    (actions : List (UserAction Process Id))
    (action : UserAction Process Id)
    (hquiet : start.Quiet)
    (hinvitations : ∀ id, ∀ invitation ∈ start.store.invitations id,
      invitation.Granted)
    (hallowed : (userMachine Process Id).AllowedAlong
      (fun state action => ¬state.PromotesUnderRequest action)
      start actions)
    (hrun : (userMachine Process Id).run start actions = some state)
    (hstep : (userMachine Process Id).step state action = some next)
    (hactor : state.actor action ≠ some .owner) (id : Id) :
    (state.store.IsOwner id → state.store.SameUser next.store id) ∧
      (next.store.IsOwner id → state.store.IsOwner id) := by
  have hstart : start.Lawful := by
    refine ⟨fun process => ?_, hinvitations⟩
    rw [hquiet.phase process]
    exact UserPhase.lawful_of_closed _ rfl rfl
  have hlawful : state.Lawful := hallowed.run_preserves
    (fun _ _ _ hcurrent hcondition hmoves => hcurrent.step hcondition hmoves)
    hstart hrun
  exact hlawful.owners hstep hactor id

def adminClaims : AccessClaims ℕ := ⟨2, .admin⟩

theorem owners_out_of_reach_viewer :
    ∃ state next : UserState (Fin 2) ℕ,
      (userMachine (Fin 2) ℕ).run (.atRest ownerAndMember)
        [setRole adminClaims 0 1 .viewer, .execute 0] = some state ∧
      (userMachine (Fin 2) ℕ).step state (.commit 0) = some next ∧
      (next.store.user 1).role = .viewer ∧
      (state.store.IsOwner 0 → state.store.SameUser next.store 0) ∧
      (next.store.IsOwner 0 → state.store.IsOwner 0) := by
  obtain ⟨state, hrun, next, hstep, hviewer, hactor⟩ :
      ∃ state : UserState (Fin 2) ℕ,
        (userMachine (Fin 2) ℕ).run (.atRest ownerAndMember)
          [setRole adminClaims 0 1 .viewer, .execute 0] = some state ∧
        ∃ next : UserState (Fin 2) ℕ,
          (userMachine (Fin 2) ℕ).step state (.commit 0) = some next ∧
          (next.store.user 1).role = .viewer ∧
          state.actor (.commit 0) = some .admin :=
    ⟨_, rfl, _, rfl, by decide +kernel, rfl⟩
  refine ⟨state, next, hrun, hstep, hviewer, ?_⟩
  exact owners_out_of_reach (.atRest ownerAndMember) state next
    [setRole adminClaims 0 1 .viewer, .execute 0] (.commit 0)
    (UserState.atRest_quiet _) (fun _ _ hnone => nomatch hnone)
    (by decide +kernel) hrun hstep (by rw [hactor]; decide) 0

/-- User 1 is promoted between the start of an admin's DELETE, which has
found a member, and its commit, which disables an owner. -/
theorem admin_disables_owner :
    ∃ state next : UserState (Fin 2) ℕ,
      (userMachine (Fin 2) ℕ).run (.atRest ownerAndMember)
        [.start 0 (.removeUser adminClaims 1),
          setRole ownerClaims 1 1 .owner, .execute 1, .commit 1,
          .execute 0, .execute 0, .execute 0, .execute 0] = some state ∧
      (userMachine (Fin 2) ℕ).step state (.commit 0) = some next ∧
      state.actor (.commit 0) = some .admin ∧
      state.store.IsOwner 1 ∧
      state.store.user 1 = ⟨.owner, .active⟩ ∧
      next.store.user 1 = ⟨.owner, .disabled⟩ :=
  ⟨_, _, rfl, rfl, rfl, by decide +kernel, by decide +kernel,
    by decide +kernel⟩

end NotifyHub
