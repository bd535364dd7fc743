import NotifyHub.AuditedSteps
import Mathlib.Tactic

/-!
# The order of the locks around the refresh tokens

`lock_user_token_scope` takes the tenant before the user, so that refreshes,
logouts and removals do not wait for each other in a circle.  The event of an
edit, though, shares the row of the user who acts once its target is locked:
two admins who DELETE each other at once wait for each other.  As long as no
edit which ends the sessions of a user is started by one whose sessions an open
edit ends, the users who act can be put in an order, and nobody waits in a
circle.
-/

namespace NotifyHub

open LockOrder

variable {Process : Type*} {Id : Type}

/-- The user who acts is not one whose sessions an open edit ends.  Where the
events come last, no edit which only writes its user is open beside one of the
same user which counts the owners. -/
def Edit.Apart (eventsFirst : Bool) (started opened : Edit Id) : Prop :=
  (started.EndsOther → opened.EndsOther →
      opened.target ≠ started.claims.sub) ∧
    (eventsFirst = false → started.target = opened.target →
      ¬(started.guarded = true ∧ opened.Lone) ∧
        ¬(started.Lone ∧ opened.guarded = true))

instance [DecidableEq Id] (eventsFirst : Bool) (started opened : Edit Id) :
    Decidable (started.Apart eventsFirst opened) :=
  inferInstanceAs (Decidable (_ ∧ _))

/-- An edit is started apart from all which are open. -/
def Sequenced [DecidableEq Id] [ToString Id]
    (eventsFirst : Bool) (state : AuditedState Process Id)
    (action : AuditedAction Process Id) : Prop :=
  ∀ request ∈ action.started,
    ∀ phase ∈ (state.sessions.users.store.start request).toOption,
      ∀ edit ∈ phase.edit, ∀ process, ∀ opened ∈ state.edit process,
        edit.Apart eventsFirst opened

instance [Fintype Process] [DecidableEq Id] [ToString Id]
    (eventsFirst : Bool) (state : AuditedState Process Id)
    (action : AuditedAction Process Id) :
    Decidable (Sequenced eventsFirst state action) :=
  inferInstanceAs (Decidable (∀ request ∈ action.started, _))

/-! ## No deadlock -/

/-- Levels for a new edit: the user who acts stands above all others, and its
target is locked under the tenant or not. -/
def LockLevels.extend [DecidableEq Id]
    (levels : LockLevels Id) (eventsFirst : Bool) (bound : ℕ)
    (edit : Edit Id) : LockLevels Id where
  share :=
    if edit.EndsOther then
      Function.update levels.share edit.claims.sub (bound + 1)
    else levels.share
  guarded :=
    if eventsFirst then levels.guarded
    else if edit.guarded then
      Function.update levels.guarded edit.target true
    else if edit.Lone then
      Function.update levels.guarded edit.target false
    else levels.guarded

section Extend

variable [DecidableEq Id] {levels : LockLevels Id} {eventsFirst : Bool}
  {bound : ℕ} {edit : Edit Id}

theorem LockLevels.extend_bounded (hbound : ∀ id, levels.share id ≤ bound)
    (id : Id) : (levels.extend eventsFirst bound edit).share id ≤ bound + 1 := by
  have hid := hbound id
  simp only [extend]
  split
  · by_cases hactor : id = edit.claims.sub
    · subst hactor
      simp
    · rw [Function.update_of_ne hactor]
      omega
  · omega

theorem LockLevels.extend_fits
    (hbound : ∀ id, levels.share id ≤ bound)
    (hfirst : eventsFirst = true → ∀ id, levels.guarded id = true) :
    (levels.extend eventsFirst bound edit).Fits eventsFirst edit := by
  constructor
  · intro hends
    have htarget := hbound edit.target
    simp only [extend, if_pos hends, Function.update_self,
      Function.update_of_ne hends.2]
    omega
  · intro hevents id
    simp [extend, hevents, hfirst hevents id]
  · intro hguarded
    cases heq : eventsFirst with
    | true => simp [extend, hfirst heq]
    | false => simp [extend, hguarded]
  · rintro rfl hlone
    simp [extend, hlone.1, hlone]

/-- The open edits still fit. -/
theorem LockLevels.Fits.extend {opened : Edit Id}
    (hfits : levels.Fits eventsFirst opened)
    (hbound : ∀ id, levels.share id ≤ bound)
    (hapart : edit.Apart eventsFirst opened) :
    (levels.extend eventsFirst bound edit).Fits eventsFirst opened := by
  constructor
  · intro hopened
    have hbefore := hfits.acts hopened
    simp only [LockLevels.extend]
    split
    next hends =>
      have hne := hapart.1 hends hopened
      rw [Function.update_of_ne hne]
      by_cases hactor : opened.claims.sub = edit.claims.sub
      · have htarget := hbound opened.target
        rw [hactor, Function.update_self]
        omega
      · rw [Function.update_of_ne hactor]
        exact hbefore
    · exact hbefore
  · intro hevents id
    simp [LockLevels.extend, hevents, hfits.first hevents id]
  · intro hguarded
    have hbefore := hfits.guarded hguarded
    simp only [LockLevels.extend]
    split
    · exact hbefore
    next hlast =>
      have hkept := fun hsame : edit.target = opened.target =>
        (hapart.2 (by simpa using hlast) hsame).2
      by_cases hsame : opened.target = edit.target
      · have hlone : ¬edit.Lone := fun hlone =>
          hkept hsame.symm ⟨hlone, hguarded⟩
        rw [if_neg hlone]
        split
        · simp [hsame]
        · exact hbefore
      · split
        · rwa [Function.update_of_ne hsame]
        · split
          · rwa [Function.update_of_ne hsame]
          · exact hbefore
  · intro hevents hlone
    have hbefore := hfits.lone hevents hlone
    simp only [LockLevels.extend, hevents, Bool.false_eq_true, if_false]
    by_cases hsame : opened.target = edit.target
    · have hguarded : ¬edit.guarded = true := fun hguarded =>
        (hapart.2 hevents hsame.symm).1 ⟨hguarded, hlone⟩
      rw [if_neg hguarded]
      split
      · simp [hsame]
      · exact hbefore
    · split
      · rwa [Function.update_of_ne hsame]
      · split
        · rwa [Function.update_of_ne hsame]
        · exact hbefore

end Extend

namespace AuditedState

/-- Every process takes its locks upwards in each order which suits its edit,
and one order suits all open edits. -/
structure Climbs (eventsFirst : Bool) (state : AuditedState Process Id) :
    Prop where
  aligned : ∀ process, state.Aligned eventsFirst process
  ordered : ∀ process, ∀ levels : LockLevels Id,
    (∀ edit ∈ state.edit process, levels.Fits eventsFirst edit) →
      Ordered levels.level state.locking process
  levels : ∃ (levels : LockLevels Id) (bound : ℕ),
    (∀ id, levels.share id ≤ bound) ∧
      (eventsFirst = true → ∀ id, levels.guarded id = true) ∧
      ∀ process, ∀ edit ∈ state.edit process, levels.Fits eventsFirst edit

variable [DecidableEq Process] [DecidableEq Id] [ToString Id]
  {eventsFirst : Bool} {ttlDays : ℤ} {state after : AuditedState Process Id}
  {action : AuditedAction Process Id}

theorem edit_of_ne {process : Process}
    (hstep : state.step eventsFirst ttlDays action = some after)
    (hne : process ≠ action.process) :
    after.edit process = state.edit process := by
  rw [edit, (phase_of_ne hstep hne).1]
  rfl

theorem Climbs.step_levels
    (hclimbs : state.Climbs eventsFirst)
    (hallowed : Sequenced eventsFirst state action)
    (hstep : state.step eventsFirst ttlDays action = some after) :
    ∃ (levels : LockLevels Id) (bound : ℕ),
      (∀ id, levels.share id ≤ bound) ∧
        (eventsFirst = true → ∀ id, levels.guarded id = true) ∧
        ∀ process, ∀ edit ∈ after.edit process,
          levels.Fits eventsFirst edit := by
  obtain ⟨levels, bound, hbound, hfirst, hfits⟩ := hclimbs.levels
  rcases edit_step hstep action.process with
    hsame | ⟨-, hnone⟩ | ⟨-, request, hrequest, phase, hphase, hstarted⟩
  · refine ⟨levels, bound, hbound, hfirst, fun process edit hedit => ?_⟩
    by_cases hself : process = action.process
    · subst hself
      exact hfits _ edit (hsame ▸ hedit)
    · exact hfits process edit (edit_of_ne hstep hself ▸ hedit)
  · refine ⟨levels, bound, hbound, hfirst, fun process edit hedit => ?_⟩
    by_cases hself : process = action.process
    · subst hself
      rw [hnone] at hedit
      contradiction
    · exact hfits process edit (edit_of_ne hstep hself ▸ hedit)
  · cases hnew : phase.edit with
    | none =>
        refine ⟨levels, bound, hbound, hfirst, fun process edit hedit => ?_⟩
        by_cases hself : process = action.process
        · subst hself
          rw [hstarted, hnew] at hedit
          contradiction
        · exact hfits process edit (edit_of_ne hstep hself ▸ hedit)
    | some edit =>
        have hextended : (levels.extend eventsFirst bound edit).Fits eventsFirst
            edit := LockLevels.extend_fits hbound hfirst
        refine ⟨levels.extend eventsFirst bound edit, bound + 1,
          LockLevels.extend_bounded hbound, hextended.first,
          fun process opened hopened => ?_⟩
        by_cases hself : process = action.process
        · subst hself
          rw [hstarted, hnew, Option.mem_some_iff] at hopened
          exact hopened ▸ hextended
        · rw [edit_of_ne hstep hself] at hopened
          exact (hfits process opened hopened).extend hbound
            (hallowed request hrequest phase hphase edit hnew process opened
              hopened)

theorem Climbs.step
    (hclimbs : state.Climbs eventsFirst)
    (hallowed : Sequenced eventsFirst state action)
    (hstep : state.step eventsFirst ttlDays action = some after) :
    after.Climbs eventsFirst := by
  have hlevels := hclimbs.step_levels hallowed hstep
  refine ⟨aligned_step hclimbs.aligned hstep, fun process levels hfits => ?_,
    hlevels⟩
  by_cases hself : process = action.process
  · subst hself
    have hmove := move_step (hclimbs.aligned _) hfits hstep
    rcases edit_step hstep action.process with
      hsame | ⟨hnothing, hnone⟩ | ⟨hidle, -⟩
    · exact hmove.ordered_self
        (hclimbs.ordered _ levels fun edit hedit => hfits edit (hsame ▸ hedit))
    · -- what a process has after its end does not depend on the order
      obtain ⟨before, -, -, -, hbefore⟩ := hclimbs.levels
      have hnever : ∀ edit ∈ after.edit action.process,
          before.Fits eventsFirst edit := by
        simp [hnone]
      have hended := (move_step (hclimbs.aligned _) hnever hstep).ordered_self
        (hclimbs.ordered _ before (hbefore _))
      have hwanted : after.locking.wanted action.process = none := hnothing
      rw [Ordered, hwanted] at hended ⊢
      exact hended
    · exact hmove.ordered_self
        (hclimbs.ordered _ levels fun edit hedit => by simp [hidle] at hedit)
  · obtain ⟨common, -, -, -, hcommon⟩ := hlevels
    have hmove := move_step (hclimbs.aligned _) (hcommon _) hstep
    rw [edit_of_ne hstep hself] at hfits
    exact (hclimbs.ordered process levels hfits).congr
      (hmove.holds_of_ne hself) (hmove.wanted_of_ne hself)

end AuditedState

/-! ## Runs -/

def beforeRequests (Process : Type*) (store : UserStore ℕ) :
    AuditedState Process ℕ where
  sessions :=
    { users := .atRest store
      tokens := ∅
      token := fun _ => ⟨0, 0, 0, 0⟩
      session := fun _ => .idle }
  tasks _ := []

theorem beforeRequests_fresh (Process : Type*) (store : UserStore ℕ)
    (hnone : ∀ userId, store.liveTokens userId = ∅) :
    (beforeRequests Process store).Fresh :=
  ⟨⟨UserState.atRest_quiet _, fun _ => rfl, rfl, hnone⟩, fun _ => rfl⟩

/-- User 0 is the owner, users 1 and 2 are admins. -/
def ownerAndAdmins : UserStore ℕ where
  tenantStatus := .active
  groups := ∅
  users := {0, 1, 2}
  user id := if id = 0 then ⟨.owner, .active⟩ else ⟨.admin, .active⟩
  memberships _ := ∅
  liveTokens _ := ∅
  invitations _ := none

/-- A DELETE up to the second foreign key of its event. -/
def removal (process actor target : ℕ) : List (AuditedAction ℕ ℕ) :=
  [.request (.users (.start process (.removeUser ⟨actor, .admin⟩ target))),
    .request (.users (.execute process)),
    .request (.users (.execute process)), .insertEvent process]

/-- Two admins DELETE each other: each event waits for the row which the other
request has locked. -/
theorem AuditedState.deadlock_removal :
    ∃ state : AuditedState ℕ ℕ,
      (auditedMachine true 30 ℕ ℕ).Reachable state ∧
      WaitsFor state.locking 0 1 ∧ WaitsFor state.locking 1 0 := by
  have hfresh := beforeRequests_fresh ℕ ownerAndAdmins fun _ => rfl
  obtain ⟨state, hrun, hfirst, hsecond⟩ :
      ∃ state : AuditedState ℕ ℕ,
        (auditedMachine true 30 ℕ ℕ).run (beforeRequests ℕ ownerAndAdmins)
          (removal 0 1 2 ++ removal 1 2 1) = some state ∧
        WaitsFor state.locking 0 1 ∧ WaitsFor state.locking 1 0 :=
    ⟨_, rfl, ⟨.user 1, .keyShare, _, .forUpdate, rfl, by decide, rfl,
      by decide⟩, .user 2, .keyShare, _, .forUpdate, rfl,
      by decide, rfl, by decide⟩
  have hreach := (Machine.ReachableWhere.initial hfresh).run
    (Machine.allowedAlong_of_forall _ (fun _ _ _ => trivial) _) hrun
  exact ⟨state, hreach, hfirst, hsecond⟩

/-- A PATCH of user 1 is read while user 1 is a member.  Another PATCH makes
user 1 an owner; the first one writes the user, and a third, which makes
user 1 a member again, takes the tenant. -/
def promotedInBetween : List (AuditedAction ℕ ℕ) :=
  [.request (.users (setRole ownerClaims 0 1 .admin)),
    .request (.users (setRole ownerClaims 2 1 .owner)),
    .request (.users (.execute 2)), .insertEvent 2, .insertEvent 2,
    .request (.users (.commit 2)), .request (.users (.execute 0)),
    .request (.users (setRole ownerClaims 1 1 .member)),
    .request (.users (.lockTenant 1)), .request (.users (.countOwners 1))]

/-- Where the events come last, the event of the first PATCH waits for the
tenant, and the one which holds it waits for the user. -/
theorem AuditedState.deadlock_promotedInBetween :
    ∃ state : AuditedState ℕ ℕ,
      (auditedMachine false 30 ℕ ℕ).Reachable state ∧
      WaitsFor state.locking 0 1 ∧ WaitsFor state.locking 1 0 := by
  have hfresh := beforeRequests_fresh ℕ ownerAndMember fun _ => rfl
  obtain ⟨state, hrun, hevent, hguarded⟩ :
      ∃ state : AuditedState ℕ ℕ,
        (auditedMachine false 30 ℕ ℕ).run (beforeRequests ℕ ownerAndMember)
          promotedInBetween = some state ∧
        WaitsFor state.locking 0 1 ∧ WaitsFor state.locking 1 0 :=
    ⟨_, rfl, ⟨.tenant, .keyShare, _, .forUpdate, rfl, by decide, rfl,
      by decide⟩, .user 1, .noKeyUpdate, _, .noKeyUpdate, rfl,
      by decide, rfl, by decide⟩
  have hreach := (Machine.ReachableWhere.initial hfresh).run
    (Machine.allowedAlong_of_forall _ (fun _ _ _ => trivial) _) hrun
  exact ⟨state, hreach, hevent, hguarded⟩

end NotifyHub
