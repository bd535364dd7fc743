import NotifyHub.UserRequests
import Mathlib.Tactic

/-!
# The last owner

`_assert_not_last_owner` serializes the removals of owners: an edit which has
counted two active owners holds the tenant until its commit, and nobody else
removes an owner meanwhile.  Whether an edit counts at all is decided on the
row it has read without a lock, and an edit of a user who has become an owner
since then removes an owner uncounted.
-/

namespace NotifyHub

variable {Process : Type*} {Id : Type}

/-- The UPDATE takes the owner role or the activity away. -/
def Edit.removesOwner (edit : Edit Id) : Bool :=
  (edit.final.role ≠ edit.loaded.role && edit.final.role ≠ .owner) ||
    (edit.final.status ≠ edit.loaded.status && edit.final.status ≠ .active)

theorem Edit.writeBack_isActiveOwner
    {edit : Edit Id} (hkeeps : edit.removesOwner = false) {stored : User}
    (howner : stored.isActiveOwner = true) :
    (edit.loaded.writeBack edit.final stored).isActiveOwner = true := by
  simp only [User.isActiveOwner, Bool.and_eq_true,
    decide_eq_true_eq] at howner ⊢
  simp only [removesOwner, ne_eq, decide_not, Bool.or_eq_false_iff,
    Bool.and_eq_false_iff, Bool.not_eq_false', decide_eq_true_eq] at hkeeps
  refine ⟨?_, ?_⟩
  · by_cases hrole : edit.final.role = edit.loaded.role
    · rw [User.writeBack, writeBack_of_eq hrole]
      exact howner.1
    · rw [User.writeBack, writeBack_of_ne hrole]
      exact hkeeps.1.resolve_left hrole
  · by_cases hstatus : edit.final.status = edit.loaded.status
    · rw [User.writeBack, writeBack_of_eq hstatus]
      exact howner.2
    · rw [User.writeBack, writeBack_of_ne hstatus]
      exact hkeeps.2.resolve_left hstatus

variable [DecidableEq Id]

/-! ## Active owners after a commit -/

theorem Work.apply_activeOwners_of_ne
    {store after : UserStore Id} {work : Work Id}
    (happly : work.apply store = some after) {id : Id}
    (howner : id ∈ store.activeOwners) (htarget : work.target ≠ some id) :
    id ∈ after.activeOwners := by
  obtain ⟨hmem, hactive⟩ := UserStore.mem_activeOwners.mp howner
  have hsame := Work.apply_sameUser happly hmem htarget
  exact UserStore.mem_activeOwners.mpr
    ⟨hsame.member hmem, by rw [hsame.user]; exact hactive⟩

/-- A commit whose edit, if it is one, does not remove its target from the
active owners removes nobody. -/
theorem Work.apply_activeOwners_subset
    {store after : UserStore Id} {work : Work Id}
    (happly : work.apply store = some after)
    (hkeeps : ∀ change progress, work = .edit change progress →
      change.removesOwner = true → change.target ∉ store.activeOwners) :
    store.activeOwners ⊆ after.activeOwners := by
  intro id howner
  by_cases htarget : work.target = some id
  · cases work with
    | edit change progress =>
        obtain rfl : change.target = id := Option.some.inj htarget
        have hremoves : change.removesOwner = false := by
          rw [← Bool.not_eq_true]
          exact fun hremoves => hkeeps change progress rfl hremoves howner
        obtain ⟨husers, huser, -⟩ := UserStore.commitEdit_eq_some happly
        obtain ⟨hmem, hactive⟩ := UserStore.mem_activeOwners.mp howner
        refine UserStore.mem_activeOwners.mpr ⟨husers ▸ hmem, ?_⟩
        rw [huser]
        exact Edit.writeBack_isActiveOwner hremoves hactive
    | _ => contradiction
  · exact Work.apply_activeOwners_of_ne happly howner htarget

/-- A commit leaves at least one of two active owners. -/
theorem Work.apply_activeOwners_nonempty
    {store after : UserStore Id} {work : Work Id}
    (happly : work.apply store = some after)
    (htwo : 1 < store.activeOwners.card) : after.activeOwners.Nonempty := by
  cases htarget : work.target with
  | none =>
      obtain ⟨id, howner⟩ := Finset.card_pos.mp (Nat.zero_lt_of_lt htwo)
      exact ⟨id, Work.apply_activeOwners_of_ne happly howner
        (by rw [htarget]; exact Option.some_ne_none id |>.symm)⟩
  | some target =>
      obtain ⟨id, howner, hne⟩ := Finset.exists_mem_ne htwo target
      refine ⟨id, Work.apply_activeOwners_of_ne happly howner ?_⟩
      rw [htarget, ne_eq, Option.some_inj]
      exact fun heq => hne heq.symm

/-- A commit takes at most one user from the active owners. -/
theorem Work.card_activeOwners_le
    {store after : UserStore Id} {work : Work Id}
    (happly : work.apply store = some after) :
    store.activeOwners.card ≤ after.activeOwners.card + 1 := by
  cases htarget : work.target with
  | none =>
      have hsubset : store.activeOwners ⊆ after.activeOwners := fun id howner =>
        Work.apply_activeOwners_of_ne happly howner (by simp [htarget])
      exact (Finset.card_le_card hsubset).trans (Nat.le_succ _)
  | some target =>
      have hsubset : store.activeOwners.erase target ⊆ after.activeOwners := by
        intro id hmem
        obtain ⟨hne, howner⟩ := Finset.mem_erase.mp hmem
        apply Work.apply_activeOwners_of_ne happly howner
        rw [htarget, ne_eq, Option.some_inj]
        exact fun heq => hne heq.symm
      have hcard := Finset.card_le_card hsubset
      have herase := Finset.pred_card_le_card_erase (s := store.activeOwners)
        (a := target)
      omega

/-! ## The invariant -/

/-- An edit which counts, or has counted, holds the tenant for update. -/
def UserPhase.Counted
    (store : UserStore Id) (tenantLock : RowLock Process)
    (process : Process) : UserPhase Id → Prop
  | .counting _ => tenantLock.Holds process .forUpdate
  | .writing (.edit change _) _ =>
      change.guarded = true →
        tenantLock.Holds process .forUpdate ∧ 1 < store.activeOwners.card
  | _ => True

omit [DecidableEq Id] in
theorem UserPhase.Counted.mono
    {store after : UserStore Id} {lock later : RowLock Process}
    {process : Process} {phase : UserPhase Id}
    (hcounted : phase.Counted store lock process)
    (hlock : lock.Holds process .forUpdate → later.Holds process .forUpdate)
    (htwo : lock.Holds process .forUpdate → 1 < store.activeOwners.card →
      1 < after.activeOwners.card) :
    phase.Counted after later process := by
  match phase, hcounted with
  | .counting _, hholds => exact hlock hholds
  | .writing (.edit change _) _, hcounted =>
      intro hguarded
      obtain ⟨hholds, howners⟩ := hcounted hguarded
      exact ⟨hlock hholds, htwo hholds howners⟩
  | .writing (.create ..) _, _ => trivial
  | .writing (.invite ..) _, _ => trivial
  | .writing (.accept ..) _, _ => trivial
  | .idle, _ => trivial
  | .guarding _, _ => trivial
  | .accepting .., _ => trivial
  | .ended _, _ => trivial

omit [DecidableEq Id] in
theorem Work.Continues.counted
    {store : UserStore Id} {lock : RowLock Process} {process : Process}
    {work later : Work Id} {before after : List (Statement Id)}
    (hwork : work.Continues later)
    (hcounted : (UserPhase.writing work before).Counted store lock process) :
    (UserPhase.writing later after).Counted store lock process := by
  rcases hwork with rfl | ⟨change, first, second, rfl, rfl⟩
  · cases later with
    | edit change progress => exact hcounted
    | _ => trivial
  · exact hcounted

/-- Some user is an active owner, and those who may remove one count. -/
structure UserState.Owned (state : UserState Process Id) : Prop where
  owner : state.store.activeOwners.Nonempty
  counted : ∀ process,
    (state.phase process).Counted state.store state.tenantLock process

variable [DecidableEq Process]

omit [DecidableEq Id] in
/-- One process goes on, and nobody else loses the tenant. -/
theorem UserState.Owned.move
    {state next : UserState Process Id} (howned : state.Owned)
    {process : Process} {phase : UserPhase Id}
    (hstore : next.store = state.store)
    (hmoved : next.phase = Function.update state.phase process phase)
    (hlocks : ∀ other, other ≠ process →
      state.tenantLock.Holds other .forUpdate →
        next.tenantLock.Holds other .forUpdate)
    (hphase : phase.Counted state.store next.tenantLock process) :
    next.Owned := by
  refine ⟨hstore ▸ howned.owner, fun other => ?_⟩
  rw [hstore, hmoved]
  by_cases heq : other = process
  · subst heq
    rw [Function.update_self]
    exact hphase
  · rw [Function.update_of_ne heq]
    exact (howned.counted other).mono (hlocks other heq) fun _ htwo => htwo

/-- Some edit which counts the owners is open. -/
def UserState.tenantHeld (state : UserState Process Id) : Bool :=
  state.tenantLock.held.any fun entry => entry.2 = .forUpdate

/-- At its commit the edit removes an active owner without having counted
(when it was started, its target was not one): the last one, or one of two
while another edit counts. -/
def UserState.uncountedRemoval (state : UserState Process Id) :
    UserAction Process Id → Bool
  | .commit process =>
      match state.phase process with
      | .writing (.edit change _) [] =>
          !change.guarded && change.removesOwner &&
            decide (change.target ∈ state.store.activeOwners) &&
            decide (state.store.activeOwners.card ≤
              if state.tenantHeld then 2 else 1)
      | _ => false
  | _ => false

omit [DecidableEq Process] [DecidableEq Id] in
theorem UserState.tenantHeld_of_holds
    {state : UserState Process Id} {process : Process}
    (hholds : state.tenantLock.Holds process .forUpdate) :
    state.tenantHeld = true :=
  List.any_eq_true.mpr ⟨_, hholds, by simp⟩

omit [DecidableEq Process] in
/-- The commit of an edit which has not counted leaves an owner, and two where
another edit has counted two. -/
theorem UserState.Owned.left
    {state : UserState Process Id} (howned : state.Owned)
    {process : Process} {work : Work Id} {store : UserStore Id}
    (hphase : state.phase process = .writing work [])
    (happly : work.apply state.store = some store)
    (hallowed : state.uncountedRemoval (.commit process) = false)
    (huncounted : ∀ change progress,
      work = .edit change progress → change.guarded = false) :
    store.activeOwners.Nonempty ∧
      (state.tenantHeld = true → 1 < state.store.activeOwners.card →
        1 < store.activeOwners.card) := by
  by_cases hremoval : ∃ change progress, work = .edit change progress ∧
      change.removesOwner = true ∧ change.target ∈ state.store.activeOwners
  · obtain ⟨change, progress, rfl, hremoves, howner⟩ := hremoval
    simp only [UserState.uncountedRemoval, hphase,
      huncounted change progress rfl, hremoves, howner, Bool.not_false,
      Bool.true_and, decide_true, decide_eq_false_iff_not, not_le] at hallowed
    have hleft := Work.card_activeOwners_le happly
    refine ⟨Finset.card_pos.mp ?_, fun hheld _ => ?_⟩
    · split at hallowed <;> omega
    · rw [if_pos hheld] at hallowed
      omega
  · -- No active owner is removed.
    have hsubset := Work.apply_activeOwners_subset happly
      fun change progress hwork hremoves howner =>
        hremoval ⟨change, progress, hwork, hremoves, howner⟩
    exact ⟨howned.owner.mono hsubset, fun _ htwo =>
      htwo.trans_le (Finset.card_le_card hsubset)⟩

theorem UserState.Owned.commit
    {state : UserState Process Id} (howned : state.Owned)
    {process : Process} {work : Work Id} {store : UserStore Id}
    (hphase : state.phase process = .writing work [])
    (happly : work.apply state.store = some store)
    (hallowed : state.uncountedRemoval (.commit process) = false) :
    ({ state with store := store }.finish process .succeeded).Owned := by
  -- What the other edits have counted stands.
  have hothers : (∀ other, other ≠ process →
      state.tenantLock.Holds other .forUpdate →
        1 < state.store.activeOwners.card → 1 < store.activeOwners.card) →
      ∀ other, ((UserState.finish { state with store := store } process
        .succeeded).phase other).Counted store
          (state.tenantLock.release process) other := by
    intro htwo other
    simp only [UserState.finish_phase]
    by_cases heq : other = process
    · subst heq
      rw [Function.update_self]
      trivial
    · rw [Function.update_of_ne heq]
      exact (howned.counted other).mono
        (fun hheld => RowLock.holds_release_iff.mpr ⟨hheld, heq⟩)
        (htwo other heq)
  have hself := howned.counted process
  rw [hphase] at hself
  by_cases hguarded : ∃ change progress,
      work = .edit change progress ∧ change.guarded = true
  · -- Only this process holds the tenant, so no other edit has counted.
    obtain ⟨change, progress, rfl, hguarded⟩ := hguarded
    obtain ⟨hholds, htwo⟩ := hself hguarded
    refine ⟨Work.apply_activeOwners_nonempty happly htwo, hothers ?_⟩
    intro other heq hheld
    exact absurd (RowLock.holds_forUpdate_unique hheld hholds) heq
  · have hleft := howned.left hphase happly hallowed
      fun change progress hwork => by
        rw [← Bool.not_eq_true]
        exact fun hcounts => hguarded ⟨change, progress, hwork, hcounts⟩
    refine ⟨hleft.1, hothers ?_⟩
    intro other heq hheld
    exact hleft.2 (UserState.tenantHeld_of_holds hheld)

omit [DecidableEq Process] [DecidableEq Id] in
theorem Edit.phase_counted
    (store : UserStore Id) (tenantLock : RowLock Process)
    (process : Process) (edit : Edit Id) :
    edit.phase.Counted store tenantLock process := by
  unfold Edit.phase
  split
  next => trivial
  next hunguarded => exact fun hguarded => absurd hguarded hunguarded

variable [ToString Id]

theorem UserState.Owned.quiet
    {state next : UserState Process Id} (howned : state.Owned)
    {process : Process} (heffect : QuietEffect state process next) :
    next.Owned := by
  cases heffect with
  | opens _ hstart =>
      refine howned.move rfl rfl (fun _ _ hheld => hheld) ?_
      rcases UserStore.start_cases hstart with
        ⟨edit, -, rfl⟩ | ⟨work, rest, rfl, htarget, -⟩ | ⟨_, _, rfl⟩
      · exact edit.phase_counted _ _ _
      · cases work with
        | edit change progress => contradiction
        | _ => trivial
      · trivial
  | locksTenant _ hlock =>
      refine howned.move rfl rfl (fun _ _ hheld => ?_) ?_
      · exact (RowLock.holds_acquire_iff hlock).mpr (.inr hheld)
      · exact (RowLock.holds_acquire_iff hlock).mpr (.inl ⟨rfl, rfl⟩)
  | counts hphase howners =>
      refine howned.move rfl rfl (fun _ _ hheld => hheld) fun _ => ?_
      have hholds := howned.counted process
      rw [hphase] at hholds
      exact ⟨hholds, howners⟩
  | accepts _ _ =>
      exact howned.move rfl rfl (fun _ _ hheld => hheld) trivial
  | executes hphase hwork hstore hmoved hlocks =>
      refine howned.move hstore hmoved (fun _ _ hheld => hlocks _ _ hheld) ?_
      have hcounted := howned.counted process
      rw [hphase] at hcounted
      exact (hwork.counted hcounted).mono (hlocks _ _) fun _ htwo => htwo
  | ends outcome =>
      refine howned.move rfl rfl (fun _ hne hheld => ?_) trivial
      exact RowLock.holds_release_iff.mpr ⟨hheld, hne⟩

theorem UserState.Owned.step
    {state next : UserState Process Id} (howned : state.Owned)
    {action : UserAction Process Id}
    (hallowed : state.uncountedRemoval action = false)
    (hstep : state.step action = some next) : next.Owned := by
  rcases UserState.step_effect hstep with
    ⟨process, work, store, rfl, hphase, happly, rfl⟩ | heffect
  · exact howned.commit hphase happly hallowed
  · exact howned.quiet heffect

/-! ## Runs -/

/-- While no edit removes the last owner, or one of two beside an edit which
counts, without having counted itself, a tenant keeps an active owner. -/
theorem active_owner_remains
    (start final : UserState Process Id)
    (actions : List (UserAction Process Id))
    (hquiet : start.Quiet)
    (howner : start.store.activeOwners.Nonempty)
    (hcounted : (userMachine Process Id).AllowedAlong
      (fun state action => state.uncountedRemoval action = false)
      start actions)
    (hrun : (userMachine Process Id).run start actions = some final) :
    final.store.activeOwners.Nonempty := by
  have hstart : start.Owned :=
    ⟨howner, fun process => by rw [hquiet.phase process]; trivial⟩
  exact (hcounted.run_preserves
    (fun _ _ _ howned hallowed hstep => howned.step hallowed hstep)
    hstart hrun).owner

/-- User 1 becomes an owner, then user 0 a member. -/
def handOver : List (UserAction (Fin 3) ℕ) :=
  [setRole ownerClaims 1 1 .owner, .execute 1, .commit 1,
    setRole ownerClaims 2 0 .member, .lockTenant 2, .countOwners 2, .execute 2,
    .commit 2]

theorem active_owner_remains_handOver :
    ∃ final : UserState (Fin 3) ℕ,
      (userMachine (Fin 3) ℕ).run (.atRest ownerAndMember) handOver =
        some final ∧
      (final.store.user 0).role = .member ∧
      final.store.activeOwners.Nonempty := by
  obtain ⟨final, hrun, hrole⟩ : ∃ final : UserState (Fin 3) ℕ,
      (userMachine (Fin 3) ℕ).run (.atRest ownerAndMember) handOver =
        some final ∧ (final.store.user 0).role = .member :=
    ⟨_, rfl, by decide +kernel⟩
  refine ⟨final, hrun, hrole, ?_⟩
  exact active_owner_remains (.atRest ownerAndMember) final handOver
    (UserState.atRest_quiet _) ⟨0, by decide⟩ (by decide +kernel) hrun

/-- A demotion of user 1 which was started while user 1 was a member is
committed after user 1 has become the only owner. -/
theorem last_owner_demoted :
    ∃ final : UserState (Fin 3) ℕ,
      (userMachine (Fin 3) ℕ).run (.atRest ownerAndMember)
        (setRole ownerClaims 0 1 .viewer :: handOver ++ [.execute 0, .commit 0]) =
          some final ∧
      ownerAndMember.activeOwners = {0} ∧
      final.phase 0 = .ended .succeeded ∧
      final.store.activeOwners = ∅ :=
  ⟨_, rfl, by decide, rfl, by decide +kernel⟩

end NotifyHub
