import NotifyHub.ConflictingRows
import NotifyHub.UserManagement

/-!
# Concurrent replacements of associations

A PATCH of a user with `group_ids` replaces his memberships, and a PUT of the
presets of a receiver replaces its list.  The other checks of the two requests
only end them early, which is an abort.

The positions start at zero in every list of presets, so any two lists that are
not empty meet in the unique constraint on them.  Two sets of groups need not
meet at all.
-/

namespace NotifyHub

open Replacement

section Groups

variable {Process Id : Type} [DecidableEq Process] [DecidableEq Id]
  [ToString Id]

/-- `_replace_user_groups`; the constraint is
`uq_user_group_memberships_user_id_group_id`. -/
def replaceUserGroups (store : UserStore Id) : Requests (List Id) Id where
  rows groupIds :=
    (store.assertGroupsExist groupIds).toOption.map fun _ => groupIds
  conflicts groupId other := groupId = other

/-- The set of groups is the one of the beginning, as long as no request has
been committed, or the one of a committed request. -/
def GroupsReplaced (initial : List Id) (state : State Process Id) : Prop :=
  (state.liveRows.toFinset = initial.toFinset ∧
    ∀ process, (state.phase process).isCommitted = false) ∨
  ∃ process groupIds, state.phase process = .committed groupIds ∧
    state.liveRows.toFinset = groupIds.toFinset

omit [DecidableEq Process] [ToString Id] in
theorem Replacement.Outcome.groupsReplaced
    {R : Requests (List Id) Id} {initial : List Id} {state : State Process Id}
    (houtcome : Outcome R initial state) : GroupsReplaced initial state := by
  rcases houtcome with ⟨hlive, hopen⟩ | ⟨process, _, rows, -, hphase, hlive⟩
  · exact .inl ⟨by rw [hlive], hopen⟩
  · exact .inr ⟨process, rows, hphase, by rw [hlive]⟩

/-- Where every request which inserts groups has read all the memberships of
the moment of its commit, the groups are those of one request. -/
theorem groups_replaced
    {store : UserStore Id} {initial : List Id} {state : State Process Id}
    (hreach : ((replaceUserGroups store).machine Process initial).ReachableWhere
      Covered state) :
    GroupsReplaced initial state :=
  (covered_outcome hreach).groupsReplaced

/-- A tenant with three groups. -/
def threeGroups : UserStore ℕ where
  tenantStatus := .active
  groups := {1, 2, 3}
  users := ∅
  user _ := ⟨.member, .active⟩
  memberships _ := ∅
  liveTokens _ := ∅
  invitations _ := none

/-- A user of the third group. -/
def atRest (initial : List ℕ) : State ℕ ℕ where
  versions := initial.map fun row => (none, row)
  deleter _ := none
  phase _ := .idle

theorem atRest_initial (initial : List ℕ) :
    ((replaceUserGroups threeGroups).machine ℕ initial).Initial
      (atRest initial) :=
  ⟨rfl, fun _ => rfl, fun _ => rfl⟩

theorem groups_replaced_twice :
    ∃ state : State ℕ ℕ, state.liveRows = [2] ∧ GroupsReplaced [3] state := by
  let actions : List (Action ℕ (List ℕ)) :=
    [.start 0 [1, 3], .delete 0 0, .flush 0, .insert 0, .insert 0, .commit 0,
      .start 1 [2], .delete 1 2, .delete 1 1, .flush 1, .insert 1, .commit 1]
  have hallowed : ((replaceUserGroups threeGroups).machine ℕ [3]).AllowedAlong
      Covered (atRest [3]) actions := by
    decide +kernel
  have hrun : ((replaceUserGroups threeGroups).machine ℕ [3]).run (atRest [3])
      actions = some _ := rfl
  exact ⟨_, by decide +kernel, groups_replaced
    (Machine.ReachableWhere.run (.initial (atRest_initial [3])) hallowed hrun)⟩

/-- Two requests read that the user has no group before either commits. -/
theorem groups_mixed :
    ∃ state : State ℕ ℕ,
      ((replaceUserGroups threeGroups).machine ℕ []).Reachable state ∧
      state.phase 0 = .committed [1] ∧ state.phase 1 = .committed [2] ∧
      state.liveRows = [1, 2] ∧ ¬GroupsReplaced [] state := by
  let actions : List (Action ℕ (List ℕ)) :=
    [.start 0 [1], .start 1 [2], .flush 0, .flush 1, .insert 0, .insert 1,
      .commit 0, .commit 1]
  have hrun : ((replaceUserGroups threeGroups).machine ℕ []).run (atRest [])
      actions = some _ := rfl
  refine ⟨_, .run (.initial (atRest_initial [])) hrun, rfl, rfl,
    by decide +kernel, ?_⟩
  rintro (⟨-, hopen⟩ | ⟨process, groupIds, hphase, hgroups⟩)
  · cases hopen 0
  · match process with
    | 0 =>
        cases hphase
        revert hgroups
        decide +kernel
    | 1 =>
        cases hphase
        revert hgroups
        decide +kernel
    | process + 2 => cases hphase

end Groups

section Presets

variable {Process Id : Type} [DecidableEq Process] [DecidableEq Id]
  [ToString Id]

def duplicatePresets : Problem :=
  validationError "preset_ids contains the same preset more than once.".toList

def presetsNotFound (missing : List Id) : Problem :=
  notFound ("Severity preset not found: " ++
    ", ".intercalate (missing.map toString) ++ ".").toList

/-- The checks of `set_receiver_presets` on its body, with the presets of the
tenant. -/
def checkPresetIds (presets : Finset Id) (presetIds : List Id) :
    Except Problem Unit := do
  raiseIf (presetIds.toFinset.card ≠ presetIds.length) duplicatePresets
  let missing := presetIds.filter fun presetId => presetId ∉ presets
  raiseIf (missing ≠ []) (presetsNotFound missing)

/-- `set_receiver_presets`; a row is a preset with its position, and the
constraints are those of `receiver_severity_presets`. -/
def setReceiverPresets (presets : Finset Id) : Requests (List Id) (Id × ℕ) where
  rows presetIds :=
    (checkPresetIds presets presetIds).toOption.map fun _ => presetIds.zipIdx
  conflicts row other := row.1 = other.1 || row.2 = other.2

theorem rows_setReceiverPresets
    {presets : Finset Id} {presetIds : List Id} {rows : List (Id × ℕ)}
    (hrows : (setReceiverPresets presets).rows presetIds = some rows) :
    checkPresetIds presets presetIds = .ok () ∧ rows = presetIds.zipIdx := by
  simp only [setReceiverPresets] at hrows
  cases hcheck : checkPresetIds presets presetIds with
  | error problem =>
      rw [hcheck] at hrows
      cases hrows
  | ok done =>
      rw [hcheck] at hrows
      exact ⟨rfl, (Option.some.inj hrows).symm⟩

omit [DecidableEq Id] [ToString Id] in
theorem zipIdx_first {presetIds : List Id} (hne : presetIds.zipIdx ≠ []) :
    ∃ presetId, (presetId, 0) ∈ presetIds.zipIdx := by
  cases presetIds with
  | nil => exact absurd rfl hne
  | cons presetId rest => exact ⟨presetId, List.mem_cons_self⟩

/-- Two lists which are not empty both have a first position. -/
theorem setReceiverPresets_meeting (presets : Finset Id) :
    (setReceiverPresets presets).Meeting where
  symm row other hconflicts := by
    simp only [setReceiverPresets, Bool.or_eq_true, decide_eq_true_eq] at *
    exact hconflicts.imp Eq.symm Eq.symm
  meet request other rows others hrows hothers hne hother := by
    rw [(rows_setReceiverPresets hrows).2] at hne ⊢
    rw [(rows_setReceiverPresets hothers).2] at hother ⊢
    obtain ⟨first, hfirst⟩ := zipIdx_first hne
    obtain ⟨second, hsecond⟩ := zipIdx_first hother
    refine ⟨_, hfirst, _, hsecond, ?_⟩
    simp [setReceiverPresets]

/-- The list is the one of the beginning, or the one of a request, in its
order. -/
theorem presets_replaced
    {presets : Finset Id} {initial : List (Id × ℕ)}
    {state : State Process (Id × ℕ)}
    (hreach : ((setReceiverPresets presets).machine Process initial).Reachable
      state) :
    (state.liveRows = initial ∧
      ∀ process, (state.phase process).isCommitted = false) ∨
    ∃ process presetIds, checkPresetIds presets presetIds = .ok () ∧
      state.phase process = .committed presetIds.zipIdx ∧
      state.liveRows = presetIds.zipIdx := by
  rcases meeting_outcome (setReceiverPresets_meeting presets) hreach with
    hstart | ⟨process, presetIds, rows, hrows, hphase, hlive⟩
  · exact .inl hstart
  · obtain ⟨hcheck, rfl⟩ := rows_setReceiverPresets hrows
    exact .inr ⟨process, presetIds, hcheck, hphase, hlive⟩

/-- Two requests on the same list: the second one waits for the first, and what
it inserts then meets the rows it has not read. -/
theorem presets_replaced_overlapping :
    ∃ state : State ℕ (ℕ × ℕ),
      state.phase 1 = .aborted ∧ state.liveRows = [(1, 0), (2, 1)] ∧
      ((state.liveRows = [(3, 0)] ∧
        ∀ process, (state.phase process).isCommitted = false) ∨
      ∃ process presetIds, checkPresetIds {1, 2, 3} presetIds = .ok () ∧
        state.phase process = .committed presetIds.zipIdx ∧
        state.liveRows = presetIds.zipIdx) := by
  let start : State ℕ (ℕ × ℕ) :=
    ⟨[(none, (3, 0))], fun _ => none, fun _ => .idle⟩
  have hstart : ((setReceiverPresets {1, 2, 3}).machine ℕ [(3, 0)]).Initial
      start :=
    ⟨rfl, fun _ => rfl, fun _ => rfl⟩
  let actions : List (Action ℕ (List ℕ)) :=
    [.start 0 [1, 2], .start 1 [2], .delete 0 0, .flush 0, .insert 0,
      .insert 0, .commit 0, .delete 1 0, .flush 1, .insert 1]
  have hrun : ((setReceiverPresets {1, 2, 3}).machine ℕ [(3, 0)]).run start
      actions = some _ := rfl
  exact ⟨_, rfl, by decide +kernel,
    presets_replaced (.run (.initial hstart) hrun)⟩

end Presets

end NotifyHub
