import NotifyHub.ObjectLifecycle
import Mathlib.Tactic

/-!
# Drain runs

A drain run moves its cursor forward with every row it tries, whether the
delete succeeds or not, so it never comes back to a row; and it ends after
`PURGE_BATCH_SIZE` rows at most.  A pending row goes only with the commit
after a delete of its object which has returned.
-/

namespace NotifyHub

variable {Process : Type*} {Id : Type}

/-! ## The keyset order -/

theorem keysetLess_irrefl [Preorder Id] (position : Instant × Id) :
    ¬KeysetLess position position := by
  simp [KeysetLess]

theorem KeysetLess.trans [Preorder Id] {first second third : Instant × Id}
    (hfirst : KeysetLess first second) (hsecond : KeysetLess second third) :
    KeysetLess first third := by
  rcases hfirst with hless | ⟨heq, hless⟩
  · rcases hsecond with hlater | ⟨hsame, -⟩
    · exact .inl (hless.trans hlater)
    · exact .inl (hsame ▸ hless)
  · rcases hsecond with hlater | ⟨hsame, hlater⟩
    · exact .inl (heq ▸ hlater)
    · exact .inr ⟨heq.trans hsame, hless.trans hlater⟩

/-! ## What a step does to a drain -/

def ObjectPhase.drains : ObjectPhase Id → Bool
  | .draining _ _ | .deleting _ _ | .recording _ _ _ => true
  | _ => false

/-- The phases in which an ingestion or a purge has a next step. -/
def ObjectPhase.works : ObjectPhase Id → Bool
  | .idle | .uploading _ | .uploaded _ _ | .readingTenants _
  | .readingKeys _ _ _ | .purging _ _ _ => true
  | _ => false

variable [DecidableEq Process] [LinearOrder Id]

/-- The turns which a process takes, those of a drain in full. -/
inductive ObjectState.Turn
    (state : ObjectState Process Id) (process : Process) :
    ObjectAction Process Id → ObjectPhase Id → Prop
  | drains (hphase : state.phase process = .idle) :
      Turn state process (.drain process) (.draining none purgeBatchSize)
  | selects {cursor : Option (Instant × Id)} {left : ℕ}
      {row : PendingDeletion Id}
      (hphase : state.phase process = .draining cursor (left + 1))
      (hnext : state.nextPending cursor = some row) :
      Turn state process (.select process) (.deleting row left)
  | stops {cursor : Option (Instant × Id)} {left : ℕ}
      (hphase : state.phase process = .draining cursor left) :
      Turn state process (.select process) .ended
  | deletes {row : PendingDeletion Id} {left : ℕ} {call : StoreCall}
      (hphase : state.phase process = .deleting row left) :
      Turn state process (.deleteObject process row call)
        (.recording row left (call = .returned))
  | records {row : PendingDeletion Id} {left : ℕ} {deleted : Bool}
      (hphase : state.phase process = .recording row left deleted) :
      Turn state process (.record process)
        (.draining (some row.position) left)
  | crashes (hphase : (state.phase process).isOpen = true) :
      Turn state process (.crash process) .ended
  | works {action : ObjectAction Process Id} {phase : ObjectPhase Id}
      (hprocess : action.process = some process)
      (haction : action ≠ .drain process)
      (htries : ∀ row call, action ≠ .deleteObject process row call)
      (hbefore : (state.phase process).works = true)
      (hafter : phase.drains = false) (hidle : phase ≠ .idle) :
      Turn state process action phase

namespace ObjectState

variable {state next : ObjectState Process Id}

omit [DecidableEq Process] in
theorem Turn.process_eq
    {process : Process} {action : ObjectAction Process Id}
    {phase : ObjectPhase Id} (hturn : state.Turn process action phase) :
    action.process = some process := by
  cases hturn with
  | works hprocess _ _ _ _ _ => exact hprocess
  | _ => rfl

/-- Whatever a step does, it moves at most its own process. -/
def Moves
    (state next : ObjectState Process Id)
    (action : ObjectAction Process Id) : Prop :=
  (action.process = none ∧ next.phase = state.phase) ∨
    ∃ process phase, state.Turn process action phase ∧
      next.phase = Function.update state.phase process phase

omit [LinearOrder Id] [DecidableEq Process] in
theorem afterKeys_drains
    (cutoff : Instant) (tenants : List Id) (known : Finset (ObjectKey Id)) :
    (ObjectPhase.afterKeys cutoff tenants known).drains = false ∧
      ObjectPhase.afterKeys cutoff tenants known ≠ .idle := by
  cases tenants with
  | nil => exact ⟨rfl, nofun⟩
  | cons tenant rest => exact ⟨rfl, nofun⟩

/-- The pending rows stay as they are, but for the deletion of notifications
and the commit of a drain. -/
def KeepsPending
    (state next : ObjectState Process Id)
    (action : ObjectAction Process Id) : Prop :=
  (next.pending = state.pending ∧ state.drawn ⊆ next.drawn) ∨
    (∃ removed rowId enqueuedAt,
      action = .delete removed rowId enqueuedAt ∧
        state.delete removed rowId enqueuedAt = some next) ∨
    ∃ process row left deleted, action = .record process ∧
      state.phase process = .recording row left deleted ∧
        next = state.record process row left deleted

/-- A step of an ingestion or a purge. -/
theorem moves_of_work
    {process : Process} {action : ObjectAction Process Id}
    {phase : ObjectPhase Id} (hprocess : action.process = some process)
    (hphase : next.phase = Function.update state.phase process phase)
    (haction : action ≠ .drain process)
    (htries : ∀ row call, action ≠ .deleteObject process row call)
    {before : ObjectPhase Id} (hbefore : state.phase process = before)
    (hwork : before.works = true) (hafter : phase.drains = false)
    (hidle : phase ≠ .idle) : state.Moves next action :=
  .inr ⟨process, phase,
    .works hprocess haction htries (hbefore ▸ hwork) hafter hidle, hphase⟩

/-- The steps of the processes other than drains. -/
theorem step_work
    {action : ObjectAction Process Id} {process : Process}
    (hprocess : action.process = some process)
    (haction : action ≠ .drain process)
    (htries : ∀ row call, action ≠ .deleteObject process row call)
    (hselect : action ≠ .select process) (hrecord : action ≠ .record process)
    (hcrash : action ≠ .crash process)
    (hstep : state.step action = some next) :
    state.Moves next action ∧ state.KeepsPending next action := by
  cases action with
  | prepare process tenantId notificationId =>
      obtain rfl := Option.some.inj hprocess
      simp only [ObjectState.step] at hstep
      split at hstep
      next hphase =>
        split at hstep
        · obtain rfl := Option.some.inj hstep
          exact ⟨moves_of_work rfl rfl haction htries hphase rfl rfl (by rintro ⟨⟩),
            .inl ⟨rfl, Finset.subset_insert ..⟩⟩
        · contradiction
      next => contradiction
  | upload process call =>
      obtain rfl := Option.some.inj hprocess
      simp only [ObjectState.step] at hstep
      split at hstep
      next payload hphase =>
        split at hstep
        · contradiction
        · obtain rfl := Option.some.inj hstep
          exact ⟨moves_of_work rfl rfl haction htries hphase rfl rfl (by rintro ⟨⟩),
            .inl ⟨rfl, subset_rfl⟩⟩
        next key tookEffect hkey =>
          obtain rfl := Option.some.inj hstep
          cases tookEffect with
          | true =>
              exact ⟨moves_of_work rfl rfl haction htries hphase rfl rfl (by rintro ⟨⟩),
                .inl ⟨rfl, subset_rfl⟩⟩
          | false =>
              exact ⟨moves_of_work rfl rfl haction htries hphase rfl rfl (by rintro ⟨⟩),
                .inl ⟨rfl, subset_rfl⟩⟩
      next => contradiction
  | commit process =>
      obtain rfl := Option.some.inj hprocess
      simp only [ObjectState.step] at hstep
      split at hstep
      next payload lastModified hphase =>
        obtain rfl := Option.some.inj hstep
        exact ⟨moves_of_work rfl rfl haction htries hphase rfl rfl (by rintro ⟨⟩),
          .inl ⟨rfl, subset_rfl⟩⟩
      next => contradiction
  | purge process =>
      obtain rfl := Option.some.inj hprocess
      simp only [ObjectState.step] at hstep
      split at hstep
      next hphase =>
        obtain rfl := Option.some.inj hstep
        exact ⟨moves_of_work rfl rfl haction htries hphase rfl rfl (by rintro ⟨⟩),
          .inl ⟨rfl, subset_rfl⟩⟩
      next => contradiction
  | readTenants process =>
      obtain rfl := Option.some.inj hprocess
      simp only [ObjectState.step] at hstep
      split at hstep
      next cutoff hphase =>
        obtain ⟨hafter, hidle⟩ := afterKeys_drains cutoff state.tenants ∅
        obtain rfl := Option.some.inj hstep
        exact ⟨moves_of_work rfl rfl haction htries hphase rfl hafter hidle,
          .inl ⟨rfl, subset_rfl⟩⟩
      next => contradiction
  | readKeys process =>
      obtain rfl := Option.some.inj hprocess
      simp only [ObjectState.step] at hstep
      split at hstep
      next cutoff tenant rest known hphase =>
        obtain ⟨hafter, hidle⟩ :=
          afterKeys_drains cutoff rest (known ∪ state.tenantKeys tenant)
        obtain rfl := Option.some.inj hstep
        exact ⟨moves_of_work rfl rfl haction htries hphase rfl hafter hidle,
          .inl ⟨rfl, subset_rfl⟩⟩
      next => contradiction
  | listPage process page =>
      obtain rfl := Option.some.inj hprocess
      simp only [ObjectState.step] at hstep
      split at hstep
      next cutoff known hphase =>
        split at hstep
        · obtain rfl := Option.some.inj hstep
          exact ⟨moves_of_work rfl rfl haction htries hphase rfl rfl (by rintro ⟨⟩),
            .inl ⟨rfl, subset_rfl⟩⟩
        · contradiction
      next => contradiction
  | purgeObject process call =>
      obtain rfl := Option.some.inj hprocess
      simp only [ObjectState.step] at hstep
      split at hstep
      next cutoff known entry rest hphase =>
        split at hstep
        · obtain rfl := Option.some.inj hstep
          have hmoved : ∀ phase : ObjectPhase Id,
              ((state.callDelete entry.1 call).goto process phase).phase =
                Function.update state.phase process phase := by
            intro phase
            rw [ObjectState.goto, callDelete_phase]
          refine ⟨?_, .inl ⟨state.callDelete_pending entry.1 call,
            (state.callDelete_drawn entry.1 call).ge⟩⟩
          split
          · exact moves_of_work rfl (hmoved _) haction htries hphase rfl rfl
              (by rintro ⟨⟩)
          · exact moves_of_work rfl (hmoved _) haction htries hphase rfl rfl
              (by rintro ⟨⟩)
        · obtain rfl := Option.some.inj hstep
          exact ⟨moves_of_work rfl rfl haction htries hphase rfl rfl (by rintro ⟨⟩),
            .inl ⟨rfl, subset_rfl⟩⟩
      next => contradiction
  | drain other =>
      obtain rfl := Option.some.inj hprocess
      contradiction
  | select other =>
      obtain rfl := Option.some.inj hprocess
      contradiction
  | deleteObject other row call =>
      obtain rfl := Option.some.inj hprocess
      exact absurd rfl (htries row call)
  | record other =>
      obtain rfl := Option.some.inj hprocess
      contradiction
  | crash other =>
      obtain rfl := Option.some.inj hprocess
      contradiction
  | _ => contradiction

theorem step_moves
    {action : ObjectAction Process Id}
    (hstep : state.step action = some next) :
    state.Moves next action ∧ state.KeepsPending next action := by
  cases action with
  | tick now =>
      simp only [ObjectState.step] at hstep
      split at hstep
      · obtain rfl := Option.some.inj hstep
        exact ⟨.inl ⟨rfl, rfl⟩, .inl ⟨rfl, subset_rfl⟩⟩
      · contradiction
  | createTenant tenantId =>
      obtain rfl := Option.some.inj hstep
      exact ⟨.inl ⟨rfl, rfl⟩, .inl ⟨rfl, subset_rfl⟩⟩
  | storeInline tenantId notificationId =>
      simp only [ObjectState.step] at hstep
      split at hstep
      · obtain rfl := Option.some.inj hstep
        exact ⟨.inl ⟨rfl, rfl⟩, .inl ⟨rfl, Finset.subset_insert ..⟩⟩
      · contradiction
  | delete removed rowId enqueuedAt =>
      refine ⟨.inl ⟨rfl, ?_⟩, .inr (.inl ⟨_, _, _, rfl, hstep⟩)⟩
      simp only [ObjectState.step, ObjectState.delete] at hstep
      split at hstep
      · exact Option.some.inj hstep ▸ rfl
      · contradiction
  | drain process =>
      simp only [ObjectState.step] at hstep
      split at hstep
      next hphase =>
        obtain rfl := Option.some.inj hstep
        exact ⟨.inr ⟨process, _, .drains hphase, rfl⟩,
          .inl ⟨rfl, subset_rfl⟩⟩
      next => contradiction
  | select process =>
      simp only [ObjectState.step] at hstep
      split at hstep
      next cursor hphase =>
        obtain rfl := Option.some.inj hstep
        exact ⟨.inr ⟨process, _, .stops hphase, rfl⟩, .inl ⟨rfl, subset_rfl⟩⟩
      next cursor left hphase =>
        split at hstep
        · obtain rfl := Option.some.inj hstep
          exact ⟨.inr ⟨process, _, .stops hphase, rfl⟩,
            .inl ⟨rfl, subset_rfl⟩⟩
        next row hnext =>
          obtain rfl := Option.some.inj hstep
          exact ⟨.inr ⟨process, _, .selects hphase hnext, rfl⟩,
            .inl ⟨rfl, subset_rfl⟩⟩
      next => contradiction
  | deleteObject process row call =>
      simp only [ObjectState.step] at hstep
      split at hstep
      next selected left hphase =>
        split at hstep
        next heq =>
          subst heq
          obtain rfl := Option.some.inj hstep
          refine ⟨.inr ⟨process, _, .deletes hphase, ?_⟩,
            .inl ⟨state.callDelete_pending row.storageKey call,
              (state.callDelete_drawn row.storageKey call).ge⟩⟩
          rw [ObjectState.goto, callDelete_phase]
        · contradiction
      next => contradiction
  | record process =>
      simp only [ObjectState.step] at hstep
      split at hstep
      next row left deleted hphase =>
        obtain rfl := Option.some.inj hstep
        exact ⟨.inr ⟨process, _, .records hphase, rfl⟩,
          .inr (.inr ⟨process, row, left, deleted, rfl, hphase, rfl⟩)⟩
      next => contradiction
  | crash process =>
      simp only [ObjectState.step] at hstep
      split at hstep
      next hopen =>
        obtain rfl := Option.some.inj hstep
        exact ⟨.inr ⟨process, _, .crashes hopen, rfl⟩, .inl ⟨rfl, subset_rfl⟩⟩
      next => contradiction
  | _ =>
      refine step_work rfl ?_ ?_ ?_ ?_ ?_ hstep
      · rintro ⟨⟩
      · rintro row call ⟨⟩
      · rintro ⟨⟩
      · rintro ⟨⟩
      · rintro ⟨⟩

/-! ## Pending rows keep their key and their instant -/

omit [DecidableEq Process] [LinearOrder Id] in
/-- The row of this id, while it is pending, is this row. -/
def Fixed
    (state : ObjectState Process Id) (row : PendingDeletion Id) : Prop :=
  row.id ∈ state.drawn ∧
    ∀ other ∈ state.pending, other.id = row.id →
      other.storageKey = row.storageKey ∧ other.enqueuedAt = row.enqueuedAt

/-- A row which is pending after a step was pending, or has a new id. -/
theorem KeepsPending.rows
    {action : ObjectAction Process Id}
    (hkeeps : state.KeepsPending next action) :
    state.drawn ⊆ next.drawn ∧
      ∀ row ∈ next.pending,
        (∃ old ∈ state.pending, old.id = row.id ∧
          old.storageKey = row.storageKey ∧
            old.enqueuedAt = row.enqueuedAt) ∨
        (row.id ∉ state.drawn ∧ row.id ∈ next.drawn ∧
          ∀ other ∈ next.pending, other.id = row.id →
            other = row ∨ other ∈ state.pending) := by
  rcases hkeeps with ⟨hpending, hdrawn⟩ |
    ⟨removed, rowId, enqueuedAt, -, hdelete⟩ |
    ⟨process, row, left, deleted, -, -, rfl⟩
  · refine ⟨hdrawn, fun row hmem => .inl ⟨row, hpending ▸ hmem, ?_⟩⟩
    exact ⟨rfl, rfl, rfl⟩
  · simp only [ObjectState.delete] at hdelete
    split at hdelete
    next hguard =>
      obtain rfl := Option.some.inj hdelete
      obtain ⟨-, hnodup, hfresh⟩ := hguard
      refine ⟨Finset.subset_union_left, fun row hmem => ?_⟩
      rcases List.mem_append.mp hmem with hnew | hold
      · have hid := List.mem_map_of_mem (f := PendingDeletion.id) hnew
        refine .inr ⟨hfresh row.id hid,
          Finset.mem_union_right _ (List.mem_toFinset.mpr hid),
          fun other hother hsame => ?_⟩
        rcases List.mem_append.mp hother with hnext | hbefore
        · exact .inl (List.inj_on_of_nodup_map hnodup hnext hnew hsame)
        · exact .inr hbefore
      · exact .inl ⟨row, hold, rfl, rfl, rfl⟩
    next => contradiction
  · refine ⟨subset_rfl, fun other hmem => .inl ?_⟩
    unfold ObjectState.record at hmem
    cases deleted with
    | true => exact ⟨other, (List.mem_filter.mp hmem).1, rfl, rfl, rfl⟩
    | false =>
        obtain ⟨old, hold, rfl⟩ := List.mem_map.mp hmem
        refine ⟨old, hold, ?_⟩
        split <;> exact ⟨rfl, rfl, rfl⟩

theorem Fixed.step
    {row : PendingDeletion Id} (hfixed : state.Fixed row)
    {action : ObjectAction Process Id}
    (hkeeps : state.KeepsPending next action) : next.Fixed row := by
  obtain ⟨hdrawn, hrows⟩ := hkeeps.rows
  refine ⟨hdrawn hfixed.1, fun other hmem hid => ?_⟩
  rcases hrows other hmem with ⟨old, hold, hsame, hkey, hinstant⟩ | ⟨hnew, -⟩
  · obtain ⟨hrowKey, hrowInstant⟩ := hfixed.2 old hold (hsame.trans hid)
    exact ⟨hkey.symm.trans hrowKey, hinstant.symm.trans hrowInstant⟩
  · exact absurd (hid ▸ hfixed.1) hnew

theorem fixed_pending_step
    (hfixed : ∀ row ∈ state.pending, state.Fixed row)
    {action : ObjectAction Process Id}
    (hkeeps : state.KeepsPending next action) :
    ∀ row ∈ next.pending, next.Fixed row := by
  obtain ⟨hdrawn, hrows⟩ := hkeeps.rows
  intro row hmem
  rcases hrows row hmem with
    ⟨old, hold, hid, hkey, hinstant⟩ | ⟨hnew, hnext, honly⟩
  · obtain ⟨holdDrawn, hsame⟩ := (hfixed old hold).step hkeeps
    refine ⟨hid ▸ holdDrawn, fun other hother hotherId => ?_⟩
    obtain ⟨hotherKey, hotherInstant⟩ :=
      hsame other hother (hotherId.trans hid.symm)
    exact ⟨hotherKey.trans hkey, hotherInstant.trans hinstant⟩
  · refine ⟨hnext, fun other hother hid => ?_⟩
    rcases honly other hother hid with rfl | hold
    · exact ⟨rfl, rfl⟩
    · exact absurd (hid ▸ (hfixed other hold).1) hnew

/-! ## What a drain has tried -/

omit [LinearOrder Id] in
/-- The rows on which a process has called the object store, in order. -/
def triedRows
    (process : Process) (actions : List (ObjectAction Process Id)) :
    List (PendingDeletion Id) :=
  actions.filterMap fun
    | .deleteObject other row _ => if other = process then some row else none
    | _ => none

omit [LinearOrder Id] in
theorem triedRows_append_of_ne
    (process : Process) (actions : List (ObjectAction Process Id))
    (action : ObjectAction Process Id)
    (hne : ∀ row call, action ≠ .deleteObject process row call) :
    triedRows process (actions ++ [action]) = triedRows process actions := by
  have hnone : triedRows process [action] = [] := by
    cases action with
    | deleteObject other row call =>
        have hother : other ≠ process := by
          rintro rfl
          exact hne row call rfl
        simp [triedRows, hother]
    | _ => rfl
  rw [triedRows, List.filterMap_append]
  exact (congrArg _ hnone).trans (List.append_nil _)

omit [LinearOrder Id] in
theorem triedRows_append_self
    (process : Process) (actions : List (ObjectAction Process Id))
    (row : PendingDeletion Id) (call : StoreCall) :
    triedRows process (actions ++ [.deleteObject process row call]) =
      triedRows process actions ++ [row] := by
  simp [triedRows]

end ObjectState

/-- Where the cursor stands: nothing that was tried is beyond it. -/
def ObjectPhase.Beyond (tried : List (PendingDeletion Id)) :
    ObjectPhase Id → Prop
  | .idle => tried = []
  | .draining cursor _ =>
      ∀ row ∈ tried, ∃ last ∈ cursor, ¬KeysetLess last row.position
  | .deleting next _ =>
      ∀ row ∈ tried,
        row.id ≠ next.id ∧ ¬KeysetLess next.position row.position
  | .recording last _ _ =>
      ∀ row ∈ tried, ¬KeysetLess last.position row.position
  | _ => True

namespace ObjectState

variable {state next : ObjectState Process Id}

/-- What the run so far says about the drains. -/
structure Drained
    (done : List (ObjectAction Process Id)) (state : ObjectState Process Id) :
    Prop where
  pending : ∀ row ∈ state.pending, state.Fixed row
  tried : ∀ process, ∀ row ∈ triedRows process done, state.Fixed row
  chosen : ∀ process row left,
    state.phase process = .deleting row left → state.Fixed row
  nodup : ∀ process,
    ((triedRows process done).map PendingDeletion.id).Nodup
  beyond : ∀ process,
    (state.phase process).Beyond (triedRows process done)
  returned : ∀ process row left,
    state.phase process = .recording row left true →
      .deleteObject process row .returned ∈ done

theorem Empty.drained (hempty : state.Empty) : Drained [] state := by
  constructor
  · simp [hempty.pending]
  · simp [triedRows]
  · simp [hempty.phase]
  · simp [triedRows]
  · intro process
    rw [hempty.phase process]
    rfl
  · simp [hempty.phase]

/-- A turn keeps what is known of the process which takes it. -/
theorem Drained.turn
    {done : List (ObjectAction Process Id)} (hdrained : Drained done state)
    {process : Process} {action : ObjectAction Process Id}
    {phase : ObjectPhase Id} (hturn : state.Turn process action phase) :
    ((triedRows process (done ++ [action])).map PendingDeletion.id).Nodup ∧
      phase.Beyond (triedRows process (done ++ [action])) ∧
      (∀ row ∈ triedRows process (done ++ [action]), state.Fixed row) ∧
      (∀ row left, phase = .deleting row left → state.Fixed row) ∧
      ∀ row left, phase = .recording row left true →
        .deleteObject process row .returned ∈ done ++ [action] := by
  have hnodup := hdrained.nodup process
  have hbeyond := hdrained.beyond process
  have htried := hdrained.tried process
  cases hturn with
  | drains hphase =>
      rw [triedRows_append_of_ne process done (.drain process) nofun]
      rw [hphase] at hbeyond
      refine ⟨hnodup, fun row hmem => ?_, htried, nofun, nofun⟩
      rw [show triedRows process done = [] from hbeyond] at hmem
      contradiction
  | @selects cursor left row hphase hnext =>
      rw [triedRows_append_of_ne process done (.select process) nofun]
      rw [hphase] at hbeyond
      obtain ⟨hmem, hcursor⟩ := nextPending_eq_some hnext
      refine ⟨hnodup, fun other hother => ?_, htried, ?_, nofun⟩
      · obtain ⟨last, hlast, hpast⟩ := hbeyond other hother
        have hless := hcursor last hlast
        refine ⟨fun hid => hpast ?_, fun hback => hpast (hless.trans hback)⟩
        -- A row of this id has the position of the row tried before.
        obtain ⟨-, hinstant⟩ := (htried other hother).2 row hmem hid.symm
        have hposition : other.position = row.position := by
          rw [PendingDeletion.position, PendingDeletion.position, hid,
            hinstant]
        rw [hposition]
        exact hless
      · intro other _ hsame
        obtain ⟨rfl, -⟩ := ObjectPhase.deleting.inj hsame
        exact hdrained.pending row hmem
  | stops hphase =>
      rw [triedRows_append_of_ne process done (.select process) nofun]
      exact ⟨hnodup, trivial, htried, nofun, nofun⟩
  | @deletes row left call hphase =>
      rw [triedRows_append_self]
      rw [hphase] at hbeyond
      have hchosen := hdrained.chosen process row left hphase
      refine ⟨?_, fun other hother => ?_, fun other hother => ?_, nofun,
        fun other _ hsame => ?_⟩
      · rw [List.map_append, List.map_singleton]
        refine List.nodup_append.mpr ⟨hnodup, List.nodup_singleton _, ?_⟩
        intro id hid other hother
        obtain ⟨earlier, hmem, rfl⟩ := List.mem_map.mp hid
        rw [List.mem_singleton.mp hother]
        exact (hbeyond earlier hmem).1
      · rcases List.mem_append.mp hother with hold | hnew
        · exact (hbeyond other hold).2
        · rw [List.mem_singleton.mp hnew]
          exact keysetLess_irrefl _
      · rcases List.mem_append.mp hother with hold | hnew
        · exact htried other hold
        · exact List.mem_singleton.mp hnew ▸ hchosen
      · obtain ⟨rfl, -, hcall⟩ := ObjectPhase.recording.inj hsame
        rw [decide_eq_true_eq] at hcall
        subst hcall
        exact List.mem_append_right _ (List.mem_singleton_self _)
  | @records row left deleted hphase =>
      rw [triedRows_append_of_ne process done (.record process) nofun]
      rw [hphase] at hbeyond
      exact ⟨hnodup, fun other hother => ⟨row.position, rfl,
        hbeyond other hother⟩, htried, nofun, nofun⟩
  | crashes hphase =>
      rw [triedRows_append_of_ne process done (.crash process) nofun]
      exact ⟨hnodup, trivial, htried, nofun, nofun⟩
  | works hprocess haction htries hbefore hafter hidle =>
      rw [triedRows_append_of_ne process done action htries]
      cases phase with
      | idle => contradiction
      | draining _ _ => contradiction
      | deleting _ _ => contradiction
      | recording _ _ _ => contradiction
      | _ => exact ⟨hnodup, trivial, htried, nofun, nofun⟩

theorem Drained.step
    {done : List (ObjectAction Process Id)} (hdrained : Drained done state)
    {action : ObjectAction Process Id}
    (hstep : state.step action = some next) :
    Drained (done ++ [action]) next := by
  obtain ⟨hmoves, hkeeps⟩ := step_moves hstep
  have hothers : ∀ process, action.process ≠ some process →
      next.phase process = state.phase process ∧
        triedRows process (done ++ [action]) = triedRows process done := by
    intro process hne
    constructor
    · rcases hmoves with ⟨-, hphase⟩ | ⟨moved, phase, hturn, hphase⟩
      · rw [hphase]
      · rw [hphase]
        refine Function.update_of_ne ?_ ..
        rintro rfl
        exact hne hturn.process_eq
    · refine triedRows_append_of_ne process done action ?_
      rintro row call rfl
      exact hne rfl
  have hself : ∀ process, action.process = some process →
      ∃ phase, state.Turn process action phase ∧
        next.phase process = phase := by
    intro process hprocess
    rcases hmoves with ⟨hnone, -⟩ | ⟨moved, phase, hturn, hphase⟩
    · rw [hnone] at hprocess
      contradiction
    · obtain rfl := Option.some.inj (hturn.process_eq.symm.trans hprocess)
      exact ⟨phase, hturn, by rw [hphase, Function.update_self]⟩
  refine ⟨fixed_pending_step hdrained.pending hkeeps, fun process row hmem => ?_,
    fun process row left hphase => ?_, fun process => ?_, fun process => ?_,
    fun process row left hphase => ?_⟩
  all_goals by_cases hprocess : action.process = some process
  · obtain ⟨phase, hturn, -⟩ := hself process hprocess
    exact ((hdrained.turn hturn).2.2.1 row hmem).step hkeeps
  · rw [(hothers process hprocess).2] at hmem
    exact (hdrained.tried process row hmem).step hkeeps
  · obtain ⟨phase, hturn, rfl⟩ := hself process hprocess
    exact ((hdrained.turn hturn).2.2.2.1 row left hphase).step hkeeps
  · rw [(hothers process hprocess).1] at hphase
    exact (hdrained.chosen process row left hphase).step hkeeps
  · obtain ⟨phase, hturn, -⟩ := hself process hprocess
    exact (hdrained.turn hturn).1
  · rw [(hothers process hprocess).2]
    exact hdrained.nodup process
  · obtain ⟨phase, hturn, rfl⟩ := hself process hprocess
    exact (hdrained.turn hturn).2.1
  · rw [(hothers process hprocess).1, (hothers process hprocess).2]
    exact hdrained.beyond process
  · obtain ⟨phase, hturn, rfl⟩ := hself process hprocess
    exact (hdrained.turn hturn).2.2.2.2 row left hphase
  · rw [(hothers process hprocess).1] at hphase
    exact List.mem_append_left _
      (hdrained.returned process row left hphase)

theorem drained_of_run
    {start : ObjectState Process Id} (hempty : start.Empty)
    {actions : List (ObjectAction Process Id)}
    (hrun : (objectMachine Process Id).run start actions = some state) :
    Drained actions state :=
  Machine.run_history
    (fun _ _ _ _ hdrained hstep => hdrained.step hstep) hempty.drained hrun

/-! ## How long a drain runs -/

end ObjectState

/-- The steps a drain may still take. -/
def ObjectPhase.fuel : ObjectPhase Id → ℕ
  | .draining _ left => 3 * left + 1
  | .recording _ left _ => 3 * left + 2
  | .deleting _ left => 3 * left + 3
  | _ => 0

namespace ObjectState

variable {state next : ObjectState Process Id}

/-- The steps which a process has taken. -/
def stepsOf
    (process : Process) (actions : List (ObjectAction Process Id)) : ℕ :=
  actions.countP fun action => action.process = some process

omit [LinearOrder Id] in
theorem stepsOf_append
    (process : Process) (actions : List (ObjectAction Process Id))
    (action : ObjectAction Process Id) :
    stepsOf process (actions ++ [action]) =
      stepsOf process actions +
        if action.process = some process then 1 else 0 := by
  simp [stepsOf, List.countP_cons]

/-- A process which drains takes three steps for a row at most. -/
structure Bounded
    (process : Process) (done : List (ObjectAction Process Id))
    (state : ObjectState Process Id) : Prop where
  idle : state.phase process = .idle → stepsOf process done = 0
  drains : .drain process ∈ done →
    (state.phase process).works = false ∧
      stepsOf process done + (state.phase process).fuel ≤
        3 * purgeBatchSize + 2

theorem Bounded.turn
    {done : List (ObjectAction Process Id)} {process : Process}
    (hbounded : Bounded process done state)
    {action : ObjectAction Process Id} {phase : ObjectPhase Id}
    (hturn : state.Turn process action phase)
    (hphase : next.phase process = phase) :
    Bounded process (done ++ [action]) next := by
  have hone : stepsOf process (done ++ [action]) =
      stepsOf process done + 1 := by
    rw [stepsOf_append, if_pos hturn.process_eq]
  have hdone : ∀ {before after : ObjectPhase Id},
      state.phase process = before → next.phase process = after →
        action ≠ .drain process → after.fuel < before.fuel →
          after.works = false → .drain process ∈ done ++ [action] →
            (next.phase process).works = false ∧
              stepsOf process (done ++ [action]) +
                (next.phase process).fuel ≤ 3 * purgeBatchSize + 2 := by
    intro before after hbefore hafter haction hless hworks hmem
    rcases List.mem_append.mp hmem with hold | hnew
    · have hbound := (hbounded.drains hold).2
      rw [hbefore] at hbound
      rw [hafter, hone]
      exact ⟨hworks, by omega⟩
    · exact absurd (List.mem_singleton.mp hnew).symm haction
  cases hturn with
  | drains hidle =>
      refine ⟨by rw [hphase]; exact nofun, fun _ => ?_⟩
      rw [hphase, hone, hbounded.idle hidle]
      exact ⟨rfl, by simp [ObjectPhase.fuel]; omega⟩
  | selects hbefore _ =>
      refine ⟨by rw [hphase]; exact nofun,
        hdone hbefore hphase nofun ?_ rfl⟩
      simp only [ObjectPhase.fuel]
      omega
  | stops hbefore =>
      refine ⟨by rw [hphase]; exact nofun,
        hdone hbefore hphase nofun ?_ rfl⟩
      simp [ObjectPhase.fuel]
  | deletes hbefore =>
      refine ⟨by rw [hphase]; exact nofun,
        hdone hbefore hphase nofun ?_ rfl⟩
      simp [ObjectPhase.fuel]
  | records hbefore =>
      refine ⟨by rw [hphase]; exact nofun,
        hdone hbefore hphase nofun ?_ rfl⟩
      simp [ObjectPhase.fuel]
  | crashes hopen =>
      refine ⟨by rw [hphase]; exact nofun, fun hmem => ?_⟩
      rcases List.mem_append.mp hmem with hold | hnew
      · obtain ⟨hworks, hbound⟩ := hbounded.drains hold
        rw [hphase, hone]
        refine ⟨rfl, ?_⟩
        cases hbefore : state.phase process with
        | draining _ _ =>
            rw [hbefore] at hbound
            simp only [ObjectPhase.fuel] at hbound ⊢
            omega
        | deleting _ _ =>
            rw [hbefore] at hbound
            simp only [ObjectPhase.fuel] at hbound ⊢
            omega
        | recording _ _ _ =>
            rw [hbefore] at hbound
            simp only [ObjectPhase.fuel] at hbound ⊢
            omega
        | ended =>
            rw [hbefore] at hopen
            contradiction
        | _ =>
            rw [hbefore] at hworks
            contradiction
      · have hnone := List.mem_singleton.mp hnew
        contradiction
  | works hprocess haction htries hbefore hafter hidle =>
      refine ⟨fun hnext => absurd (hphase.symm.trans hnext) hidle,
        fun hmem => ?_⟩
      rcases List.mem_append.mp hmem with hold | hnew
      · rw [(hbounded.drains hold).1] at hbefore
        contradiction
      · exact absurd (List.mem_singleton.mp hnew).symm haction

theorem Bounded.step
    {done : List (ObjectAction Process Id)} {process : Process}
    (hbounded : Bounded process done state)
    {action : ObjectAction Process Id}
    (hstep : state.step action = some next) :
    Bounded process (done ++ [action]) next := by
  obtain ⟨hmoves, -⟩ := step_moves hstep
  have hstays : action.process ≠ some process →
      next.phase process = state.phase process →
        Bounded process (done ++ [action]) next := by
    intro hne hphase
    have hsame : stepsOf process (done ++ [action]) =
        stepsOf process done := by
      rw [stepsOf_append, if_neg hne, add_zero]
    refine ⟨fun hidle => ?_, fun hmem => ?_⟩
    · rw [hsame]
      exact hbounded.idle (hphase ▸ hidle)
    · rw [hsame, hphase]
      rcases List.mem_append.mp hmem with hold | hnew
      · exact hbounded.drains hold
      · exact absurd (List.mem_singleton.mp hnew ▸ rfl) hne
  rcases hmoves with ⟨hnone, hphase⟩ | ⟨moved, phase, hturn, hphase⟩
  · exact hstays (by rw [hnone]; exact nofun) (by rw [hphase])
  · by_cases heq : process = moved
    · subst heq
      exact hbounded.turn hturn (by rw [hphase, Function.update_self])
    · refine hstays ?_ (by rw [hphase, Function.update_of_ne heq])
      rw [hturn.process_eq]
      exact fun hsame => heq (Option.some.inj hsame).symm

theorem bounded_of_run
    {start : ObjectState Process Id}
    {actions : List (ObjectAction Process Id)}
    (hrun : (objectMachine Process Id).run start actions = some state)
    (process : Process) : Bounded process actions state := by
  have hnothing : Bounded process [] start := ⟨fun _ => rfl, nofun⟩
  exact Machine.run_history
    (fun _ _ _ _ hbounded hstep => hbounded.step hstep) hnothing hrun

/-- A drain never waits, not even for an object store which always raises. -/
theorem drain_goes_on
    {process : Process} (hdrains : (state.phase process).drains = true) :
    ∃ action : ObjectAction Process Id, action.process = some process ∧
      action ≠ .crash process ∧
      (∀ row call, action = .deleteObject process row call →
        call = .raised false) ∧ (state.step action).isSome := by
  cases hphase : state.phase process with
  | draining cursor left =>
      refine ⟨.select process, rfl, (by rintro ⟨⟩), (by rintro row call ⟨⟩), ?_⟩
      cases left with
      | zero => simp [ObjectState.step, hphase]
      | succ left =>
          simp only [ObjectState.step, hphase]
          split <;> rfl
  | deleting row left =>
      refine ⟨.deleteObject process row (.raised false), rfl, (by rintro ⟨⟩),
        fun other call hsame => ?_, ?_⟩
      · exact ((ObjectAction.deleteObject.inj hsame).2.2).symm
      · simp [ObjectState.step, hphase]
  | recording row left deleted =>
      exact ⟨.record process, rfl, (by rintro ⟨⟩), (by rintro row call ⟨⟩),
        by simp [ObjectState.step, hphase]⟩
  | _ =>
      rw [hphase] at hdrains
      contradiction

/-! ## The life cycle -/

/-- A pending row goes with the commit after its delete has returned. -/
theorem Drained.row_gone
    {done : List (ObjectAction Process Id)} (hdrained : Drained done state)
    {action : ObjectAction Process Id}
    (hstep : state.step action = some next) {row : PendingDeletion Id}
    (hmem : row ∈ state.pending)
    (hgone : row.id ∉ next.pending.map PendingDeletion.id) :
    ∃ process tried, action = .record process ∧
      .deleteObject process tried .returned ∈ done ∧
        tried.id = row.id ∧ tried.storageKey = row.storageKey := by
  rcases (step_moves hstep).2 with ⟨hpending, -⟩ |
    ⟨removed, rowId, enqueuedAt, -, hdelete⟩ |
    ⟨process, tried, left, deleted, rfl, hphase, rfl⟩
  · rw [hpending] at hgone
    exact absurd (List.mem_map_of_mem hmem) hgone
  · simp only [ObjectState.delete] at hdelete
    split at hdelete
    · obtain rfl := Option.some.inj hdelete
      have hkept := List.mem_append_right
        (removed.filterMap fun payload =>
          payload.enqueueDeletion rowId enqueuedAt) hmem
      exact absurd (List.mem_map_of_mem hkept) hgone
    · contradiction
  · simp only [ObjectState.record] at hgone
    cases deleted with
    | true =>
        have hreturned := hdrained.returned process tried left hphase
        have hid : tried.id = row.id := by
          by_contra hne
          have hkept : row ∈ state.pending.filter fun other =>
              other.id ≠ tried.id :=
            List.mem_filter.mpr ⟨hmem, by simpa using Ne.symm hne⟩
          exact hgone (List.mem_map_of_mem hkept)
        refine ⟨process, tried, rfl, hreturned, hid, ?_⟩
        have htried : tried ∈ triedRows process done :=
          List.mem_filterMap.mpr ⟨_, hreturned, by simp⟩
        exact (((hdrained.tried process tried htried).2 row hmem
          hid.symm).1).symm
    | false =>
        refine absurd ?_ hgone
        simp only [List.mem_map, Bool.false_eq_true, if_false]
        refine ⟨_, ⟨row, hmem, rfl⟩, ?_⟩
        split <;> rfl

/-- In every run whose ingestions commit within a day of their upload: the
object of a committed notification is in the bucket; a pending row goes only
after a delete of its object has returned; a drain tries no row twice, takes
a bounded number of steps and is never stuck. -/
theorem object_life_cycle
    {start state : ObjectState Process Id} (hempty : start.Empty)
    {actions : List (ObjectAction Process Id)}
    (hontime : (objectMachine Process Id).AllowedAlong OnTime start actions)
    (hrun : (objectMachine Process Id).run start actions = some state) :
    (∀ payload ∈ state.notifications, ∀ key ∈ payload.storageKey,
      (state.bucket key).isSome) ∧
    (∀ action next, state.step action = some next →
      ∀ row ∈ state.pending, row.id ∉ next.pending.map PendingDeletion.id →
        ∃ process tried, action = .record process ∧
          .deleteObject process tried .returned ∈ actions ∧
            tried.id = row.id ∧ tried.storageKey = row.storageKey) ∧
    ∀ process, ((triedRows process actions).map PendingDeletion.id).Nodup ∧
      (.drain process ∈ actions →
        stepsOf process actions ≤ 3 * purgeBatchSize + 2 ∧
        (state.phase process = .ended ∨
          ∃ action : ObjectAction Process Id,
            action.process = some process ∧ action ≠ .crash process ∧
            (∀ row call, action = .deleteObject process row call →
              call = .raised false) ∧ (state.step action).isSome)) := by
  have hsound : state.Sound :=
    hontime.run_preserves
      (fun _ _ _ hsound hallowed hstep => hsound.step hallowed hstep)
      hempty.sound hrun
  have hdrained := drained_of_run hempty hrun
  refine ⟨hsound.present, fun action next hstep row hmem hgone =>
    hdrained.row_gone hstep hmem hgone, fun process =>
      ⟨hdrained.nodup process, fun hmem => ?_⟩⟩
  obtain ⟨hworks, hbound⟩ := (bounded_of_run hrun process).drains hmem
  refine ⟨by omega, ?_⟩
  by_cases hdrains : (state.phase process).drains = true
  · exact .inr (drain_goes_on hdrains)
  · left
    cases hphase : state.phase process with
    | ended => rfl
    | draining _ _ => simp [hphase, ObjectPhase.drains] at hdrains
    | deleting _ _ => simp [hphase, ObjectPhase.drains] at hdrains
    | recording _ _ _ => simp [hphase, ObjectPhase.drains] at hdrains
    | _ => simp [hphase, ObjectPhase.works] at hworks

end ObjectState

/-! ## Two uploads and one deletion -/

def noObjects : ObjectState ℕ ℕ where
  now := 0
  tenants := []
  drawn := ∅
  notifications := ∅
  pending := []
  rowLock _ := none
  bucket _ := none
  phase _ := .idle

/-- Notification 1 is deleted, and a drain has deleted its object. -/
def uploadAndDrain : List (ObjectAction ℕ ℕ) :=
  [.createTenant 7, .prepare 0 7 1, .upload 0 .returned, .commit 0,
    .prepare 1 7 2, .upload 1 .returned, .commit 1,
    .delete [⟨1, 7, some ⟨7, 0, 1⟩⟩] (fun _ => 3) 0, .drain 2, .select 2,
    .deleteObject 2 ⟨3, ⟨7, 0, 1⟩, 0, 0⟩ .returned]

theorem object_life_cycle_drain :
    ∃ state next : ObjectState ℕ ℕ,
      (objectMachine ℕ ℕ).run noObjects uploadAndDrain = some state ∧
      state.step (.record 2) = some next ∧
      state.pending = [⟨3, ⟨7, 0, 1⟩, 0, 0⟩] ∧ next.pending = [] ∧
      (state.bucket ⟨7, 0, 2⟩).isSome ∧
      (∃ process tried,
        .deleteObject process tried .returned ∈ uploadAndDrain ∧
          tried.id = 3 ∧ tried.storageKey = ⟨7, 0, 1⟩) ∧
      ((ObjectState.triedRows 2 uploadAndDrain).map PendingDeletion.id).Nodup ∧
      ObjectState.stepsOf 2 uploadAndDrain ≤ 3 * purgeBatchSize + 2 := by
  have hempty : noObjects.Empty :=
    ⟨rfl, rfl, rfl, fun _ => rfl, fun _ => rfl, fun _ => rfl⟩
  have hontime : (objectMachine ℕ ℕ).AllowedAlong ObjectState.OnTime noObjects
      uploadAndDrain := by decide +kernel
  obtain ⟨state, hrun, hstored, hpending, next, hstep, hgone⟩ :
      ∃ state : ObjectState ℕ ℕ,
        (objectMachine ℕ ℕ).run noObjects uploadAndDrain = some state ∧
        ⟨2, 7, some ⟨7, 0, 2⟩⟩ ∈ state.notifications ∧
        state.pending = [⟨3, ⟨7, 0, 1⟩, 0, 0⟩] ∧
        ∃ next, state.step (.record 2) = some next ∧ next.pending = [] :=
    ⟨_, rfl, by decide +kernel, by decide +kernel, _, rfl, by decide +kernel⟩
  obtain ⟨hpresent, hrows, htries⟩ :=
    ObjectState.object_life_cycle hempty hontime hrun
  obtain ⟨hnodup, hdrain⟩ := htries 2
  refine ⟨state, next, hrun, hstep, hpending, hgone,
    hpresent _ hstored _ rfl, ?_, hnodup, (hdrain (by simp [uploadAndDrain])).1⟩
  obtain ⟨process, tried, -, hreturned, hid, hkey⟩ :=
    hrows _ next hstep ⟨3, ⟨7, 0, 1⟩, 0, 0⟩ (by rw [hpending]; simp)
      (by rw [hgone]; simp)
  exact ⟨process, tried, hreturned, hid, hkey⟩

end NotifyHub
