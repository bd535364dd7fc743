import NotifyHub.ReplacedRows

/-!
# Replacements kept apart by a constraint

Two rows which a constraint keeps apart and which both count were written one
after the other, and the writer of the later one has deleted the earlier.  A
process deletes what it has read only.  So where any two lists contain rows
which conflict, a process whose snapshot has been replaced by a list cannot have
written its own, and every commit covers what is live.
-/

namespace NotifyHub.Replacement

open Function

variable {Process Content Request : Type*} [DecidableEq Process]

/-- Any two lists which are not empty contain rows which conflict. -/
structure Requests.Meeting (R : Requests Request Content) : Prop where
  symm : ∀ row other, R.conflicts row other = true →
    R.conflicts other row = true
  meet : ∀ request other rows others,
    R.rows request = some rows → R.rows other = some others →
      rows ≠ [] → others ≠ [] →
        ∃ row ∈ rows, ∃ second ∈ others, R.conflicts row second = true

/-- Of two versions in conflict, both of which may count, one has been deleted
by the writer of the other. -/
def Ordered (R : Requests Request Content) (state : State Process Content) :
    Prop :=
  ∀ (first second : ℕ) (process other : Process) (row added : Content),
    state.versions[first]? = some (some process, row) →
    state.versions[second]? = some (some other, added) →
    process ≠ other → R.conflicts row added = true →
    state.phase process ≠ .aborted → state.phase other ≠ .aborted →
    state.dead first = false → state.dead second = false →
      state.deleter first = some other ∨ state.deleter second = some process

structure Kept (R : Requests Request Content) (initial : List Content)
    (state : State Process Content) : Prop where
  sound : Sound initial state
  accepted : Accepted R state
  ordered : Ordered R state

section Steps

variable {R : Requests Request Content} {initial : List Content}
  {state next : State Process Content} {process other : Process}
  {action : Action Process Request} {row added : Content} {index : ℕ}

omit [DecidableEq Process] in
theorem Frame.not_aborted
    (hframe : Frame state next process)
    (hnext : next.phase other ≠ .aborted) : state.phase other ≠ .aborted := by
  intro haborted
  by_cases hother : other = process
  · have hopened := hframe.opened
    rw [← hother, haborted] at hopened
    cases hopened
  · exact hnext ((hframe.phase other hother).trans haborted)

omit [DecidableEq Process] in
theorem Frame.not_dead
    (hframe : Frame state next process) (hnext : next.dead index = false) :
    state.dead index = false := by
  rw [Bool.eq_false_iff]
  intro hdead
  rw [hframe.dead hdead] at hnext
  cases hnext

/-- A process which has written and is neither running nor aborted has
committed. -/
theorem Sound.committed_of_written
    (hsound : Sound initial state)
    (hversion : state.versions[index]? = some (some process, row))
    (hrunning : (state.phase process).isRunning = false)
    (haborted : state.phase process ≠ .aborted) :
    (state.phase process).isCommitted = true := by
  have htracks := hsound.tracks process
  cases hphase : state.phase process with
  | idle =>
      rw [hphase] at htracks
      have hmem : row ∈ state.rowsOf (some process) :=
        List.mem_map.mpr ⟨(some process, row), List.mem_filter.mpr
          ⟨List.mem_of_getElem? hversion, decide_eq_true rfl⟩, rfl⟩
      rw [htracks.1] at hmem
      cases hmem
  | deleting rows seen left | inserting rows seen left =>
      rw [hphase] at hrunning
      cases hrunning
  | committed rows => rfl
  | aborted => exact absurd hphase haborted

/-- A mark whose writer counts stays, unless its version dies. -/
theorem Sound.mark_stays
    (hsound : Sound initial state) (hframe : Frame state next process)
    {writer : Process}
    (hversion : state.versions[index]? = some (some writer, row))
    (haborted : state.phase writer ≠ .aborted)
    {marked : ℕ} (hdead : state.dead marked = false)
    (hmark : state.deleter marked = some writer) :
    next.deleter marked = some writer := by
  rcases hframe.deleter marked with hsame | ⟨-, -, -, hfree⟩
  · rw [hsame, hmark]
  · have hcommitted := hsound.committed_of_written hversion
      (hfree writer hmark) haborted
    have hwas := (State.dead_iff state marked).mpr ⟨writer, hmark, hcommitted⟩
    rw [hdead] at hwas
    cases hwas

/-- A row in the way of a new one has been deleted by the process which inserts
that. -/
theorem Sound.deleted_of_added
    (hsound : Sound initial state) (hstep : R.step state action = some next)
    {old new : ℕ} {writer : Process}
    (hversion : state.versions[old]? = some (some writer, row))
    (hnone : state.versions[new]? = none)
    (hadded : next.versions[new]? = some (some process, added))
    (hprocess : action.process = process) (hne : writer ≠ process)
    (hconflicts : R.conflicts row added = true)
    (haborted : state.phase writer ≠ .aborted)
    (hdead : state.dead old = false) : next.deleter old = some process := by
  obtain ⟨hdeleter, hrivals⟩ := Requests.added_cases hstep hnone hadded
  obtain ⟨hblocks, hexcludes⟩ := hrivals old _ hversion hconflicts
  rw [hprocess] at hblocks hexcludes
  rw [State.blocks, Bool.or_eq_false_iff, Option.any_some] at hblocks
  have hrunning : (state.phase writer).isRunning = false := by
    simpa [hne] using hblocks.1
  have hcommitted := hsound.committed_of_written hversion hrunning haborted
  have hvisible : state.visible (some writer) = true := hcommitted
  rw [State.excludes, hvisible, hdead, Bool.or_true] at hexcludes
  rw [hdeleter]
  simpa using hexcludes

theorem Ordered.step
    (hmeeting : R.Meeting) (hsound : Sound initial state)
    (hordered : Ordered R state) (hstep : R.step state action = some next) :
    Ordered R next := by
  have hframe := Requests.step_frame hstep
  intro first second process other row added hfirst hsecond hne hconflicts
    hprocess hother hdead hsdead
  have hprocess' := hframe.not_aborted hprocess
  have hother' := hframe.not_aborted hother
  have hdead' := hframe.not_dead hdead
  have hsdead' := hframe.not_dead hsdead
  rcases hframe.old_or_own hfirst with hold | ⟨hown, hge⟩
  · rcases hframe.old_or_own hsecond with hsold | ⟨hsown, hsge⟩
    · rcases hordered first second process other row added hold hsold hne
        hconflicts hprocess' hother' hdead' hsdead' with hmark | hmark
      · exact .inl (hsound.mark_stays hframe hsold hother' hdead' hmark)
      · exact .inr (hsound.mark_stays hframe hold hprocess' hsdead' hmark)
    · exact .inl (hsound.deleted_of_added hstep hold
        (List.getElem?_eq_none hsge) hsecond (Option.some.inj hsown).symm hne
        hconflicts hprocess' hdead')
  · rcases hframe.old_or_own hsecond with hsold | ⟨hsown, -⟩
    · exact .inr (hsound.deleted_of_added hstep hsold
        (List.getElem?_eq_none hge) hfirst (Option.some.inj hown).symm hne.symm
        (hmeeting.symm row added hconflicts) hother' hsdead')
    · exact absurd (Option.some.inj (hown.trans hsown.symm)) hne

theorem exists_version
    (hrow : row ∈ state.rowsOf (some process)) :
    ∃ index : ℕ, state.versions[index]? = some (some process, row) := by
  obtain ⟨version, hversion, rfl⟩ := List.mem_map.mp hrow
  obtain ⟨hmem, hwriter⟩ := List.mem_filter.mp hversion
  obtain ⟨index, hindex⟩ := List.mem_iff_getElem?.mp hmem
  have hwriter' : version.1 = some process := of_decide_eq_true hwriter
  exact ⟨index, by rw [hindex, ← hwriter']⟩

/-- Two processes which have asked for rows have written some in conflict. -/
theorem Sound.conflict
    {rows : List Content} {seen : List ℕ}
    {version : Option Process × Content} (hmeeting : R.Meeting)
    (hsound : Sound initial state) (haccepted : Accepted R state)
    (hphase : state.phase process = .inserting rows seen [])
    (hrows : rows ≠ [])
    (hcommitted : (state.phase other).isCommitted = true)
    (hversion : state.versions[index]? = some version)
    (hwriter : version.1 = some other) :
    ∃ row ∈ rows, ∃ added ∈ state.rowsOf (some other),
      R.conflicts row added = true := by
  have htracks := hsound.tracks other
  cases hother : state.phase other with
  | committed others =>
      rw [hother] at htracks
      have hwritten : state.rowsOf (some other) = others := htracks
      have hmem : version.2 ∈ state.rowsOf (some other) :=
        List.mem_map.mpr ⟨version, List.mem_filter.mpr
          ⟨List.mem_of_getElem? hversion, decide_eq_true hwriter⟩, rfl⟩
      have hne : others ≠ [] := by
        intro hnil
        rw [hwritten, hnil] at hmem
        cases hmem
      obtain ⟨request, hrequest⟩ := haccepted process rows (by rw [hphase]; rfl)
      obtain ⟨second, hsecond⟩ := haccepted other others (by rw [hother]; rfl)
      rw [hwritten]
      exact hmeeting.meet request second rows others hrequest hsecond hrows hne
  | _ =>
      rw [hother] at hcommitted
      cases hcommitted

/-- A list which conflicts with every other one is written over rows the process
has read. -/
theorem Sound.snapshot_read
    {rows : List Content} {seen : List ℕ} (hmeeting : R.Meeting)
    (hsound : Sound initial state) (haccepted : Accepted R state)
    (hordered : Ordered R state)
    (hphase : state.phase process = .inserting rows seen [])
    (hrows : rows ≠ []) : state.snapshot ⊆ seen := by
  intro index hindex
  obtain ⟨version, hversion, hlive⟩ := (State.mem_snapshot index).mp hindex
  have htracks := hsound.tracks process
  rw [hphase] at htracks
  obtain ⟨hwritten, ⟨reader, hsnapshot⟩, -, hmarks⟩ := htracks
  rw [List.append_nil] at hwritten
  obtain ⟨owner, howner⟩ := hsound.owned
  have hwriter := (howner.iff index version hversion).mp hlive
  rw [hsnapshot.iff index version hversion, hwriter]
  by_contra hreplaced
  obtain ⟨other, rfl⟩ := Option.ne_none_iff_exists'.mp
    (howner.ne_none hsnapshot hreplaced)
  have hcommitted : (state.phase other).isCommitted = true := howner.visible
  have hopened : (state.phase process).isCommitted = false := by
    rw [hphase]
    rfl
  have hne : process ≠ other := by
    intro heq
    rw [heq, hcommitted] at hopened
    cases hopened
  obtain ⟨row, hrow, added, hadded, hconflicts⟩ :=
    hsound.conflict hmeeting haccepted hphase hrows hcommitted hversion hwriter
  obtain ⟨first, hfirst⟩ := exists_version (hwritten ▸ hrow)
  obtain ⟨second, hsecond⟩ := exists_version hadded
  have hlast := (howner.iff second _ hsecond).mpr rfl
  have hfree := hsound.not_dead_of_open hfirst hopened
  have hdead : state.dead first = false := by
    rw [State.dead, hfree]
    rfl
  have haborted : state.phase process ≠ .aborted := by
    intro heq
    rw [heq] at hphase
    cases hphase
  have hsaborted : state.phase other ≠ .aborted := by
    intro heq
    rw [heq] at hcommitted
    cases hcommitted
  rcases hordered first second process other row added hfirst hsecond hne
    hconflicts haborted hsaborted hdead
    ((State.live_iff _ _ _).mp hlast).2 with hmark | hmark
  · rw [hfree] at hmark
    cases hmark
  · exact hreplaced
      ((hsnapshot.iff second _ hsecond).mp (hmarks second hmark))

theorem Sound.covered
    (hmeeting : R.Meeting) (hsound : Sound initial state)
    (haccepted : Accepted R state) (hordered : Ordered R state) :
    Covered state action := by
  cases action with
  | commit process =>
      change (state.phase process).Covers state.snapshot
      cases hphase : state.phase process with
      | inserting rows seen left =>
          cases left with
          | nil =>
              cases rows with
              | nil => trivial
              | cons row rows =>
                  exact hsound.snapshot_read hmeeting haccepted hordered hphase
                    (List.cons_ne_nil row rows)
          | cons row left => cases rows <;> trivial
      | _ => trivial
  | _ => trivial

theorem Kept.step
    (hmeeting : R.Meeting) (hkept : Kept R initial state)
    (hstep : R.step state action = some next) : Kept R initial next where
  sound := hkept.sound.step
    (hkept.sound.covered hmeeting hkept.accepted hkept.ordered) hstep
  accepted := hkept.accepted.step hstep
  ordered := hkept.ordered.step hmeeting hkept.sound hstep

theorem kept_initial
    (hstart : (R.machine Process initial).Initial state) :
    Kept R initial state := by
  refine ⟨sound_initial hstart, accepted_initial hstart, ?_⟩
  intro first second process other row added hfirst
  have hmem := List.mem_of_getElem? hfirst
  rw [hstart.1] at hmem
  obtain ⟨_, -, hnone⟩ := List.mem_map.mp hmem
  cases hnone

/-- Where any two lists contain rows in conflict, no two of them are mixed. -/
theorem meeting_outcome
    (hmeeting : R.Meeting)
    (hreach : (R.machine Process initial).Reachable state) :
    Outcome R initial state := by
  have hkept : Kept R initial state := by
    refine Machine.Reachable.invariant ?_ ?_ hreach
    · intro _ hstart
      exact kept_initial hstart
    · intro _ _ _ hbefore hstep
      exact hbefore.step hmeeting hstep
  exact hkept.sound.outcome hkept.accepted

end Steps

end NotifyHub.Replacement
