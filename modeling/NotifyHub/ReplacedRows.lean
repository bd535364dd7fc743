import NotifyHub.RowReplacement

/-!
# What concurrent replacements leave behind

At every moment one writer owns the rows that are live: the beginning, or a
process which has committed.  A process reads the rows of the owner of that
moment, and it ends by deleting them.  The commit passes the ownership on if
the process has read everything that is live, and it leaves it where it is if
the process inserts nothing.  This is the first invariant.

For the second one, two versions which a constraint keeps apart and which both
count were written one after the other, so the writer of the later one has
deleted the earlier.  If any two lists contain such versions, a process whose
snapshot has been replaced cannot commit.
-/

namespace NotifyHub.Replacement

open Function

variable {Process Content Request : Type*}

/-- The versions of a snapshot are those of one writer, who has committed. -/
structure Snapshot (state : State Process Content) (seen : List ℕ)
    (owner : Option Process) : Prop where
  below : ∀ index ∈ seen, index < state.versions.length
  visible : state.visible owner = true
  iff : ∀ index version, state.versions[index]? = some version →
    (index ∈ seen ↔ version.1 = owner)

/-- Exactly the versions of the owner are live. -/
structure Owner (state : State Process Content) (owner : Option Process) :
    Prop where
  visible : state.visible owner = true
  iff : ∀ index version, state.versions[index]? = some version →
    (state.live index version.1 = true ↔ version.1 = owner)
  start : owner = none →
    ∀ process, (state.phase process).isCommitted = false

/-! ## What a step of another process keeps -/

section Frames

variable {state next : State Process Content} {process other : Process}
  {owner : Option Process} {seen : List ℕ} {index : ℕ}
  {version : Option Process × Content}

theorem Frame.not_committed (hframe : Frame state next process) :
    (state.phase process).isCommitted = false :=
  Phase.isCommitted_of_isOpen hframe.opened

theorem Frame.committed
    (hframe : Frame state next process)
    (hcommitted : (state.phase other).isCommitted = true) :
    (next.phase other).isCommitted = true := by
  have hother : other ≠ process := by
    rintro rfl
    rw [hframe.not_committed] at hcommitted
    cases hcommitted
  rwa [hframe.phase other hother]

theorem Frame.visible
    (hframe : Frame state next process) (hvisible : state.visible owner = true) :
    next.visible owner = true := by
  cases owner with
  | none => rfl
  | some writer => exact hframe.committed hvisible

theorem Frame.ne_of_visible
    (hframe : Frame state next process)
    (hvisible : state.visible owner = true) : owner ≠ some process := by
  rintro rfl
  have hcommitted : (state.phase process).isCommitted = true := hvisible
  rw [hframe.not_committed] at hcommitted
  cases hcommitted

theorem State.dead_iff (state : State Process Content) (index : ℕ) :
    state.dead index = true ↔ ∃ holder, state.deleter index = some holder ∧
      (state.phase holder).isCommitted = true :=
  Option.any_eq_true ..

theorem Frame.dead
    (hframe : Frame state next process) (hdead : state.dead index = true) :
    next.dead index = true := by
  have hholder := (State.dead_iff state index).mp hdead
  rcases hframe.deleter index with hsame | ⟨-, hfalse, -⟩
  · rw [← hsame] at hholder
    obtain ⟨holder, hdeleter, hcommitted⟩ := hholder
    exact (State.dead_iff next index).mpr
      ⟨holder, hdeleter, hframe.committed hcommitted⟩
  · rw [hfalse] at hdead
    cases hdead

theorem Frame.old
    (hframe : Frame state next process)
    (hversion : state.versions[index]? = some version) :
    next.versions[index]? = some version := by
  obtain ⟨added, hadded, -⟩ := hframe.versions
  rw [hadded]
  rw [List.getElem?_append_left (List.getElem?_eq_some_iff.mp hversion).1]
  exact hversion

/-- A version which the step has added belongs to its process. -/
theorem Frame.old_or_own
    (hframe : Frame state next process)
    (hversion : next.versions[index]? = some version) :
    state.versions[index]? = some version ∨
      (version.1 = some process ∧ state.versions.length ≤ index) := by
  obtain ⟨added, hadded, hown⟩ := hframe.versions
  rw [hadded] at hversion
  rcases Nat.lt_or_ge index state.versions.length with hlt | hge
  · rw [List.getElem?_append_left hlt] at hversion
    exact .inl hversion
  · rw [List.getElem?_append_right hge] at hversion
    exact .inr ⟨hown version (List.mem_of_getElem? hversion), hge⟩

theorem Frame.snapshot
    (hframe : Frame state next process) (hsnapshot : Snapshot state seen owner) :
    Snapshot next seen owner where
  below index hindex := by
    obtain ⟨added, hadded, -⟩ := hframe.versions
    have hlt := hsnapshot.below index hindex
    rw [hadded, List.length_append]
    omega
  visible := hframe.visible hsnapshot.visible
  iff index version hversion := by
    rcases hframe.old_or_own hversion with hold | ⟨hown, hge⟩
    · exact hsnapshot.iff index version hold
    · have hne := hframe.ne_of_visible hsnapshot.visible
      constructor
      · intro hseen
        have hlt := hsnapshot.below index hseen
        omega
      · intro howner
        exact absurd (howner.symm.trans hown) hne

/-- The mark of another process stays while it runs. -/
theorem Frame.mark
    (hframe : Frame state next process)
    (hrunning : (state.phase other).isRunning = true)
    (hmark : state.deleter index = some other) :
    next.deleter index = some other := by
  rcases hframe.deleter index with hsame | ⟨-, -, -, hfree⟩
  · rw [hsame, hmark]
  · rw [hfree other hmark] at hrunning
    cases hrunning

theorem Frame.marked
    (hframe : Frame state next process) (hother : other ≠ process)
    (hmark : next.deleter index = some other) :
    state.deleter index = some other := by
  rcases hframe.deleter index with hsame | ⟨hprocess, -, -⟩
  · rw [← hsame, hmark]
  · exact absurd (Option.some.inj (hmark.symm.trans hprocess)) hother

theorem Frame.mark_or_dead
    (hframe : Frame state next process)
    (hrunning : (state.phase other).isRunning = true)
    (hmark : state.deleter index = some other ∨ state.dead index = true) :
    next.deleter index = some other ∨ next.dead index = true := by
  rcases hmark with hmark | hdead
  · exact .inl (hframe.mark hrunning hmark)
  · exact .inr (hframe.dead hdead)

theorem State.live_iff
    (state : State Process Content) (index : ℕ) (writer : Option Process) :
    state.live index writer = true ↔
      state.visible writer = true ∧ state.dead index = false := by
  rw [State.live, Bool.and_eq_true, Bool.not_eq_true']

/-- Only the versions of the process which steps become live. -/
theorem Frame.was_live
    (hframe : Frame state next process) (howner : owner ≠ some process)
    (hlive : next.live index owner = true) : state.live index owner = true := by
  rw [State.live_iff] at hlive ⊢
  constructor
  · cases owner with
    | none => rfl
    | some writer =>
        have hne : writer ≠ process := fun heq => howner (congrArg some heq)
        have hvisible : (next.phase writer).isCommitted = true := hlive.1
        rwa [hframe.phase writer hne] at hvisible
  · rw [Bool.eq_false_iff]
    intro hwas
    have hdead := hframe.dead hwas
    rw [hlive.2] at hdead
    cases hdead

/-- Without a commit the live versions stay the same. -/
theorem Frame.owned
    (hframe : Frame state next process)
    (hclosed : (next.phase process).isCommitted = false)
    (howner : Owner state owner) : Owner next owner := by
  have hcommitted : ∀ other, (next.phase other).isCommitted =
      (state.phase other).isCommitted := by
    intro other
    by_cases hother : other = process
    · rw [hother, hclosed, hframe.not_committed]
    · rw [hframe.phase other hother]
  have hvisible : ∀ writer, next.visible writer = state.visible writer := by
    intro writer
    cases writer with
    | none => rfl
    | some writer => exact hcommitted writer
  have hdead : ∀ index, next.dead index = state.dead index := by
    intro index
    rcases hframe.deleter index with hsame | ⟨hprocess, hfalse, -⟩
    · simp only [State.dead, hsame, hcommitted]
    · rw [hfalse, State.dead, hprocess]
      exact hclosed
  refine ⟨(hvisible owner).trans howner.visible, ?_, ?_⟩
  · intro index version hversion
    rw [State.live, hvisible, hdead]
    rcases hframe.old_or_own hversion with hold | ⟨hown, -⟩
    · exact howner.iff index version hold
    · have hne := hframe.ne_of_visible howner.visible
      have hhidden : state.visible version.1 = false := by
        rw [hown]
        exact hframe.not_committed
      rw [hhidden, Bool.false_and, hown]
      constructor
      · intro hfalse
        cases hfalse
      · intro heq
        exact absurd heq.symm hne
  · intro hnone other
    rw [hcommitted]
    exact howner.start hnone other

end Frames

variable [DecidableEq Process]

/-- The rows of one writer, in the order of their insertion. -/
def State.rowsOf (state : State Process Content) (writer : Option Process) :
    List Content :=
  (state.versions.filter fun version => version.1 = writer).map Prod.snd

/-- What the phase of a process says about its versions and its marks. -/
def Tracks (state : State Process Content) (process : Process) :
    Phase Content → Prop
  | .idle =>
      state.rowsOf (some process) = [] ∧
      ∀ index, state.deleter index ≠ some process
  | .deleting _ seen left =>
      state.rowsOf (some process) = [] ∧
      (∃ owner, Snapshot state seen owner) ∧
      (∀ index ∈ left, index ∈ seen) ∧
      (∀ index ∈ seen, index ∈ left ∨
        state.deleter index = some process ∨ state.dead index = true) ∧
      ∀ index, state.deleter index = some process → index ∈ seen
  | .inserting rows seen left =>
      state.rowsOf (some process) ++ left = rows ∧
      (∃ owner, Snapshot state seen owner) ∧
      (∀ index ∈ seen,
        state.deleter index = some process ∨ state.dead index = true) ∧
      ∀ index, state.deleter index = some process → index ∈ seen
  | .committed rows => state.rowsOf (some process) = rows
  | .aborted => True

/-- The rows a phase works on. -/
def Phase.rows? : Phase Content → Option (List Content)
  | .deleting rows _ _ | .inserting rows _ _ | .committed rows => some rows
  | _ => none

/-- What is written is what a request has asked for. -/
def Accepted (R : Requests Request Content) (state : State Process Content) :
    Prop :=
  ∀ process rows, (state.phase process).rows? = some rows →
    ∃ request, R.rows request = some rows

structure Sound (initial : List Content) (state : State Process Content) :
    Prop where
  tracks : ∀ process, Tracks state process (state.phase process)
  marked : ∀ index process, state.deleter index = some process →
    ∃ version, state.versions[index]? = some version ∧
      state.visible version.1 = true
  owned : ∃ owner, Owner state owner
  start : state.rowsOf none = initial

section Frames

variable {state next : State Process Content} {process other : Process}
  {owner : Option Process}

theorem Frame.rowsOf
    (hframe : Frame state next process) (howner : owner ≠ some process) :
    next.rowsOf owner = state.rowsOf owner := by
  obtain ⟨added, hadded, hown⟩ := hframe.versions
  have hnone : added.filter (fun version => decide (version.1 = owner)) = [] := by
    rw [List.filter_eq_nil_iff]
    intro version hversion
    rw [hown version hversion, decide_eq_true_eq]
    exact howner.symm
  rw [State.rowsOf, hadded, List.filter_append, hnone, List.append_nil]
  rfl

theorem Frame.tracks
    (hframe : Frame state next process) (hother : other ≠ process)
    (htracks : Tracks state other (state.phase other)) :
    Tracks next other (next.phase other) := by
  have hrows : next.rowsOf (some other) = state.rowsOf (some other) :=
    hframe.rowsOf fun heq => hother (Option.some.inj heq)
  rw [hframe.phase other hother]
  cases hphase : state.phase other with
  | idle =>
      rw [hphase] at htracks
      refine ⟨hrows.trans htracks.1, ?_⟩
      intro index hmark
      exact htracks.2 index (hframe.marked hother hmark)
  | deleting rows seen left =>
      have hrunning : (state.phase other).isRunning = true := by
        rw [hphase]
        rfl
      rw [hphase] at htracks
      obtain ⟨hnone, ⟨owner, hsnapshot⟩, hleft, hseen, hmarks⟩ := htracks
      refine ⟨hrows.trans hnone, ⟨owner, hframe.snapshot hsnapshot⟩, hleft, ?_, ?_⟩
      · intro index hindex
        rcases hseen index hindex with hin | hmark
        · exact .inl hin
        · exact .inr (hframe.mark_or_dead hrunning hmark)
      · intro index hmark
        exact hmarks index (hframe.marked hother hmark)
  | inserting rows seen left =>
      have hrunning : (state.phase other).isRunning = true := by
        rw [hphase]
        rfl
      rw [hphase] at htracks
      obtain ⟨hwritten, ⟨owner, hsnapshot⟩, hseen, hmarks⟩ := htracks
      refine ⟨?_, ⟨owner, hframe.snapshot hsnapshot⟩, ?_, ?_⟩
      · rw [hrows]
        exact hwritten
      · intro index hindex
        exact hframe.mark_or_dead hrunning (hseen index hindex)
      · intro index hmark
        exact hmarks index (hframe.marked hother hmark)
  | committed rows =>
      rw [hphase] at htracks
      exact hrows.trans htracks
  | aborted => trivial

end Frames

/-! ## What a step does to its own process -/

section Steps

variable {R : Requests Request Content} {initial : List Content}
  {state next : State Process Content} {process : Process}
  {owner : Option Process} {action : Action Process Request}

omit [DecidableEq Process] in
theorem State.mem_snapshot (index : ℕ) :
    index ∈ state.snapshot ↔
      ∃ version, state.versions[index]? = some version ∧
        state.live index version.1 = true := by
  rw [State.snapshot, List.mem_map]
  constructor
  · rintro ⟨⟨version, position⟩, hentry, rfl⟩
    have hfilter := List.mem_filter.mp hentry
    exact ⟨version, List.mk_mem_zipIdx_iff_getElem?.mp hfilter.1, hfilter.2⟩
  · rintro ⟨version, hversion, hlive⟩
    refine ⟨(version, index), List.mem_filter.mpr ⟨?_, hlive⟩, rfl⟩
    exact List.mk_mem_zipIdx_iff_getElem?.mpr hversion

omit [DecidableEq Process] in
/-- What a statement sees is the rows of the owner. -/
theorem Owner.snapshot (howner : Owner state owner) :
    Snapshot state state.snapshot owner := by
  constructor
  · intro index hindex
    obtain ⟨version, hversion, -⟩ := (State.mem_snapshot index).mp hindex
    exact (List.getElem?_eq_some_iff.mp hversion).1
  · exact howner.visible
  · intro index version hversion
    rw [State.mem_snapshot, ← howner.iff index version hversion]
    constructor
    · rintro ⟨other, hother, hlive⟩
      rwa [Option.some.inj (hversion.symm.trans hother)]
    · intro hlive
      exact ⟨version, hversion, hlive⟩

omit [DecidableEq Process] in
/-- The rows which are live are those the owner has written. -/
theorem Owner.liveRows [DecidableEq Process] (howner : Owner state owner) :
    state.liveRows = state.rowsOf owner := by
  have hsame : state.liveVersions =
      state.versions.zipIdx.filter fun entry => entry.1.1 = owner := by
    rw [State.liveVersions]
    apply List.filter_congr
    intro entry hentry
    have hversion := List.mk_mem_zipIdx_iff_getElem?.mp hentry
    have hiff := howner.iff entry.2 entry.1 hversion
    rw [Bool.eq_iff_iff, decide_eq_true_eq]
    exact hiff
  rw [State.liveRows, hsame, State.rowsOf]
  have hfst : state.versions = state.versions.zipIdx.map Prod.fst :=
    List.zipIdx_map_fst 0 state.versions |>.symm
  conv_rhs => rw [hfst]
  rw [List.filter_map, List.map_map]
  rfl

theorem Frame.tracks_delete
    {rows : List Content} {seen left : List ℕ} {index : ℕ}
    (hframe : Frame state next process)
    (hphase : state.phase process = .deleting rows seen left)
    (htracks : Tracks state process (.deleting rows seen left))
    (hrows : next.rowsOf (some process) = state.rowsOf (some process))
    (hin : index ∈ left)
    (hdone : next.deleter index = some process ∨ next.dead index = true)
    (honly : ∀ other, other ≠ index → next.deleter other = state.deleter other) :
    Tracks next process (.deleting rows seen (left.erase index)) := by
  obtain ⟨hnone, ⟨reader, hsnapshot⟩, hleft, hseen, hmarks⟩ := htracks
  have hrunning : (state.phase process).isRunning = true := by
    rw [hphase]
    rfl
  refine ⟨hrows.trans hnone, ⟨reader, hframe.snapshot hsnapshot⟩, ?_, ?_, ?_⟩
  · intro other hother
    exact hleft other (List.mem_of_mem_erase hother)
  · intro other hother
    by_cases heq : other = index
    · rw [heq]
      exact .inr hdone
    · rcases hseen other hother with hstay | hmark
      · exact .inl ((List.mem_erase_of_ne heq).mpr hstay)
      · exact .inr (hframe.mark_or_dead hrunning hmark)
  · intro other hmark
    by_cases heq : other = index
    · rw [heq]
      exact hleft index hin
    · rw [honly other heq] at hmark
      exact hmarks other hmark

theorem Frame.tracks_insert
    {rows left : List Content} {seen : List ℕ} {row : Content}
    (hframe : Frame state next process)
    (hphase : state.phase process = .inserting rows seen (row :: left))
    (htracks : Tracks state process (.inserting rows seen (row :: left)))
    (hversions : next.versions = state.versions ++ [(some process, row)])
    (hdeleter : next.deleter = state.deleter) :
    Tracks next process (.inserting rows seen left) := by
  obtain ⟨hwritten, ⟨reader, hsnapshot⟩, hseen, hmarks⟩ := htracks
  have hrunning : (state.phase process).isRunning = true := by
    rw [hphase]
    rfl
  have hrows : next.rowsOf (some process) =
      state.rowsOf (some process) ++ [row] := by
    simp [State.rowsOf, hversions]
  refine ⟨?_, ⟨reader, hframe.snapshot hsnapshot⟩, ?_, ?_⟩
  · rw [hrows, List.append_assoc]
    exact hwritten
  · intro index hindex
    exact hframe.mark_or_dead hrunning (hseen index hindex)
  · intro index hmark
    rw [hdeleter] at hmark
    exact hmarks index hmark

/-- The process which has stepped has kept to its phase. -/
theorem Sound.step_self
    (hsound : Sound initial state) (hstep : R.step state action = some next) :
    Tracks next action.process (next.phase action.process) := by
  have hself : ∀ {process} {phase : Phase Content},
      (state.goto process phase).phase process = phase := update_self ..
  have hframe := Requests.step_frame hstep
  cases action with
  | start process request =>
      obtain ⟨hphase, hcases⟩ := Requests.start_cases hstep
      have htracks := hsound.tracks process
      rw [hphase] at htracks
      rcases hcases with rfl | ⟨rows, -, rfl⟩
      · simp only [Action.process, hself, Tracks]
      · obtain ⟨owner, howner⟩ := hsound.owned
        simp only [Action.process, hself]
        refine ⟨htracks.1, ⟨owner, hframe.snapshot howner.snapshot⟩,
          fun _ hindex => hindex, fun _ hindex => .inl hindex, ?_⟩
        intro index hmark
        exact absurd hmark (htracks.2 index)
  | delete process index =>
      obtain ⟨rows, seen, left, hphase, hin, hcases⟩ :=
        Requests.delete_cases hstep
      have htracks := hsound.tracks process
      rw [hphase] at htracks
      rcases hcases with ⟨hdead, rfl⟩ | ⟨hdead, -, rfl⟩
      · simp only [Action.process, hself]
        exact hframe.tracks_delete hphase htracks rfl hin
          (.inr (hframe.dead hdead)) fun _ _ => rfl
      · simp only [Action.process, hself]
        exact hframe.tracks_delete hphase htracks rfl hin
          (.inl (update_self ..)) fun _ hother => update_of_ne hother ..
  | flush process =>
      obtain ⟨rows, seen, hphase, rfl⟩ := Requests.flush_cases hstep
      have htracks := hsound.tracks process
      rw [hphase] at htracks
      obtain ⟨hnone, ⟨reader, hsnapshot⟩, -, hseen, hmarks⟩ := htracks
      simp only [Action.process, hself]
      refine ⟨?_, ⟨reader, hframe.snapshot hsnapshot⟩, ?_, hmarks⟩
      · change state.rowsOf (some process) ++ rows = rows
        rw [hnone, List.nil_append]
      · intro index hindex
        rcases hseen index hindex with hleft | hmark | hdead
        · cases hleft
        · exact .inl hmark
        · exact .inr (hframe.dead hdead)
  | insert process =>
      obtain ⟨rows, seen, row, left, hphase, rfl | ⟨rfl, -⟩⟩ :=
        Requests.insert_cases hstep
      · simp only [Action.process, hself, Tracks]
      · have htracks := hsound.tracks process
        rw [hphase] at htracks
        simp only [Action.process, hself]
        exact hframe.tracks_insert hphase htracks rfl rfl
  | commit process =>
      obtain ⟨rows, seen, hphase, rfl⟩ := Requests.commit_cases hstep
      have htracks := hsound.tracks process
      rw [hphase] at htracks
      simp only [Action.process, hself]
      have hwritten := htracks.1
      rwa [List.append_nil] at hwritten
  | abort process =>
      obtain ⟨-, rfl⟩ := Requests.abort_cases hstep
      simp only [Action.process, hself, Tracks]

theorem Sound.step_marked
    (hsound : Sound initial state) (hstep : R.step state action = some next)
    (index : ℕ) (holder : Process)
    (hmark : next.deleter index = some holder) :
    ∃ version, next.versions[index]? = some version ∧
      next.visible version.1 = true := by
  have hframe := Requests.step_frame hstep
  have hold : ∀ index holder, state.deleter index = some holder →
      ∃ version, next.versions[index]? = some version ∧
        next.visible version.1 = true := by
    intro index holder hdeleter
    obtain ⟨version, hversion, hvisible⟩ := hsound.marked index holder hdeleter
    exact ⟨version, hframe.old hversion, hframe.visible hvisible⟩
  rcases hframe.deleter index with hsame | ⟨hprocess, -, hrunning, -⟩
  · exact hold index holder (hsame.symm.trans hmark)
  · -- A fresh mark is on a row of the snapshot.
    have htracks := hsound.step_self hstep
    have hseen : ∃ seen owner, Snapshot next seen owner ∧ index ∈ seen := by
      cases hphase : next.phase action.process with
      | idle =>
          rw [hphase] at htracks
          exact absurd hprocess (htracks.2 index)
      | deleting rows seen left =>
          rw [hphase] at htracks
          obtain ⟨-, ⟨owner, hsnapshot⟩, -, -, hmarks⟩ := htracks
          exact ⟨seen, owner, hsnapshot, hmarks index hprocess⟩
      | inserting rows seen left =>
          rw [hphase] at htracks
          obtain ⟨-, ⟨owner, hsnapshot⟩, -, hmarks⟩ := htracks
          exact ⟨seen, owner, hsnapshot, hmarks index hprocess⟩
      | committed rows | aborted =>
          rw [hphase] at hrunning
          cases hrunning
    obtain ⟨seen, owner, hsnapshot, hin⟩ := hseen
    have hlt := hsnapshot.below index hin
    refine ⟨next.versions[index], List.getElem?_eq_getElem hlt, ?_⟩
    rw [(hsnapshot.iff index _ (List.getElem?_eq_getElem hlt)).mp hin]
    exact hsnapshot.visible

omit [DecidableEq Process] in
/-- The beginning owns the rows only while nobody has committed. -/
theorem Owner.ne_none
    {seen : List ℕ} {reader : Option Process}
    (howner : Owner state owner) (hsnapshot : Snapshot state seen reader)
    (hreader : owner ≠ reader) : owner ≠ none := by
  intro hnone
  have hbefore := howner.start hnone
  cases reader with
  | none => exact hreader hnone
  | some writer =>
      have hvisible : (state.phase writer).isCommitted = true :=
        hsnapshot.visible
      rw [hbefore writer] at hvisible
      cases hvisible

/-- A transaction which has inserted rows has read all of a snapshot. -/
def Phase.Covers (snapshot : List ℕ) : Phase Content → Prop
  | .inserting (_ :: _) seen [] => snapshot ⊆ seen
  | _ => True

instance (snapshot : List ℕ) :
    DecidablePred fun phase : Phase Content => phase.Covers snapshot
  | .inserting (_ :: _) seen [] => inferInstanceAs (Decidable (snapshot ⊆ seen))
  | .inserting [] _ _ | .inserting (_ :: _) _ (_ :: _) => .isTrue trivial
  | .idle | .deleting .. | .committed _ | .aborted => .isTrue trivial

/-- A commit comes when the process has read all that is live, or if it has
inserted nothing. -/
def Covered (state : State Process Content) :
    Action Process Request → Prop
  | .commit process => (state.phase process).Covers state.snapshot
  | _ => True

instance (state : State Process Content) :
    DecidablePred fun action : Action Process Request => Covered state action
  | .commit process =>
      inferInstanceAs (Decidable ((state.phase process).Covers state.snapshot))
  | .start .. | .delete .. | .flush _ | .insert _ | .abort _ => .isTrue trivial

/-- Nobody has deleted a version of a process which has not committed. -/
theorem Sound.not_dead_of_open
    {index : ℕ} {version : Option Process × Content}
    (hsound : Sound initial state)
    (hversion : state.versions[index]? = some version)
    (hwriter : state.visible version.1 = false) :
    state.deleter index = none := by
  by_contra hmarked
  obtain ⟨holder, hmark⟩ := Option.ne_none_iff_exists'.mp hmarked
  obtain ⟨other, hfound, hvisible⟩ := hsound.marked index holder hmark
  rw [← Option.some.inj (hversion.symm.trans hfound), hwriter] at hvisible
  cases hvisible

/-- A commit of a process which has read all that is live makes it the owner. -/
theorem Sound.owner_commit
    {rows : List Content} {seen : List ℕ} (hsound : Sound initial state)
    (hphase : state.phase process = .inserting rows seen [])
    (hcovered : state.snapshot ⊆ seen) :
    Owner (state.goto process (.committed rows)) (some process) := by
  have hclosed : (state.phase process).isCommitted = false := by
    rw [hphase]
    rfl
  have hself : ((state.goto process (.committed rows)).phase process) =
      .committed rows := update_self ..
  have htracks := hsound.tracks process
  rw [hphase] at htracks
  obtain ⟨-, -, hseen, -⟩ := htracks
  have hframe : Frame state (state.goto process (.committed rows)) process :=
    frame_goto (by rw [hphase]; rfl) _
  refine ⟨?_, ?_, ?_⟩
  · change Phase.isCommitted _ = true
    rw [hself]
    rfl
  · intro index version hversion
    change state.versions[index]? = some version at hversion
    constructor
    · intro hlive
      by_contra hother
      -- It was live before, so the process has read it and deleted it.
      have hbefore := hframe.was_live hother hlive
      have hdead := ((State.live_iff _ _ _).mp hlive).2
      rcases hseen index (hcovered
        ((State.mem_snapshot index).mpr ⟨version, hversion, hbefore⟩)) with
        hmark | hwas
      · have hnow : (state.goto process (.committed rows)).dead index = true := by
          refine (State.dead_iff _ _).mpr ⟨process, hmark, ?_⟩
          rw [hself]
          rfl
        rw [hnow] at hdead
        cases hdead
      · rw [hframe.dead hwas] at hdead
        cases hdead
    · intro howner
      rw [State.live_iff, howner]
      constructor
      · change Phase.isCommitted _ = true
        rw [hself]
        rfl
      · have hfree := hsound.not_dead_of_open hversion (howner ▸ hclosed)
        change Option.any _ (state.deleter index) = false
        rw [hfree]
        rfl
  · intro hnone
    cases hnone

/-- A commit of a process which has read rows replaced since, and which inserts
nothing, leaves the owner. -/
theorem Sound.owner_kept
    {seen : List ℕ} (hsound : Sound initial state)
    (hphase : state.phase process = .inserting [] seen [])
    (howner : Owner state owner)
    (hmissed : ¬state.snapshot ⊆ seen) :
    Owner (state.goto process (.committed [])) owner := by
  have htracks := hsound.tracks process
  rw [hphase] at htracks
  obtain ⟨hwritten, ⟨reader, hsnapshot⟩, -, hmarks⟩ := htracks
  have hframe : Frame state (state.goto process (.committed [])) process :=
    frame_goto (by rw [hphase]; rfl) _
  have hreader : owner ≠ reader := by
    intro heq
    apply hmissed
    intro index hindex
    obtain ⟨version, hversion, hlive⟩ := (State.mem_snapshot index).mp hindex
    have hwriter := (howner.iff index version hversion).mp hlive
    exact (hsnapshot.iff index version hversion).mpr (hwriter.trans heq)
  refine ⟨hframe.visible howner.visible, ?_, ?_⟩
  · intro index version hversion
    change state.versions[index]? = some version at hversion
    rw [← howner.iff index version hversion]
    constructor
    · -- The process has written nothing.
      have hne : version.1 ≠ some process := by
        intro hown
        have hmem : version.2 ∈ state.rowsOf (some process) := by
          refine List.mem_map.mpr ⟨version, List.mem_filter.mpr ⟨?_, ?_⟩, rfl⟩
          · exact List.mem_of_getElem? hversion
          · exact decide_eq_true hown
        rw [List.append_nil] at hwritten
        rw [hwritten] at hmem
        cases hmem
      exact hframe.was_live hne
    · intro hlive
      have hwriter := (howner.iff index version hversion).mp hlive
      rw [State.live_iff] at hlive ⊢
      refine ⟨hframe.visible hlive.1, ?_⟩
      rw [Bool.eq_false_iff]
      intro hnow
      obtain ⟨holder, hmark, hcommitted⟩ := (State.dead_iff _ _).mp hnow
      change state.deleter index = some holder at hmark
      by_cases hholder : holder = process
      · rw [hholder] at hmark
        have hin := hmarks index hmark
        exact hreader (hwriter.symm.trans
          ((hsnapshot.iff index version hversion).mp hin))
      · rw [hframe.phase holder hholder] at hcommitted
        have hwas := (State.dead_iff _ _).mpr ⟨holder, hmark, hcommitted⟩
        rw [hlive.2] at hwas
        cases hwas
  · intro hnone
    exact absurd hnone (howner.ne_none hsnapshot hreader)

theorem Sound.step_owned
    (hsound : Sound initial state) (hcovered : Covered state action)
    (hstep : R.step state action = some next) :
    ∃ owner, Owner next owner := by
  obtain ⟨owner, howner⟩ := hsound.owned
  have hframe := Requests.step_frame hstep
  by_cases hclosed : (next.phase action.process).isCommitted = true
  · have haction := Requests.eq_commit hstep hclosed
    rw [haction] at hstep hcovered
    obtain ⟨rows, seen, hphase, rfl⟩ := Requests.commit_cases hstep
    by_cases hall : state.snapshot ⊆ seen
    · exact ⟨_, hsound.owner_commit hphase hall⟩
    · have hrows : rows = [] := by
        cases rows with
        | nil => rfl
        | cons row rows =>
            change (state.phase action.process).Covers state.snapshot at hcovered
            rw [hphase] at hcovered
            exact absurd hcovered hall
      rw [hrows] at hphase ⊢
      exact ⟨owner, hsound.owner_kept hphase howner hall⟩
  · exact ⟨owner, hframe.owned (Bool.eq_false_iff.mpr hclosed) howner⟩

theorem Sound.step
    (hsound : Sound initial state) (hcovered : Covered state action)
    (hstep : R.step state action = some next) : Sound initial next where
  tracks other := by
    by_cases hother : other = action.process
    · rw [hother]
      exact hsound.step_self hstep
    · exact (Requests.step_frame hstep).tracks hother (hsound.tracks other)
  marked := hsound.step_marked hstep
  owned := hsound.step_owned hcovered hstep
  start := by
    have hframe := Requests.step_frame hstep
    have hne : (none : Option Process) ≠ some action.process := by
      intro heq
      cases heq
    rw [hframe.rowsOf hne, hsound.start]

theorem Accepted.step
    (haccepted : Accepted R state) (hstep : R.step state action = some next) :
    Accepted R next := by
  have hself : ∀ {process} {phase : Phase Content},
      (state.goto process phase).phase process = phase := update_self ..
  have hkept : ∀ {phase : Phase Content},
      state.phase action.process = phase → ∀ rows, phase.rows? = some rows →
        ∃ request, R.rows request = some rows := by
    intro phase hphase rows hrows
    rw [← hphase] at hrows
    exact haccepted _ rows hrows
  intro other asked hasked
  by_cases hother : other = action.process
  · rw [hother] at hasked
    cases action with
    | start process request =>
        rcases (Requests.start_cases hstep).2 with rfl | ⟨rows, hrows, rfl⟩
        · rw [Action.process, hself] at hasked
          cases hasked
        · rw [Action.process, hself] at hasked
          cases hasked
          exact ⟨request, hrows⟩
    | delete process index =>
        obtain ⟨rows, seen, left, hphase, -, ⟨-, rfl⟩ | ⟨-, -, rfl⟩⟩ :=
          Requests.delete_cases hstep
        · rw [Action.process, hself] at hasked
          exact hkept hphase asked hasked
        · simp only [Action.process, hself] at hasked
          exact hkept hphase asked hasked
    | flush process =>
        obtain ⟨rows, seen, hphase, rfl⟩ := Requests.flush_cases hstep
        rw [Action.process, hself] at hasked
        exact hkept hphase asked hasked
    | insert process =>
        obtain ⟨rows, seen, row, left, hphase, rfl | ⟨rfl, -⟩⟩ :=
          Requests.insert_cases hstep
        · rw [Action.process, hself] at hasked
          cases hasked
        · simp only [Action.process, hself] at hasked
          exact hkept hphase asked hasked
    | commit process =>
        obtain ⟨rows, seen, hphase, rfl⟩ := Requests.commit_cases hstep
        rw [Action.process, hself] at hasked
        exact hkept hphase asked hasked
    | abort process =>
        rw [(Requests.abort_cases hstep).2, Action.process, hself] at hasked
        cases hasked
  · rw [(Requests.step_frame hstep).phase other hother] at hasked
    exact haccepted other asked hasked

theorem sound_initial
    (hstart : (R.machine Process initial).Initial state) :
    Sound initial state := by
  obtain ⟨hversions, hdeleter, hphase⟩ := hstart
  have hrows : ∀ writer : Process, state.rowsOf (some writer) = [] := by
    intro writer
    simp [State.rowsOf, hversions]
  have hdead : ∀ index, state.dead index = false := by
    intro index
    rw [State.dead, hdeleter]
    rfl
  refine ⟨?_, ?_, ⟨none, rfl, ?_, ?_⟩, ?_⟩
  · intro process
    rw [hphase]
    refine ⟨hrows process, ?_⟩
    intro index hmark
    rw [hdeleter] at hmark
    cases hmark
  · intro index process hmark
    rw [hdeleter] at hmark
    cases hmark
  · intro index version hversion
    rw [State.live_iff]
    have hwriter : version.1 = none := by
      have hmem := List.mem_of_getElem? hversion
      rw [hversions] at hmem
      obtain ⟨row, -, rfl⟩ := List.mem_map.mp hmem
      rfl
    rw [hwriter]
    exact ⟨fun _ => rfl, fun _ => ⟨rfl, hdead index⟩⟩
  · intro _ process
    rw [hphase]
    rfl
  · rw [State.rowsOf, hversions, List.filter_map, List.map_map]
    have hall : initial.filter
        ((fun version : Option Process × Content => decide (version.1 = none)) ∘
          fun row => (none, row)) = initial :=
      List.filter_eq_self.mpr fun _ _ => rfl
    rw [hall]
    exact List.map_id' initial

theorem accepted_initial
    (hstart : (R.machine Process initial).Initial state) :
    Accepted R state := by
  intro process rows hrows
  rw [hstart.2.2] at hrows
  cases hrows

/-- What the rows are: those of the beginning, or those of one request which has
been committed. -/
def Outcome (R : Requests Request Content) (initial : List Content)
    (state : State Process Content) : Prop :=
  (state.liveRows = initial ∧
    ∀ process, (state.phase process).isCommitted = false) ∨
  ∃ process request rows, R.rows request = some rows ∧
    state.phase process = .committed rows ∧ state.liveRows = rows

theorem Sound.outcome
    (hsound : Sound initial state) (haccepted : Accepted R state) :
    Outcome R initial state := by
  obtain ⟨owner, howner⟩ := hsound.owned
  cases owner with
  | none =>
      refine .inl ⟨?_, howner.start rfl⟩
      rw [howner.liveRows, hsound.start]
  | some process =>
      have hvisible : (state.phase process).isCommitted = true := howner.visible
      have htracks := hsound.tracks process
      cases hphase : state.phase process with
      | committed rows =>
          rw [hphase] at htracks
          obtain ⟨request, hrequest⟩ :=
            haccepted process rows (by rw [hphase]; rfl)
          exact .inr ⟨process, request, rows, hrequest, hphase,
            howner.liveRows.trans htracks⟩
      | _ =>
          rw [hphase] at hvisible
          cases hvisible

/-- In a run whose commits have read all that is live, no two lists are mixed. -/
theorem covered_outcome
    (hreach : (R.machine Process initial).ReachableWhere Covered state) :
    Outcome R initial state := by
  have hinvariant : Sound initial state := by
    refine Machine.ReachableWhere.invariant ?_ ?_ hreach
    · intro _ hstart
      exact sound_initial hstart
    · intro _ _ _ hsound hcovered hstep
      exact hsound.step hcovered hstep
  have haccepted : Accepted R state := by
    refine Machine.Reachable.invariant ?_ ?_ hreach.reachable
    · intro _ hstart
      exact accepted_initial hstart
    · intro _ _ _ hbefore hstep
      exact hbefore.step hstep
  exact hinvariant.outcome haccepted

end Steps

end NotifyHub.Replacement
