import NotifyHub.TransitionMachine
import Mathlib.Tactic

/-!
# Replacing the rows of one owner

Every process reads the rows that are there, deletes them in any order and then
inserts rows of its own, in one transaction under READ COMMITTED.  A row version
has the process which has inserted it, and the process which has deleted it
last; both count from the commit of that process on.  A process waits for the
end of another one which has deleted the row it wants to delete, or which holds
a row that its own insertion would violate.

What a process has not read it does not delete.  So two replacements which have
read the same rows leave both their lists behind, unless a constraint stands in
the way: where any two lists contain rows which conflict, a process can commit
only if it has read all the rows of the moment.
-/

namespace NotifyHub.Replacement

open Function

/-- What the transaction of a process has read, and what it still has to delete
or to insert. -/
inductive Phase (Content : Type*)
  | idle
  | deleting (rows : List Content) (seen left : List ℕ)
  | inserting (rows : List Content) (seen : List ℕ) (left : List Content)
  | committed (rows : List Content)
  | aborted

namespace Phase

variable {Content : Type*}

def isCommitted : Phase Content → Bool
  | .committed _ => true
  | _ => false

def isRunning : Phase Content → Bool
  | .deleting .. | .inserting .. => true
  | _ => false

/-- The request has not been answered. -/
def isOpen : Phase Content → Bool
  | .committed _ | .aborted => false
  | _ => true

theorem isOpen_of_isRunning
    {phase : Phase Content} (hrunning : phase.isRunning = true) :
    phase.isOpen = true := by
  cases phase with
  | idle | committed rows | aborted => cases hrunning
  | _ => rfl

theorem isCommitted_of_isOpen
    {phase : Phase Content} (hopened : phase.isOpen = true) :
    phase.isCommitted = false := by
  cases phase with
  | committed rows => cases hopened
  | _ => rfl

end Phase

/-- The versions in the order of their insertion, each with its writer; the
first ones have none. -/
structure State (Process Content : Type*) where
  versions : List (Option Process × Content)
  deleter : ℕ → Option Process
  phase : Process → Phase Content

inductive Action (Process Request : Type*)
  | start (process : Process) (request : Request)
  | delete (process : Process) (index : ℕ)
  | flush (process : Process)
  | insert (process : Process)
  | commit (process : Process)
  | abort (process : Process)

section Machine

variable {Process Content Request : Type*}

namespace State

variable (state : State Process Content)

/-- The writer of a version has committed. -/
def visible (writer : Option Process) : Bool :=
  writer.all fun process => (state.phase process).isCommitted

/-- The deleter of a version has committed. -/
def dead (index : ℕ) : Bool :=
  (state.deleter index).any fun process => (state.phase process).isCommitted

def live (index : ℕ) (writer : Option Process) : Bool :=
  state.visible writer && !state.dead index

/-- The committed rows which nobody has deleted. -/
def liveVersions : List ((Option Process × Content) × ℕ) :=
  state.versions.zipIdx.filter fun entry => state.live entry.2 entry.1.1

def liveRows : List Content :=
  state.liveVersions.map fun entry => entry.1.2

/-- What a statement sees. -/
def snapshot : List ℕ :=
  state.liveVersions.map Prod.snd

variable [DecidableEq Process]

def goto (process : Process) (phase : Phase Content) : State Process Content :=
  { state with phase := update state.phase process phase }

/-- A version is in the way of a row of a process: its transaction runs, or the
one which deletes it does. -/
def blocks (process : Process) (index : ℕ) (writer : Option Process) : Bool :=
  writer.any (fun other => other ≠ process && (state.phase other).isRunning) ||
    (state.deleter index).any fun other =>
      other ≠ process && (state.phase other).isRunning

/-- A version excludes a row of a process: it is its own or committed, and
neither the process nor a committed one has deleted it. -/
def excludes (process : Process) (index : ℕ) (writer : Option Process) : Bool :=
  (writer = some process || state.visible writer) && !state.dead index &&
    state.deleter index ≠ some process

end State

/-- What a request wants the rows to be, unless it is refused, and which rows a
constraint keeps apart. -/
structure Requests (Request Content : Type*) where
  rows : Request → Option (List Content)
  conflicts : Content → Content → Bool

variable [DecidableEq Process] (R : Requests Request Content)

/-- The insertion of one row. -/
def Requests.insert
    (state : State Process Content) (process : Process) (rows : List Content)
    (seen : List ℕ) (row : Content) (left : List Content) :
    Option (State Process Content) :=
  let rivals := state.versions.zipIdx.filter fun entry =>
    R.conflicts entry.1.2 row
  if rivals.any fun entry => state.blocks process entry.2 entry.1.1 then none
  else if rivals.any fun entry =>
      state.excludes process entry.2 entry.1.1 then
    some (state.goto process .aborted)
  else
    some { state.goto process (.inserting rows seen left) with
      versions := state.versions ++ [(some process, row)] }

def Requests.step (state : State Process Content) :
    Action Process Request → Option (State Process Content)
  | .start process request =>
      match state.phase process, R.rows request with
      | .idle, some rows =>
          some (state.goto process
            (.deleting rows state.snapshot state.snapshot))
      | .idle, none => some (state.goto process .aborted)
      | _, _ => none
  | .delete process index =>
      match state.phase process with
      | .deleting rows seen left =>
          if index ∉ left then none
          else if state.dead index then
            some (state.goto process (.deleting rows seen (left.erase index)))
          else if (state.deleter index).any fun other =>
              (state.phase other).isRunning then none
          else
            some { state.goto process
                (.deleting rows seen (left.erase index)) with
              deleter := update state.deleter index (some process) }
      | _ => none
  | .flush process =>
      match state.phase process with
      | .deleting rows seen [] =>
          some (state.goto process (.inserting rows seen rows))
      | _ => none
  | .insert process =>
      match state.phase process with
      | .inserting rows seen (row :: left) =>
          R.insert state process rows seen row left
      | _ => none
  | .commit process =>
      match state.phase process with
      | .inserting rows _ [] => some (state.goto process (.committed rows))
      | _ => none
  | .abort process =>
      if (state.phase process).isRunning then
        some (state.goto process .aborted)
      else none

/-- The rows of the beginning do not conflict. -/
def Requests.machine (Process : Type*) [DecidableEq Process]
    (initial : List Content) :
    Machine (State Process Content) (Action Process Request) where
  Initial state :=
    state.versions = initial.map (fun row => (none, row)) ∧
      (∀ index, state.deleter index = none) ∧
      ∀ process, state.phase process = .idle
  step := R.step

/-! ## What a step of one process leaves to the others -/

def Action.process : Action Process Request → Process
  | .start process _ | .delete process _ | .flush process | .insert process
  | .commit process | .abort process => process

/-- A process which has not ended adds versions of its own, marks versions whose
deleter has neither committed nor is running, and changes its phase. -/
structure Frame
    (state next : State Process Content) (process : Process) : Prop where
  opened : (state.phase process).isOpen = true
  phase : ∀ other, other ≠ process → next.phase other = state.phase other
  versions : ∃ added, next.versions = state.versions ++ added ∧
    ∀ version ∈ added, version.1 = some process
  deleter : ∀ index, next.deleter index = state.deleter index ∨
    (next.deleter index = some process ∧ state.dead index = false ∧
      (next.phase process).isRunning = true ∧
      ∀ other, state.deleter index = some other →
        (state.phase other).isRunning = false)

section Frames

variable {R} {state next : State Process Content} {process other : Process}
  {action : Action Process Request} {rows : List Content} {seen : List ℕ}

theorem frame_goto
    (hopened : (state.phase process).isOpen = true)
    (phase : Phase Content) : Frame state (state.goto process phase) process where
  opened := hopened
  phase _ hother := update_of_ne hother ..
  versions := ⟨[], (List.append_nil _).symm, by simp⟩
  deleter _ := .inl rfl

theorem frame_mark
    {index : ℕ} (hopened : (state.phase process).isOpen = true)
    (hdead : state.dead index = false)
    (hholder : ∀ other, state.deleter index = some other →
      (state.phase other).isRunning = false)
    {phase : Phase Content} (hrunning : phase.isRunning = true) :
    Frame state { state.goto process phase with
      deleter := update state.deleter index (some process) } process where
  opened := hopened
  phase _ hother := update_of_ne hother ..
  versions := ⟨[], (List.append_nil _).symm, by simp⟩
  deleter other := by
    by_cases hother : other = index
    · subst hother
      refine .inr ⟨update_self .., hdead, ?_, hholder⟩
      change (update state.phase process phase process).isRunning = true
      rw [update_self]
      exact hrunning
    · exact .inl (update_of_ne hother ..)

/-- What the deletion of one row does. -/
theorem Requests.delete_cases
    {index : ℕ} (hstep : R.step state (.delete process index) = some next) :
    ∃ rows seen left, state.phase process = .deleting rows seen left ∧
      index ∈ left ∧
      ((state.dead index = true ∧
        next = state.goto process
          (.deleting rows seen (left.erase index))) ∨
      (state.dead index = false ∧
        (∀ other, state.deleter index = some other →
          (state.phase other).isRunning = false) ∧
        next = { state.goto process
            (.deleting rows seen (left.erase index)) with
          deleter := update state.deleter index (some process) })) := by
  simp only [Requests.step] at hstep
  split at hstep
  next rows seen left hphase =>
    refine ⟨rows, seen, left, hphase, ?_⟩
    split at hstep
    next => cases hstep
    next hleft =>
      refine ⟨not_not.mp hleft, ?_⟩
      split at hstep
      next hdead => exact .inl ⟨hdead, (Option.some.inj hstep).symm⟩
      next hdead =>
        split at hstep
        next => cases hstep
        next hrunning =>
          refine .inr ⟨Bool.eq_false_iff.mpr hdead, ?_,
            (Option.some.inj hstep).symm⟩
          intro holder hholder
          rw [hholder, Option.any_some] at hrunning
          exact Bool.eq_false_iff.mpr hrunning
  next => cases hstep

/-- What the insertion of one row does. -/
theorem Requests.insert_cases
    (hstep : R.step state (.insert process) = some next) :
    ∃ rows seen row left,
      state.phase process = .inserting rows seen (row :: left) ∧
      (next = state.goto process .aborted ∨
      (next = { state.goto process (.inserting rows seen left) with
          versions := state.versions ++ [(some process, row)] } ∧
        ∀ index version, state.versions[index]? = some version →
          R.conflicts version.2 row = true →
            state.blocks process index version.1 = false ∧
            state.excludes process index version.1 = false)) := by
  simp only [Requests.step] at hstep
  split at hstep
  next rows seen row left hphase =>
    refine ⟨rows, seen, row, left, hphase, ?_⟩
    simp only [Requests.insert] at hstep
    split at hstep
    next => cases hstep
    next hblocks =>
      split at hstep
      next => exact .inl (Option.some.inj hstep).symm
      next hexcludes =>
        refine .inr ⟨(Option.some.inj hstep).symm, ?_⟩
        intro index version hversion hconflicts
        have hrival : (version, index) ∈ state.versions.zipIdx.filter
            fun entry => R.conflicts entry.1.2 row := by
          rw [List.mem_filter]
          exact ⟨List.mk_mem_zipIdx_iff_getElem?.mpr hversion, hconflicts⟩
        rw [List.any_eq_true, not_exists] at hblocks hexcludes
        constructor
        · exact Bool.eq_false_iff.mpr fun h => hblocks _ ⟨hrival, h⟩
        · exact Bool.eq_false_iff.mpr fun h => hexcludes _ ⟨hrival, h⟩
  next => cases hstep

/-- What the commit does. -/
theorem Requests.commit_cases
    (hstep : R.step state (.commit process) = some next) :
    ∃ rows seen, state.phase process = .inserting rows seen [] ∧
      next = state.goto process (.committed rows) := by
  simp only [Requests.step] at hstep
  split at hstep
  next rows seen hphase =>
    exact ⟨rows, seen, hphase, (Option.some.inj hstep).symm⟩
  next => cases hstep

/-- What the other steps do. -/
theorem Requests.start_cases
    {request : Request}
    (hstep : R.step state (.start process request) = some next) :
    state.phase process = .idle ∧
      (next = state.goto process .aborted ∨
        ∃ rows, R.rows request = some rows ∧ next = state.goto process
          (.deleting rows state.snapshot state.snapshot)) := by
  simp only [Requests.step] at hstep
  split at hstep
  next rows hphase hrows =>
    exact ⟨hphase, .inr ⟨rows, hrows, (Option.some.inj hstep).symm⟩⟩
  next hphase _ => exact ⟨hphase, .inl (Option.some.inj hstep).symm⟩
  next => cases hstep

theorem Requests.flush_cases
    (hstep : R.step state (.flush process) = some next) :
    ∃ rows seen, state.phase process = .deleting rows seen [] ∧
      next = state.goto process (.inserting rows seen rows) := by
  simp only [Requests.step] at hstep
  split at hstep
  next rows seen hphase =>
    exact ⟨rows, seen, hphase, (Option.some.inj hstep).symm⟩
  next => cases hstep

theorem Requests.abort_cases
    (hstep : R.step state (.abort process) = some next) :
    (state.phase process).isRunning = true ∧
      next = state.goto process .aborted := by
  simp only [Requests.step] at hstep
  split at hstep
  next hrunning => exact ⟨hrunning, (Option.some.inj hstep).symm⟩
  next => cases hstep

theorem Requests.step_frame
    (hstep : R.step state action = some next) :
    Frame state next action.process := by
  have hopened : ∀ {process} {phase : Phase Content},
      state.phase process = phase → phase.isOpen = true →
        (state.phase process).isOpen = true := fun h ho => h ▸ ho
  cases action with
  | start process request =>
      have hcases := Requests.start_cases hstep
      have ho := hopened hcases.1 rfl
      rcases hcases.2 with rfl | ⟨rows, -, rfl⟩
      · exact frame_goto ho _
      · exact frame_goto ho _
  | delete process index =>
      obtain ⟨rows, seen, left, hphase, -, ⟨-, rfl⟩ | ⟨hdead, hholder, rfl⟩⟩ :=
        Requests.delete_cases hstep
      · exact frame_goto (hopened hphase rfl) _
      · exact frame_mark (hopened hphase rfl) hdead hholder rfl
  | flush process =>
      obtain ⟨rows, seen, hphase, rfl⟩ := Requests.flush_cases hstep
      exact frame_goto (hopened hphase rfl) _
  | insert process =>
      obtain ⟨rows, seen, row, left, hphase, rfl | ⟨rfl, -⟩⟩ :=
        Requests.insert_cases hstep
      · exact frame_goto (hopened hphase rfl) _
      · have hgoto := frame_goto (hopened hphase rfl)
          (.inserting rows seen left)
        refine ⟨hgoto.opened, hgoto.phase, ⟨_, rfl, ?_⟩, hgoto.deleter⟩
        intro version hversion
        rw [List.mem_singleton.mp hversion]
        rfl
  | commit process =>
      obtain ⟨rows, seen, hphase, rfl⟩ := Requests.commit_cases hstep
      exact frame_goto (hopened hphase rfl) _
  | abort process =>
      have hcases := Requests.abort_cases hstep
      rw [hcases.2]
      exact frame_goto (Phase.isOpen_of_isRunning hcases.1) _

/-- Only a commit commits. -/
theorem Requests.eq_commit
    (hstep : R.step state action = some next)
    (hcommitted : (next.phase action.process).isCommitted = true) :
    action = .commit action.process := by
  have hself : ∀ {process} {phase : Phase Content},
      (state.goto process phase).phase process = phase := update_self ..
  cases action with
  | start process request =>
      rcases (Requests.start_cases hstep).2 with rfl | ⟨rows, -, rfl⟩
      · rw [Action.process, hself] at hcommitted
        cases hcommitted
      · rw [Action.process, hself] at hcommitted
        cases hcommitted
  | delete process index =>
      obtain ⟨rows, seen, left, -, -, ⟨-, rfl⟩ | ⟨-, -, rfl⟩⟩ :=
        Requests.delete_cases hstep
      · rw [Action.process, hself] at hcommitted
        cases hcommitted
      · simp only [Action.process, hself] at hcommitted
        cases hcommitted
  | flush process =>
      obtain ⟨rows, seen, -, rfl⟩ := Requests.flush_cases hstep
      rw [Action.process, hself] at hcommitted
      cases hcommitted
  | insert process =>
      obtain ⟨rows, seen, row, left, -, rfl | ⟨rfl, -⟩⟩ :=
        Requests.insert_cases hstep
      · rw [Action.process, hself] at hcommitted
        cases hcommitted
      · simp only [Action.process, hself] at hcommitted
        cases hcommitted
  | commit process => rfl
  | abort process =>
      rw [(Requests.abort_cases hstep).2, Action.process, hself] at hcommitted
      cases hcommitted

/-- Only an insertion adds a version, and it has found nothing in its way. -/
theorem Requests.added_cases
    {index : ℕ} {added : Option Process × Content}
    (hstep : R.step state action = some next)
    (hold : state.versions[index]? = none)
    (hadded : next.versions[index]? = some added) :
    next.deleter = state.deleter ∧
      ∀ old version, state.versions[old]? = some version →
        R.conflicts version.2 added.2 = true →
          state.blocks action.process old version.1 = false ∧
          state.excludes action.process old version.1 = false := by
  have hgrown : next.versions ≠ state.versions := by
    intro hsame
    rw [hsame, hold] at hadded
    cases hadded
  cases action with
  | start process request =>
      rcases (Requests.start_cases hstep).2 with rfl | ⟨rows, -, rfl⟩
      · exact absurd rfl hgrown
      · exact absurd rfl hgrown
  | delete process index =>
      obtain ⟨rows, seen, left, -, -, ⟨-, rfl⟩ | ⟨-, -, rfl⟩⟩ :=
        Requests.delete_cases hstep
      · exact absurd rfl hgrown
      · exact absurd rfl hgrown
  | flush process =>
      obtain ⟨rows, seen, -, rfl⟩ := Requests.flush_cases hstep
      exact absurd rfl hgrown
  | insert process =>
      obtain ⟨rows, seen, row, left, -, rfl | ⟨rfl, hrivals⟩⟩ :=
        Requests.insert_cases hstep
      · exact absurd rfl hgrown
      · have hlast : added = (some process, row) := by
          have hge := List.getElem?_eq_none_iff.mp hold
          change (state.versions ++ [(some process, row)])[index]? =
            some added at hadded
          rw [List.getElem?_append_right hge] at hadded
          exact List.mem_singleton.mp (List.mem_of_getElem? hadded)
        rw [hlast]
        exact ⟨rfl, hrivals⟩
  | commit process =>
      obtain ⟨rows, seen, -, rfl⟩ := Requests.commit_cases hstep
      exact absurd rfl hgrown
  | abort process =>
      obtain ⟨-, rfl⟩ := Requests.abort_cases hstep
      exact absurd rfl hgrown

end Frames

end Machine

end NotifyHub.Replacement
