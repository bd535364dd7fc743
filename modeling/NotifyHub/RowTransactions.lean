import Mathlib.Tactic

/-!
# Transactions on one row

Under READ COMMITTED the first write of a transaction to a row waits for the
lock of the row, and the transaction keeps the lock until it ends.  What a
process has read before may be out of date by then: of the version it has
computed from it, only the columns whose value it has changed are written.

Every commit adds the event it stands for to a log.  In a state which keeps
the discipline of the lock, the row is what the log makes of the first
version, so a property of runs is a property of lists of events.
-/

namespace NotifyHub

/-! ## Changed columns -/

/-- One column after the UPDATE of a process which has loaded one value and
computed another. -/
def writeBack {α : Type*} [DecidableEq α] (loaded final stored : α) : α :=
  if final = loaded then stored else final

theorem writeBack_of_eq
    {α : Type*} [DecidableEq α] {loaded final : α} (hsame : final = loaded)
    (stored : α) : writeBack loaded final stored = stored :=
  if_pos hsame

theorem writeBack_of_ne
    {α : Type*} [DecidableEq α] {loaded final : α} (hchanged : final ≠ loaded)
    (stored : α) : writeBack loaded final stored = final :=
  if_neg hchanged

/-! ## Rows with a log -/

/-- A row, the holder of its lock, what each process is doing, and the events
committed so far, the newest first. -/
structure RowState (Process Row Event Phase : Type*) where
  row : Row
  holder : Option Process
  phase : Process → Phase
  log : List Event

/-- What a process in some phase is about to commit, and what an event does
to the row. -/
structure RowProtocol (Row Event Phase : Type*) where
  prepared : Phase → Option (Row × Event)
  effect : Row → Event → Option Row

variable {Process Row Event Phase : Type*}

/-- The row after the events of a log. -/
def RowProtocol.replay
    (P : RowProtocol Row Event Phase) (first : Row) :
    List Event → Option Row
  | [] => some first
  | event :: earlier =>
      (P.replay first earlier).bind fun row => P.effect row event

@[simp] theorem RowProtocol.replay_nil
    (P : RowProtocol Row Event Phase) (first : Row) :
    P.replay first [] = some first := rfl

@[simp] theorem RowProtocol.replay_cons
    (P : RowProtocol Row Event Phase) (first : Row)
    (event : Event) (earlier : List Event) :
    P.replay first (event :: earlier) =
      (P.replay first earlier).bind fun row => P.effect row event := rfl

/-- The invariant rule for logs. -/
theorem RowProtocol.replay_invariant
    {P : RowProtocol Row Event Phase} {first : Row}
    {Inv : Row → List Event → Prop} (hfirst : Inv first [])
    (heffect : ∀ row event next log,
      Inv row log → P.effect row event = some next → Inv next (event :: log))
    {log : List Event} {row : Row} (hlog : P.replay first log = some row) :
    Inv row log := by
  induction log generalizing row with
  | nil =>
      rw [RowProtocol.replay_nil, Option.some.injEq] at hlog
      exact hlog ▸ hfirst
  | cons event earlier ih =>
      obtain ⟨before, hbefore, heffects⟩ := Option.bind_eq_some_iff.mp hlog
      exact heffect before event row earlier (ih hbefore) heffects

/-- The history of a row reaches back to every event in its log. -/
theorem RowProtocol.replay_append
    {P : RowProtocol Row Event Phase} {first row : Row}
    {later earlier : List Event}
    (hlog : P.replay first (later ++ earlier) = some row) :
    ∃ middle, P.replay first earlier = some middle := by
  induction later generalizing row with
  | nil => exact ⟨row, hlog⟩
  | cons event rest ih =>
      obtain ⟨before, hbefore, -⟩ := Option.bind_eq_some_iff.mp hlog
      exact ih hbefore

/-- Only the holder of the lock is about to commit, and what it has prepared
is the effect of its event on the row as it is. -/
def RowState.Disciplined
    (P : RowProtocol Row Event Phase)
    (state : RowState Process Row Event Phase) : Prop :=
  ∀ process row event,
    P.prepared (state.phase process) = some (row, event) →
      state.holder = some process ∧ P.effect state.row event = some row

structure RowState.Recorded
    (P : RowProtocol Row Event Phase) (first : Row)
    (state : RowState Process Row Event Phase) : Prop where
  disciplined : state.Disciplined P
  replayed : P.replay first state.log = some state.row

namespace RowState

variable [DecidableEq Process]

/-- The process goes on, with the lock left as it is. -/
def goto
    (state : RowState Process Row Event Phase) (process : Process)
    (phase : Phase) : RowState Process Row Event Phase :=
  { state with phase := Function.update state.phase process phase }

def take
    (state : RowState Process Row Event Phase) (process : Process)
    (phase : Phase) : RowState Process Row Event Phase :=
  { state.goto process phase with holder := some process }

/-- The end of a transaction which leaves the row as it is. -/
def release
    (state : RowState Process Row Event Phase) (process : Process)
    (phase : Phase) : RowState Process Row Event Phase :=
  { state.goto process phase with
    holder := if state.holder = some process then none else state.holder }

def commit
    (state : RowState Process Row Event Phase) (process : Process)
    (phase : Phase) (row : Row) (event : Event) :
    RowState Process Row Event Phase :=
  { state.goto process phase with
    row := row
    holder := none
    log := event :: state.log }

variable {P : RowProtocol Row Event Phase} {first : Row}
variable {state : RowState Process Row Event Phase} {process : Process}

@[simp] theorem goto_phase_self (phase : Phase) :
    (state.goto process phase).phase process = phase := by
  simp [goto]

theorem goto_phase_of_ne {other : Process} (hne : other ≠ process)
    (phase : Phase) :
    (state.goto process phase).phase other = state.phase other := by
  simp [goto, hne]

@[simp] theorem goto_row (phase : Phase) :
    (state.goto process phase).row = state.row := rfl

@[simp] theorem take_row (phase : Phase) :
    (state.take process phase).row = state.row := rfl

@[simp] theorem release_row (phase : Phase) :
    (state.release process phase).row = state.row := rfl

@[simp] theorem commit_row (phase : Phase) (row : Row) (event : Event) :
    (state.commit process phase row event).row = row := rfl

@[simp] theorem take_phase (phase : Phase) :
    (state.take process phase).phase =
      (state.goto process phase).phase := rfl

@[simp] theorem release_phase (phase : Phase) :
    (state.release process phase).phase =
      (state.goto process phase).phase := rfl

@[simp] theorem commit_phase (phase : Phase) (row : Row) (event : Event) :
    (state.commit process phase row event).phase =
      (state.goto process phase).phase := rfl

omit [DecidableEq Process] in
theorem Disciplined.other
    (hstate : state.Disciplined P) (hheld : state.holder = some process)
    {other : Process} (hne : other ≠ process) :
    P.prepared (state.phase other) = none := by
  by_contra hprepared
  obtain ⟨⟨row, event⟩, hwrite⟩ := Option.ne_none_iff_exists'.mp hprepared
  obtain ⟨hholder, -⟩ := hstate other row event hwrite
  rw [hheld] at hholder
  exact hne (Option.some.inj hholder).symm

theorem Recorded.goto
    (hstate : state.Recorded P first) {phase : Phase}
    (hphase : P.prepared phase = none) :
    (state.goto process phase).Recorded P first := by
  refine ⟨fun other row event hwrite => ?_, hstate.replayed⟩
  by_cases heq : other = process
  · subst other
    rw [goto_phase_self, hphase] at hwrite
    contradiction
  · rw [goto_phase_of_ne heq] at hwrite
    exact hstate.disciplined other row event hwrite

/-- Taking a free lock, and preparing the effect of an event if any. -/
theorem Recorded.take
    (hstate : state.Recorded P first) (hfree : state.holder = none)
    {phase : Phase}
    (hphase : ∀ row event, P.prepared phase = some (row, event) →
      P.effect state.row event = some row) :
    (state.take process phase).Recorded P first := by
  refine ⟨fun other row event hwrite => ?_, hstate.replayed⟩
  by_cases heq : other = process
  · subst other
    rw [take_phase, goto_phase_self] at hwrite
    exact ⟨rfl, hphase row event hwrite⟩
  · rw [take_phase, goto_phase_of_ne heq] at hwrite
    obtain ⟨hholder, -⟩ := hstate.disciplined other row event hwrite
    rw [hfree] at hholder
    contradiction

theorem Recorded.release
    (hstate : state.Recorded P first) {phase : Phase}
    (hphase : P.prepared phase = none) :
    (state.release process phase).Recorded P first := by
  refine ⟨fun other row event hwrite => ?_, hstate.replayed⟩
  by_cases heq : other = process
  · subst other
    rw [release_phase, goto_phase_self, hphase] at hwrite
    contradiction
  · rw [release_phase, goto_phase_of_ne heq] at hwrite
    obtain ⟨hholder, heffect⟩ := hstate.disciplined other row event hwrite
    refine ⟨?_, heffect⟩
    have hkept : state.holder ≠ some process := by
      rw [hholder]
      exact fun hsame => heq (Option.some.inj hsame)
    rw [RowState.release, if_neg hkept]
    exact hholder

theorem Recorded.commit
    (hstate : state.Recorded P first) {row : Row} {event : Event}
    (hwrites : P.prepared (state.phase process) = some (row, event))
    {phase : Phase} (hphase : P.prepared phase = none) :
    (state.commit process phase row event).Recorded P first := by
  obtain ⟨hheld, heffect⟩ := hstate.disciplined process row event hwrites
  constructor
  · intro other next written hwrite
    by_cases heq : other = process
    · subst other
      rw [commit_phase, goto_phase_self, hphase] at hwrite
      contradiction
    · rw [commit_phase, goto_phase_of_ne heq] at hwrite
      rw [hstate.disciplined.other hheld heq] at hwrite
      contradiction
  · simp only [RowState.commit, RowProtocol.replay_cons, hstate.replayed,
      Option.bind_some, heffect]

/-- The four ways in which a step of a process touches the row. -/
inductive Moves
    (P : RowProtocol Row Event Phase)
    (state : RowState Process Row Event Phase) (process : Process) :
    RowState Process Row Event Phase → Prop
  | goto (phase : Phase) (hphase : P.prepared phase = none) :
      Moves P state process (state.goto process phase)
  | take (phase : Phase) (hfree : state.holder = none)
      (hphase : ∀ row event, P.prepared phase = some (row, event) →
        P.effect state.row event = some row) :
      Moves P state process (state.take process phase)
  | release (phase : Phase) (hphase : P.prepared phase = none) :
      Moves P state process (state.release process phase)
  | commit (phase : Phase) (row : Row) (event : Event)
      (hwrites : P.prepared (state.phase process) = some (row, event))
      (hphase : P.prepared phase = none) :
      Moves P state process (state.commit process phase row event)

theorem Moves.recorded
    {next : RowState Process Row Event Phase}
    (hmoves : Moves P state process next) (hstate : state.Recorded P first) :
    next.Recorded P first := by
  cases hmoves with
  | goto phase hphase => exact hstate.goto hphase
  | take phase hfree hphase => exact hstate.take hfree hphase
  | release phase hphase => exact hstate.release hphase
  | commit phase row event hwrites hphase =>
      exact hstate.commit hwrites hphase

/-- A step of one process leaves the phases of the others. -/
theorem Moves.phase_of_ne
    {next : RowState Process Row Event Phase}
    (hmoves : Moves P state process next) {other : Process}
    (hne : other ≠ process) : next.phase other = state.phase other := by
  cases hmoves with
  | _ => exact goto_phase_of_ne hne _

/-- A step leaves the row and the log, or it adds one event to them. -/
theorem Moves.row_log
    {next : RowState Process Row Event Phase}
    (hmoves : Moves P state process next) (hstate : state.Recorded P first) :
    (next.row = state.row ∧ next.log = state.log) ∨
      ∃ event, P.prepared (state.phase process) = some (next.row, event) ∧
        P.effect state.row event = some next.row ∧
        next.log = event :: state.log := by
  cases hmoves with
  | commit phase row event hwrites hphase =>
      exact Or.inr ⟨event, hwrites,
        (hstate.disciplined process row event hwrites).2, rfl⟩
  | _ => exact Or.inl ⟨rfl, rfl⟩

omit [DecidableEq Process] in
theorem Recorded.of_initial
    (hrow : state.row = first) (hlog : state.log = [])
    (hphase : ∀ process, P.prepared (state.phase process) = none) :
    state.Recorded P first := by
  refine ⟨fun process row event hwrite => ?_, by rw [hlog, hrow]; rfl⟩
  rw [hphase process] at hwrite
  contradiction

end RowState

end NotifyHub
