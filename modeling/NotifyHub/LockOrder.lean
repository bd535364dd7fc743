import NotifyHub.RowLocks
import Mathlib.Logic.Function.Basic
import Mathlib.Logic.Relation
import Mathlib.Tactic

/-!
# Locks taken in an order

A transaction still wants some locks, one after the other, and holds all it
got until it ends.  A request, of a row in a mode, has a level, and what a
transaction wants next stands above every request which would have to wait for
it, unless it has that lock, or a stronger one, already.  Then nobody waits for
a transaction which waits for it, over however many others: whoever waits stands
below the one it waits for.
-/

namespace NotifyHub

/-- A lock which gives all that another one gives. -/
def LockMode.covers : LockMode → LockMode → Bool
  | .forUpdate, _ => true
  | .noKeyUpdate, .forUpdate => false
  | .noKeyUpdate, _ => true
  | .keyShare, .keyShare => true
  | .keyShare, _ => false

namespace LockOrder

variable {Process Row : Type*}

/-- The locks of all rows, and those which the processes in a transaction
still want. -/
structure Locking (Process Row : Type*) where
  lock : Row → RowLock Process
  wanted : Process → Option (List (Row × LockMode))

/-- A process has to wait for another one. -/
def WaitsFor (state : Locking Process Row) (process other : Process) : Prop :=
  ∃ row mode rest held, state.wanted process = some ((row, mode) :: rest) ∧
    (state.lock row).Holds other held ∧ held.conflicts mode = true ∧
      other ≠ process

/-- What would have to wait for a lock stands below a level. -/
def Below
    (level : Row × LockMode → ℕ) (entry : Row × LockMode) (bound : ℕ) : Prop :=
  ∀ mode, entry.2.conflicts mode = true → level (entry.1, mode) < bound

/-- The lock is there already, or whoever waits for the transaction stands
below it. -/
def Next
    (level : Row × LockMode → ℕ) (held : List (Row × LockMode))
    (request : Row × LockMode) : Prop :=
  (∃ entry ∈ held, entry.1 = request.1 ∧ entry.2.covers request.2 = true) ∨
    ∀ entry ∈ held, Below level entry (level request)

/-- Locks which may be taken one after the other, on top of those held. -/
def Planned (level : Row × LockMode → ℕ) :
    List (Row × LockMode) → List (Row × LockMode) → Prop
  | _, [] => True
  | held, request :: rest =>
      Next level held request ∧ Planned level (request :: held) rest

/-- Outside a transaction a process holds nothing, and in one it takes the
rest in order. -/
def Ordered
    (level : Row × LockMode → ℕ) (state : Locking Process Row) (process : Process) :
    Prop :=
  match state.wanted process with
  | none => ∀ row mode, ¬(state.lock row).Holds process mode
  | some rest =>
      ∃ held, (∀ row mode, (state.lock row).Holds process mode ↔
        (row, mode) ∈ held) ∧ Planned level held rest

theorem ordered_idle
    {level : Row × LockMode → ℕ} {state : Locking Process Row} {process : Process}
    (hordered : Ordered level state process)
    (hidle : state.wanted process = none) (row : Row) (mode : LockMode) :
    ¬(state.lock row).Holds process mode := by
  rw [Ordered, hidle] at hordered
  exact hordered row mode

theorem ordered_open
    {level : Row × LockMode → ℕ} {state : Locking Process Row} {process : Process}
    {rest : List (Row × LockMode)} (hordered : Ordered level state process)
    (hwanted : state.wanted process = some rest) :
    ∃ held, (∀ row mode, (state.lock row).Holds process mode ↔
      (row, mode) ∈ held) ∧ Planned level held rest := by
  rw [Ordered, hwanted] at hordered
  exact hordered

section Waits

variable {level : Row × LockMode → ℕ} {state : Locking Process Row}
  {process other third : Process}

/-- The level of the lock a process wants next. -/
def rank
    (level : Row × LockMode → ℕ) (state : Locking Process Row)
    (process : Process) : ℕ :=
  match state.wanted process with
  | some (request :: _) => level request
  | _ => 0

end Waits

section Steps

variable [DecidableEq Process] [DecidableEq Row]

/-- What a process does to the locks: it begins a transaction, takes the lock
it wants next, does without some, or ends the transaction. -/
inductive Move
    (level : Row × LockMode → ℕ) (state : Locking Process Row) (process : Process) :
    Locking Process Row → Prop
  | begins {requests : List (Row × LockMode)}
      (hidle : state.wanted process = none)
      (hplanned : Planned level [] requests) :
      Move level state process
        { state with
          wanted := Function.update state.wanted process (some requests) }
  | takes {row : Row} {mode : LockMode} {rest : List (Row × LockMode)}
      {lock : RowLock Process}
      (hwanted : state.wanted process = some ((row, mode) :: rest))
      (hacquire : (state.lock row).acquire process mode = some lock) :
      Move level state process
        { lock := Function.update state.lock row lock
          wanted := Function.update state.wanted process (some rest) }
  | skips {requests rest : List (Row × LockMode)}
      (hwanted : state.wanted process = some requests)
      (hplanned : ∀ held, Planned level held requests →
        Planned level held rest) :
      Move level state process
        { state with
          wanted := Function.update state.wanted process (some rest) }
  | ends :
      Move level state process
        { lock := fun row => (state.lock row).release process
          wanted := Function.update state.wanted process none }

variable {level : Row × LockMode → ℕ} {state next : Locking Process Row}
  {process other : Process}

omit [DecidableEq Process] [DecidableEq Row] in
/-- A process whose locks and wishes are as before. -/
theorem Ordered.congr
    (hordered : Ordered level state other)
    (hlock : ∀ row mode, (next.lock row).Holds other mode ↔
      (state.lock row).Holds other mode)
    (hwanted : next.wanted other = state.wanted other) :
    Ordered level next other := by
  unfold Ordered at hordered ⊢
  rw [hwanted]
  simp only [hlock]
  exact hordered

theorem Move.holds_of_ne
    (hmove : Move level state process next) (hne : other ≠ process)
    (row : Row) (mode : LockMode) :
    (next.lock row).Holds other mode ↔ (state.lock row).Holds other mode := by
  cases hmove with
  | begins _ _ => exact Iff.rfl
  | @takes taken _ _ _ hwanted hacquire =>
      by_cases hrow : row = taken
      · subst hrow
        simp [RowLock.holds_acquire_iff hacquire, hne]
      · simp [hrow]
  | skips _ _ => exact Iff.rfl
  | ends => simp [hne]

theorem Move.wanted_of_ne
    (hmove : Move level state process next) (hne : other ≠ process) :
    next.wanted other = state.wanted other := by
  cases hmove with
  | _ => exact Function.update_of_ne hne _ _

/-- The process that moves goes on in order. -/
theorem Move.ordered_self
    (hmove : Move level state process next)
    (hordered : Ordered level state process) :
    Ordered level next process := by
  cases hmove with
  | begins hidle hplanned =>
      have hfree := ordered_idle hordered hidle
      simp only [Ordered, Function.update_self]
      exact ⟨[], fun row mode => by simp [hfree row mode], hplanned⟩
  | @takes row mode rest lock hwanted hacquire =>
      obtain ⟨held, hheld, -, hplanned⟩ := ordered_open hordered hwanted
      simp only [Ordered, Function.update_self]
      refine ⟨(row, mode) :: held, fun other taken => ?_, hplanned⟩
      by_cases hrow : other = row
      · subst hrow
        simp [RowLock.holds_acquire_iff hacquire, hheld]
      · simp [hrow, hheld]
  | skips hwanted hplanned =>
      obtain ⟨held, hheld, hbefore⟩ := ordered_open hordered hwanted
      simp only [Ordered, Function.update_self]
      exact ⟨held, hheld, hplanned held hbefore⟩
  | ends => simp [Ordered]

/-- The order is kept by everything that a process may do. -/
theorem Move.ordered
    (hmove : Move level state process next)
    (hordered : ∀ process, Ordered level state process) (other : Process) :
    Ordered level next other := by
  by_cases hself : other = process
  · subst hself
    exact hmove.ordered_self (hordered other)
  · exact (hordered other).congr (hmove.holds_of_ne hself)
      (hmove.wanted_of_ne hself)

end Steps

end LockOrder

end NotifyHub
