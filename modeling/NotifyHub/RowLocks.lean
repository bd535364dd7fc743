import Mathlib.Tactic

/-!
# Locks of a row

The three strengths in which a transaction locks a row here: the key share
lock of a foreign key, the lock of an UPDATE which leaves the key alone, and
the lock of `SELECT … FOR UPDATE`.  A lock carries the proof that no two
transactions hold it in conflicting modes, so whoever holds a row for update
holds it alone.
-/

namespace NotifyHub

inductive LockMode
  | keyShare
  | noKeyUpdate
  | forUpdate
  deriving DecidableEq, Repr

def LockMode.conflicts : LockMode → LockMode → Bool
  | .forUpdate, _ => true
  | _, .forUpdate => true
  | .noKeyUpdate, .noKeyUpdate => true
  | _, _ => false

theorem LockMode.conflicts_comm (first second : LockMode) :
    first.conflicts second = second.conflicts first := by
  cases first <;> cases second <;> rfl

structure RowLock (Process : Type*) where
  held : List (Process × LockMode)
  compatible : ∀ first ∈ held, ∀ second ∈ held,
    first.2.conflicts second.2 = true → first.1 = second.1

namespace RowLock

variable {Process : Type*}

def free : RowLock Process := ⟨[], by simp⟩

def Holds (lock : RowLock Process) (process : Process) (mode : LockMode) :
    Prop :=
  (process, mode) ∈ lock.held

instance [DecidableEq Process]
    (lock : RowLock Process) (process : Process) (mode : LockMode) :
    Decidable (lock.Holds process mode) :=
  inferInstanceAs (Decidable ((process, mode) ∈ lock.held))

/-- Whoever holds the row for update holds it alone. -/
theorem holds_forUpdate_unique
    {lock : RowLock Process} {process other : Process} {mode : LockMode}
    (hholds : lock.Holds process .forUpdate) (hother : lock.Holds other mode) :
    process = other :=
  lock.compatible _ hholds _ hother rfl

/-- No other transaction is in the way. -/
def Grantable
    (lock : RowLock Process) (process : Process) (mode : LockMode) : Prop :=
  ∀ entry ∈ lock.held,
    entry.2.conflicts mode = true → entry.1 = process

instance [DecidableEq Process]
    (lock : RowLock Process) (process : Process) (mode : LockMode) :
    Decidable (lock.Grantable process mode) :=
  inferInstanceAs (Decidable (∀ entry ∈ lock.held, _))

variable [DecidableEq Process]

/-- The lock once it is granted; there is none while the transaction has to
wait. -/
def acquire (lock : RowLock Process) (process : Process) (mode : LockMode) :
    Option (RowLock Process) :=
  if hgrant : lock.Grantable process mode then
    some
      { held := (process, mode) :: lock.held
        compatible := by
          intro first hfirst second hsecond hconflict
          rcases List.mem_cons.mp hfirst with rfl | hfirst <;>
            rcases List.mem_cons.mp hsecond with rfl | hsecond
          · rfl
          · rw [LockMode.conflicts_comm] at hconflict
            exact (hgrant second hsecond hconflict).symm
          · exact hgrant first hfirst hconflict
          · exact lock.compatible first hfirst second hsecond hconflict }
  else none

theorem holds_acquire_iff
    {lock after : RowLock Process} {process other : Process}
    {mode held : LockMode}
    (hacquire : lock.acquire process mode = some after) :
    after.Holds other held ↔
      (other = process ∧ held = mode) ∨ lock.Holds other held := by
  unfold acquire at hacquire
  split at hacquire
  · obtain rfl := Option.some.inj hacquire
    simp [Holds]
  · contradiction

/-- The end of a transaction. -/
def release (lock : RowLock Process) (process : Process) : RowLock Process where
  held := lock.held.filter fun entry => entry.1 ≠ process
  compatible := by
    intro first hfirst second hsecond
    exact lock.compatible first (List.mem_of_mem_filter hfirst)
      second (List.mem_of_mem_filter hsecond)

@[simp] theorem holds_release_iff
    {lock : RowLock Process} {process other : Process} {mode : LockMode} :
    (lock.release process).Holds other mode ↔
      lock.Holds other mode ∧ other ≠ process := by
  simp [release, Holds]

end RowLock

end NotifyHub
