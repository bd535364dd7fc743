import Mathlib.Tactic

/-!
# Data behind one lock

Transactions which take the same lock before they read what they compare, and
keep it until they end.  What a transaction under the lock has read, or has
checked, is still true of the store, since nobody else can write.
-/

namespace NotifyHub

/-- The committed data, the holder of the lock, and what each process is
doing. -/
structure GuardedState (Process Store Phase : Type*) where
  store : Store
  holder : Option Process
  phase : Process → Phase

/-- The phases which are under the lock, and what each of them relies on. -/
structure Guard (Store Phase : Type*) where
  locked : Phase → Bool
  Relies : Store → Phase → Prop

variable {Process Store Phase : Type*}

/-- Whoever is under the lock holds it, and relies on what is true. -/
def GuardedState.Sound
    (G : Guard Store Phase) (state : GuardedState Process Store Phase) :
    Prop :=
  ∀ process, G.locked (state.phase process) = true →
    state.holder = some process ∧ G.Relies state.store (state.phase process)

namespace GuardedState

variable [DecidableEq Process]

def goto
    (state : GuardedState Process Store Phase) (process : Process)
    (phase : Phase) : GuardedState Process Store Phase :=
  { state with phase := Function.update state.phase process phase }

def take
    (state : GuardedState Process Store Phase) (process : Process)
    (phase : Phase) : GuardedState Process Store Phase :=
  { state.goto process phase with holder := some process }

/-- The end of a transaction, which leaves the store as it is. -/
def release
    (state : GuardedState Process Store Phase) (process : Process)
    (phase : Phase) : GuardedState Process Store Phase :=
  { state.goto process phase with
    holder := if state.holder = some process then none else state.holder }

def commit
    (state : GuardedState Process Store Phase) (process : Process)
    (phase : Phase) (store : Store) : GuardedState Process Store Phase :=
  { state.release process phase with store := store }

variable {G : Guard Store Phase}
variable {state next : GuardedState Process Store Phase} {process : Process}

@[simp] theorem goto_phase_self (phase : Phase) :
    (state.goto process phase).phase process = phase :=
  Function.update_self ..

theorem goto_phase_of_ne
    {other : Process} (hne : other ≠ process) (phase : Phase) :
    (state.goto process phase).phase other = state.phase other :=
  Function.update_of_ne hne ..

@[simp] theorem goto_store (phase : Phase) :
    (state.goto process phase).store = state.store := rfl

@[simp] theorem take_store (phase : Phase) :
    (state.take process phase).store = state.store := rfl

@[simp] theorem release_store (phase : Phase) :
    (state.release process phase).store = state.store := rfl

@[simp] theorem commit_store (phase : Phase) (store : Store) :
    (state.commit process phase store).store = store := rfl

@[simp] theorem take_phase (phase : Phase) :
    (state.take process phase).phase = (state.goto process phase).phase := rfl

@[simp] theorem release_phase (phase : Phase) :
    (state.release process phase).phase =
      (state.goto process phase).phase := rfl

@[simp] theorem commit_phase (phase : Phase) (store : Store) :
    (state.commit process phase store).phase =
      (state.goto process phase).phase := rfl

/-- The ways in which a process goes on: only under the lock does it write. -/
inductive Moves
    (G : Guard Store Phase) (state : GuardedState Process Store Phase)
    (process : Process) : GuardedState Process Store Phase → Prop
  | goto (phase : Phase)
      (hphase : G.locked phase = true →
        state.holder = some process ∧ G.Relies state.store phase) :
      Moves G state process (state.goto process phase)
  | take (phase : Phase) (hfree : state.holder = none)
      (hrelies : G.Relies state.store phase) :
      Moves G state process (state.take process phase)
  | release (phase : Phase) (hphase : G.locked phase = false) :
      Moves G state process (state.release process phase)
  | commit (phase : Phase) (store : Store)
      (hlocked : G.locked (state.phase process) = true)
      (hphase : G.locked phase = false) :
      Moves G state process (state.commit process phase store)

omit [DecidableEq Process] in
/-- Beside the holder nobody is under the lock. -/
theorem Sound.unlocked_of_holder
    (hsound : state.Sound G) {other : Process} (hne : other ≠ process)
    (hholder : state.holder = none ∨ state.holder = some process) :
    G.locked (state.phase other) = false := by
  by_contra hlocked
  rw [Bool.not_eq_false] at hlocked
  have hother := (hsound other hlocked).1
  rcases hholder with hfree | hheld
  · rw [hfree] at hother
    contradiction
  · rw [hheld] at hother
    exact hne (Option.some.inj hother).symm

theorem Moves.sound
    (hmoves : Moves G state process next) (hsound : state.Sound G) :
    next.Sound G := by
  intro other hlocked
  by_cases heq : other = process
  · subst heq
    cases hmoves with
    | goto phase hphase =>
        rw [goto_phase_self] at hlocked ⊢
        exact hphase hlocked
    | take phase hfree hrelies =>
        rw [take_phase, goto_phase_self]
        exact ⟨rfl, hrelies⟩
    | release phase hphase =>
        rw [release_phase, goto_phase_self, hphase] at hlocked
        contradiction
    | commit phase store _ hphase =>
        rw [commit_phase, goto_phase_self, hphase] at hlocked
        contradiction
  · cases hmoves with
    | goto phase hphase =>
        rw [goto_phase_of_ne heq] at hlocked ⊢
        exact hsound other hlocked
    | take phase hfree hrelies =>
        rw [take_phase, goto_phase_of_ne heq] at hlocked
        rw [hsound.unlocked_of_holder heq (.inl hfree)] at hlocked
        contradiction
    | release phase hphase =>
        rw [release_phase, goto_phase_of_ne heq] at hlocked ⊢
        obtain ⟨hheld, hrelies⟩ := hsound other hlocked
        refine ⟨?_, hrelies⟩
        have hkept : state.holder ≠ some process := by
          rw [hheld]
          exact fun hsame => heq (Option.some.inj hsame)
        rw [GuardedState.release, if_neg hkept]
        exact hheld
    | commit phase store hwrites hphase =>
        rw [commit_phase, goto_phase_of_ne heq] at hlocked
        have hheld := (hsound process hwrites).1
        rw [hsound.unlocked_of_holder heq (.inr hheld)] at hlocked
        contradiction

omit [DecidableEq Process] in
theorem Sound.of_initial
    (hphase : ∀ process, G.locked (state.phase process) = false) :
    state.Sound G := by
  intro process hlocked
  rw [hphase process] at hlocked
  contradiction

end GuardedState

end NotifyHub
