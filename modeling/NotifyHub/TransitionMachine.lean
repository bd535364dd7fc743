import Mathlib.Tactic

/-!
# Machines stepped by actions

Every concurrent part of the service is a machine.  An action names the
process that moves and carries whatever the environment decides at that
moment (a clock reading, the answer of a remote server, a fault), so a step is
a partial function and an interleaving is a list of actions.

The rules below are the only inductions over runs used by the development:
an invariant of the initial states which every step preserves holds in every
reachable state, also when the steps of the run are required to meet a
condition.  A table of machines adds nothing to what its entries can reach,
a refinement carries reachable states to reachable states, and actions which
nobody can tell may be left out of a run.
-/

namespace NotifyHub

/-- A transition system whose nondeterminism is in the actions. -/
structure Machine (State Action : Type*) where
  Initial : State → Prop
  step : State → Action → Option State

namespace Machine

variable {State Action : Type*}

/-- Execute a list of actions, all of which must be enabled. -/
def run (M : Machine State Action) : State → List Action → Option State
  | state, [] => some state
  | state, action :: rest =>
      (M.step state action).bind fun next => M.run next rest

@[simp] theorem run_nil (M : Machine State Action) (state : State) :
    M.run state [] = some state := rfl

@[simp] theorem run_cons
    (M : Machine State Action) (state : State)
    (action : Action) (rest : List Action) :
    M.run state (action :: rest) =
      (M.step state action).bind fun next => M.run next rest := rfl

/-- States reached by runs each of whose steps meets `Allowed`. -/
inductive ReachableWhere
    (M : Machine State Action) (Allowed : State → Action → Prop) :
    State → Prop
  | initial {state : State} (hinitial : M.Initial state) :
      ReachableWhere M Allowed state
  | step {state next : State} {action : Action}
      (hreach : ReachableWhere M Allowed state)
      (hallowed : Allowed state action)
      (hstep : M.step state action = some next) :
      ReachableWhere M Allowed next

/-- States reached by arbitrary runs. -/
def Reachable (M : Machine State Action) : State → Prop :=
  M.ReachableWhere fun _ _ => True

theorem Reachable.next
    {M : Machine State Action} {state next : State} {action : Action}
    (hreach : M.Reachable state) (hstep : M.step state action = some next) :
    M.Reachable next :=
  ReachableWhere.step hreach trivial hstep

theorem ReachableWhere.reachable
    {M : Machine State Action} {Allowed : State → Action → Prop}
    {state : State} (hreach : M.ReachableWhere Allowed state) :
    M.Reachable state := by
  induction hreach with
  | initial hinitial => exact .initial hinitial
  | step _ _ hstep ih => exact ih.next hstep

/-- The invariant rule for runs under a condition. -/
theorem ReachableWhere.invariant
    {M : Machine State Action} {Allowed : State → Action → Prop}
    {Inv : State → Prop}
    (hinitial : ∀ state, M.Initial state → Inv state)
    (hpreserved : ∀ state action next,
      Inv state → Allowed state action →
        M.step state action = some next → Inv next)
    {state : State} (hreach : M.ReachableWhere Allowed state) :
    Inv state := by
  induction hreach with
  | initial hstart => exact hinitial _ hstart
  | step _ hallowed hstep ih => exact hpreserved _ _ _ ih hallowed hstep

/-- The invariant rule for unrestricted runs. -/
theorem Reachable.invariant
    {M : Machine State Action} {Inv : State → Prop}
    (hinitial : ∀ state, M.Initial state → Inv state)
    (hpreserved : ∀ state action next,
      Inv state → M.step state action = some next → Inv next)
    {state : State} (hreach : M.Reachable state) :
    Inv state :=
  ReachableWhere.invariant hinitial
    (fun state action next hinv _ hstep =>
      hpreserved state action next hinv hstep) hreach

/-- A property which every step keeps is kept by every run. -/
theorem run_preserves
    {M : Machine State Action} {Inv : State → Prop}
    (hpreserved : ∀ state action next,
      Inv state → M.step state action = some next → Inv next)
    {state final : State} {actions : List Action}
    (hinv : Inv state) (hrun : M.run state actions = some final) :
    Inv final := by
  induction actions generalizing state with
  | nil =>
      simp only [run_nil, Option.some.injEq] at hrun
      exact hrun ▸ hinv
  | cons action rest ih =>
      obtain ⟨next, hstep, hrest⟩ := Option.bind_eq_some_iff.mp hrun
      exact ih (hpreserved state action next hinv hstep) hrest

/-- What a run has established may speak of the actions taken so far. -/
theorem run_history
    {M : Machine State Action} {Inv : List Action → State → Prop}
    (hpreserved : ∀ done state action next,
      Inv done state → M.step state action = some next →
        Inv (done ++ [action]) next)
    {done actions : List Action} {state final : State}
    (hinv : Inv done state) (hrun : M.run state actions = some final) :
    Inv (done ++ actions) final := by
  induction actions generalizing done state with
  | nil =>
      simp only [run_nil, Option.some.injEq] at hrun
      rw [List.append_nil]
      exact hrun ▸ hinv
  | cons action rest ih =>
      obtain ⟨next, hstep, hrest⟩ := Option.bind_eq_some_iff.mp hrun
      have hafter := hpreserved done state action next hinv hstep
      have hfinal := ih hafter hrest
      rwa [List.append_assoc, List.singleton_append] at hfinal

theorem Reachable.run
    {M : Machine State Action} {state final : State}
    {actions : List Action}
    (hreach : M.Reachable state)
    (hrun : M.run state actions = some final) :
    M.Reachable final :=
  run_preserves (fun _ _ _ hstate hstep => hstate.next hstep) hreach hrun

/-- Every step of the execution of a list of actions meets `Allowed`. -/
def AllowedAlong
    (M : Machine State Action) (Allowed : State → Action → Prop) :
    State → List Action → Prop
  | _, [] => True
  | state, action :: rest =>
      Allowed state action ∧
        ∀ next, M.step state action = some next →
          M.AllowedAlong Allowed next rest

instance decidableAllowedAlong
    (M : Machine State Action) (Allowed : State → Action → Prop)
    [∀ state action, Decidable (Allowed state action)] :
    (state : State) → (actions : List Action) →
      Decidable (M.AllowedAlong Allowed state actions)
  | _, [] => .isTrue trivial
  | state, action :: rest =>
      match hstep : M.step state action with
      | none =>
          decidable_of_iff (Allowed state action)
            (by simp [AllowedAlong, hstep])
      | some next =>
          have := decidableAllowedAlong M Allowed next rest
          decidable_of_iff
            (Allowed state action ∧ M.AllowedAlong Allowed next rest)
            (by simp [AllowedAlong, hstep])

/-- A property which the steps under a condition keep is kept by every run
whose steps meet the condition. -/
theorem AllowedAlong.run_preserves
    {M : Machine State Action} {Allowed : State → Action → Prop}
    {Inv : State → Prop}
    (hpreserved : ∀ state action next,
      Inv state → Allowed state action →
        M.step state action = some next → Inv next)
    {state final : State} {actions : List Action}
    (hallowed : M.AllowedAlong Allowed state actions)
    (hinv : Inv state) (hrun : M.run state actions = some final) :
    Inv final := by
  induction actions generalizing state with
  | nil =>
      simp only [run_nil, Option.some.injEq] at hrun
      exact hrun ▸ hinv
  | cons action rest ih =>
      obtain ⟨next, hstep, hrest⟩ := Option.bind_eq_some_iff.mp hrun
      exact ih (hallowed.2 next hstep)
        (hpreserved state action next hinv hallowed.1 hstep) hrest

theorem ReachableWhere.run
    {M : Machine State Action} {Allowed : State → Action → Prop}
    {state final : State} {actions : List Action}
    (hreach : M.ReachableWhere Allowed state)
    (hallowed : M.AllowedAlong Allowed state actions)
    (hrun : M.run state actions = some final) :
    M.ReachableWhere Allowed final :=
  hallowed.run_preserves
    (fun _ _ _ hcurrent hcondition hstep =>
      .step hcurrent hcondition hstep) hreach hrun

/-- A condition which the actions meet in every state. -/
theorem allowedAlong_of_forall
    (M : Machine State Action) {Allowed : State → Action → Prop}
    {actions : List Action}
    (hactions : ∀ action ∈ actions, ∀ state, Allowed state action)
    (state : State) : M.AllowedAlong Allowed state actions := by
  induction actions generalizing state with
  | nil => trivial
  | cons action rest ih =>
      refine ⟨hactions action (by simp) state, fun next _ => ?_⟩
      exact ih (fun other hmem => hactions other (by simp [hmem])) next

/-! ## Tables of machines -/

/-- A new entry appears, or one entry makes a step. -/
inductive TableAction (Id State Action : Type*)
  | create (id : Id) (state : State)
  | act (id : Id) (action : Action)

/-- Any number of machines of one kind, under ids which appear over time. -/
def table
    (M : Machine State Action) (Id : Type*) [DecidableEq Id] :
    Machine (Id → Option State) (TableAction Id State Action) where
  Initial entries := ∀ id, entries id = none
  step entries action :=
    match action with
    | .create id state =>
        match entries id with
        | none => some (Function.update entries id (some state))
        | some _ => none
    | .act id action =>
        (entries id).bind fun state =>
          (M.step state action).map fun next =>
            Function.update entries id (some next)

/-- Entries are created in an initial state, and their steps meet
`Allowed`. -/
def TableAllowed
    {Id : Type*} (M : Machine State Action)
    (Allowed : State → Action → Prop) (entries : Id → Option State) :
    TableAction Id State Action → Prop
  | .create _ state => M.Initial state
  | .act id action => ∀ state, entries id = some state → Allowed state action

/-- An entry of a table is a state of its own machine. -/
theorem table_entry_reachable
    {Id : Type*} [DecidableEq Id]
    {M : Machine State Action} {Allowed : State → Action → Prop}
    {entries : Id → Option State}
    (hreach : (M.table Id).ReachableWhere (M.TableAllowed Allowed) entries)
    {id : Id} {state : State} (hentry : entries id = some state) :
    M.ReachableWhere Allowed state := by
  induction hreach generalizing id state with
  | initial hempty =>
      rw [hempty id] at hentry
      contradiction
  | @step entries next action hreach hallowed hstep ih =>
      cases action with
      | create created start =>
          simp only [table] at hstep
          split at hstep
          · obtain rfl := Option.some.inj hstep
            by_cases heq : id = created
            · subst heq
              rw [Function.update_self] at hentry
              exact .initial (Option.some.inj hentry ▸ hallowed)
            · rw [Function.update_of_ne heq] at hentry
              exact ih hentry
          · contradiction
      | act moved action =>
          obtain ⟨before, hbefore, hmap⟩ := Option.bind_eq_some_iff.mp hstep
          obtain ⟨after, hafter, rfl⟩ := Option.map_eq_some_iff.mp hmap
          by_cases heq : id = moved
          · subst heq
            rw [Function.update_self] at hentry
            exact Option.some.inj hentry ▸
              .step (ih hbefore) (hallowed before hbefore) hafter
          · rw [Function.update_of_ne heq] at hentry
            exact ih hentry

theorem exists_table_entry
    {Id : Type*} [DecidableEq Id]
    {M : Machine State Action} {Allowed : State → Action → Prop}
    {state : State} (hreach : M.ReachableWhere Allowed state) (id : Id) :
    ∃ entries, (M.table Id).ReachableWhere (M.TableAllowed Allowed) entries ∧
      entries id = some state := by
  induction hreach with
  | @initial state hinitial =>
      refine ⟨Function.update (fun _ => none) id (some state), ?_, by simp⟩
      have hcreate : M.TableAllowed Allowed (fun _ : Id => none)
          (.create id state) := hinitial
      exact .step (.initial fun _ => rfl) hcreate rfl
  | @step state next action _ hallowed hstep ih =>
      obtain ⟨entries, hentries, hentry⟩ := ih
      refine ⟨Function.update entries id (some next), ?_, by simp⟩
      have hact : M.TableAllowed Allowed entries (.act id action) := by
        intro other hother
        rw [hentry] at hother
        exact Option.some.inj hother ▸ hallowed
      exact .step hentries hact (by simp [table, hentry, hstep])

/-! ## Refinement -/

/-- Every step of a run whose steps meet `Allowed` is a step of the abstract
machine, or leaves the abstract state as it is. -/
structure RefinesWhere
    {Abstract Move : Type*}
    (M : Machine State Action) (Allowed : State → Action → Prop)
    (A : Machine Abstract Move) (view : State → Abstract) : Prop where
  initial : ∀ state, M.Initial state → A.Initial (view state)
  step : ∀ state action next,
    M.ReachableWhere Allowed state → Allowed state action →
    M.step state action = some next →
      view next = view state ∨
        ∃ move, A.step (view state) move = some (view next)

theorem RefinesWhere.reachable
    {Abstract Move : Type*}
    {M : Machine State Action} {Allowed : State → Action → Prop}
    {A : Machine Abstract Move} {view : State → Abstract}
    (hrefines : M.RefinesWhere Allowed A view)
    {state : State} (hreach : M.ReachableWhere Allowed state) :
    A.Reachable (view state) := by
  induction hreach with
  | initial hstart => exact .initial (hrefines.initial _ hstart)
  | step hcurrent hallowed hstep ih =>
      rcases hrefines.step _ _ _ hcurrent hallowed hstep with
        hsame | ⟨move, hmove⟩
      · rw [hsame]
        exact ih
      · exact ih.next hmove

/-- Refinement over unrestricted runs. -/
def Refines
    {Abstract Move : Type*}
    (M : Machine State Action) (A : Machine Abstract Move)
    (view : State → Abstract) : Prop :=
  M.RefinesWhere (fun _ _ => True) A view

/-! ## Runs without some of the actions -/

/-- The unwinding rule: actions which are kept move two related states alike,
and actions which are dropped cannot be told from the second state. -/
theorem exists_run_filter
    {M : Machine State Action} {keeps : Action → Bool}
    {Allowed : State → Action → Prop} {Related : State → State → Prop}
    (hkept : ∀ state other action next, Related state other →
      keeps action = true → Allowed state action →
        M.step state action = some next →
          ∃ after, M.step other action = some after ∧ Related next after)
    (hdropped : ∀ state other action next, Related state other →
      keeps action = false → Allowed state action →
        M.step state action = some next → Related next other)
    {state other final : State} {actions : List Action}
    (hrelated : Related state other)
    (hallowed : M.AllowedAlong Allowed state actions)
    (hrun : M.run state actions = some final) :
    ∃ purged, M.run other (actions.filter keeps) = some purged ∧
      Related final purged := by
  induction actions generalizing state other with
  | nil =>
      simp only [run_nil, Option.some.injEq] at hrun
      exact ⟨other, rfl, hrun ▸ hrelated⟩
  | cons action rest ih =>
      obtain ⟨next, hstep, hrest⟩ := Option.bind_eq_some_iff.mp hrun
      have hlater := hallowed.2 next hstep
      cases hkeeps : keeps action with
      | true =>
          obtain ⟨after, hafter, hnext⟩ :=
            hkept state other action next hrelated hkeeps hallowed.1 hstep
          obtain ⟨purged, hpurged, hfinal⟩ := ih hnext hlater hrest
          refine ⟨purged, ?_, hfinal⟩
          rw [List.filter_cons_of_pos hkeeps, run_cons, hafter]
          exact hpurged
      | false =>
          have hnext :=
            hdropped state other action next hrelated hkeeps hallowed.1 hstep
          obtain ⟨purged, hpurged, hfinal⟩ := ih hnext hlater hrest
          refine ⟨purged, ?_, hfinal⟩
          rw [List.filter_cons_of_neg (by simp [hkeeps])]
          exact hpurged

end Machine

end NotifyHub
