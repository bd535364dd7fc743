import NotifyHub.TransitionMachine
import Mathlib.Tactic

/-!
# Agents around a shared memory

Every agent has a memory of its own, which nobody else reads or writes, and
all of them share one more.  A step is the move of one agent, which sees the
shared memory and its own.  An invariant of the agents is therefore shown
twice: for the agent that moves, and for all the others, which only see the
shared memory change.

A history variable is a value that a run carries along without acting on it.
Observing a machine through one takes no run away and adds none.
-/

namespace NotifyHub

/-- What an agent sees. -/
structure AgentView (Shared Local : Type*) where
  shared : Shared
  own : Local

structure Agents (Agent Shared Local : Type*) where
  shared : Shared
  own : Agent → Local

namespace Agents

variable {Agent Shared Local : Type*}

def view
    (state : Agents Agent Shared Local) (agent : Agent) :
    AgentView Shared Local :=
  ⟨state.shared, state.own agent⟩

@[simp] theorem view_shared
    (state : Agents Agent Shared Local) (agent : Agent) :
    (state.view agent).shared = state.shared := rfl

@[simp] theorem view_own
    (state : Agents Agent Shared Local) (agent : Agent) :
    (state.view agent).own = state.own agent := rfl

variable [DecidableEq Agent]

def put
    (state : Agents Agent Shared Local) (agent : Agent)
    (view : AgentView Shared Local) : Agents Agent Shared Local :=
  ⟨view.shared, Function.update state.own agent view.own⟩

@[simp] theorem put_shared
    (state : Agents Agent Shared Local) (agent : Agent)
    (view : AgentView Shared Local) :
    (state.put agent view).shared = view.shared := rfl

@[simp] theorem put_own_self
    (state : Agents Agent Shared Local) (agent : Agent)
    (view : AgentView Shared Local) :
    (state.put agent view).own agent = view.own := by
  simp [put]

@[simp] theorem put_own_of_ne
    (state : Agents Agent Shared Local) {agent other : Agent}
    (hne : other ≠ agent) (view : AgentView Shared Local) :
    (state.put agent view).own other = state.own other := by
  simp [put, hne]

/-- What holds of the agent that has moved and of all the others. -/
theorem forall_put
    (P : Agent → Local → Prop) {state : Agents Agent Shared Local}
    {agent : Agent} {view : AgentView Shared Local}
    (hself : P agent view.own)
    (hother : ∀ other, other ≠ agent → P other (state.own other))
    (other : Agent) : P other ((state.put agent view).own other) := by
  by_cases heq : other = agent
  · subst heq
    rw [put_own_self]
    exact hself
  · rw [put_own_of_ne _ heq]
    exact hother other heq

end Agents

namespace Machine

section Interference

variable {Agent Shared Local Move : Type*} [DecidableEq Agent]

/-- Agents moving one at a time, in any order. -/
def agents
    (Start : Agents Agent Shared Local → Prop)
    (turn : Agent → AgentView Shared Local → Move →
      Option (AgentView Shared Local)) :
    Machine (Agents Agent Shared Local) (Agent × Move) where
  Initial := Start
  step state action :=
    (turn action.1 (state.view action.1) action.2).map (state.put action.1)

variable {Start : Agents Agent Shared Local → Prop}
  {turn : Agent → AgentView Shared Local → Move →
    Option (AgentView Shared Local)}

theorem agents_step
    {state next : Agents Agent Shared Local} {agent : Agent} {move : Move}
    (hstep : (agents Start turn).step state (agent, move) = some next) :
    ∃ view, turn agent (state.view agent) move = some view ∧
      next = state.put agent view := by
  obtain ⟨view, hview, rfl⟩ := Option.map_eq_some_iff.mp hstep
  exact ⟨view, hview, rfl⟩

/-- The invariant rule for agents: each one keeps its own invariant, and does
not break that of another one. -/
theorem agents_invariant
    (Inv : Shared → Agent → Local → Prop)
    (hinitial : ∀ state : Agents Agent Shared Local, Start state →
      ∀ agent, Inv state.shared agent (state.own agent))
    (hown : ∀ (state : Agents Agent Shared Local) agent move view,
      (∀ other, Inv state.shared other (state.own other)) →
        turn agent (state.view agent) move = some view →
          Inv view.shared agent view.own)
    (hother : ∀ (state : Agents Agent Shared Local) agent move view other,
      (∀ any, Inv state.shared any (state.own any)) →
        turn agent (state.view agent) move = some view → other ≠ agent →
          Inv view.shared other (state.own other))
    {state : Agents Agent Shared Local}
    (hreach : (agents Start turn).Reachable state) (agent : Agent) :
    Inv state.shared agent (state.own agent) := by
  have hpreserved : ∀ (state : Agents Agent Shared Local)
      (action : Agent × Move) (next : Agents Agent Shared Local),
      (∀ agent, Inv state.shared agent (state.own agent)) →
        (agents Start turn).step state action = some next →
          ∀ agent, Inv next.shared agent (next.own agent) := by
    rintro state ⟨mover, move⟩ next hinv hstep agent
    obtain ⟨view, hturn, rfl⟩ := agents_step hstep
    exact Agents.forall_put (Inv view.shared)
      (hown state mover move view hinv hturn)
      (fun other => hother state mover move view other hinv hturn) agent
  exact hreach.invariant hinitial hpreserved agent

end Interference

section History

variable {State Action Seen : Type*}

/-- The machine together with a history variable. -/
def observed
    (M : Machine State Action) (start : State → Seen)
    (observe : State → Action → Seen → Seen) :
    Machine (State × Seen) Action where
  Initial state := M.Initial state.1 ∧ state.2 = start state.1
  step state action :=
    (M.step state.1 action).map fun next =>
      (next, observe state.1 action state.2)

variable {M : Machine State Action} {start : State → Seen}
  {observe : State → Action → Seen → Seen}

theorem observed_step
    {state next : State × Seen} {action : Action}
    (hstep : (M.observed start observe).step state action = some next) :
    M.step state.1 action = some next.1 ∧
      next.2 = observe state.1 action state.2 := by
  obtain ⟨after, hafter, rfl⟩ := Option.map_eq_some_iff.mp hstep
  exact ⟨hafter, rfl⟩

/-- Observing a machine adds no run. -/
theorem ReachableWhere.forget
    {Allowed : State → Action → Prop} {state : State × Seen}
    (hreach : (M.observed start observe).ReachableWhere
      (fun state => Allowed state.1) state) :
    M.ReachableWhere Allowed state.1 := by
  induction hreach with
  | initial hinitial => exact .initial hinitial.1
  | step _ hallowed hstep ih =>
      exact .step ih hallowed (observed_step hstep).1

/-- The invariant rule for a machine with a history variable. -/
theorem observed_invariant
    {Allowed : State → Action → Prop} {Inv : State → Seen → Prop}
    (hinitial : ∀ state, M.Initial state → Inv state (start state))
    (hpreserved : ∀ state seen action next,
      M.Reachable state → Inv state seen → Allowed state action →
        M.step state action = some next →
          Inv next (observe state action seen))
    {state : State × Seen}
    (hreach : (M.observed start observe).ReachableWhere
      (fun state => Allowed state.1) state) :
    Inv state.1 state.2 := by
  induction hreach with
  | @initial state hstart =>
      rw [hstart.2]
      exact hinitial state.1 hstart.1
  | @step state next action hbefore hallowed hstep ih =>
      obtain ⟨hmove, hseen⟩ := observed_step hstep
      rw [hseen]
      exact hpreserved _ _ _ _ hbefore.forget.reachable ih hallowed hmove

end History

end Machine

end NotifyHub
