import NotifyHub.TokenFamilies
import Mathlib.Tactic

/-!
# The requests with their audit events

A flush which writes audited rows also inserts an audit event for each of
them, and the foreign keys of an event share the tenant and the user who acts.
Here the statements of the requests which manage the users are interleaved
with these inserts, each flush with its own.  Which of the two tables a flush
writes first is left open.  The event of a login or a logout is about the user
whom the request has locked itself, so its foreign keys wait for nobody.
-/

namespace NotifyHub

/-- What an open request does next: a foreign key of an event takes its lock,
or a statement of the request itself runs. -/
inductive Task (Id : Type)
  | event (lock : Statement Id)
  | run (statement : Statement Id)
  deriving DecidableEq, Repr

variable {Process : Type*} {Id : Type}

/-- The foreign keys of an event, `tenant_id` and `actor_user_id`. -/
def eventTasks (actor : Id) : List (Task Id) :=
  [.event .shareTenant, .event (.shareUser actor)]

/-- A flush of audited rows; the events come before the rows or after them. -/
def flushTasks
    (eventsFirst : Bool) (actor : Id) (statements : List (Statement Id)) :
    List (Task Id) :=
  if eventsFirst then eventTasks actor ++ statements.map .run
  else statements.map .run ++ eventTasks actor

/-- The writes of an edit after its locks, with the events of the memberships
it deletes. -/
def Edit.writeTasks (eventsFirst : Bool) (edit : Edit Id) : List (Task Id) :=
  (if edit.final = edit.loaded then []
    else flushTasks eventsFirst edit.claims.sub [.writeUser edit.target]) ++
    (match edit.groupIds with
      | none => []
      | some [] => .run (.readGroups []) :: eventTasks edit.claims.sub
      | some groupIds =>
          .run (.readGroups groupIds) :: (eventTasks edit.claims.sub ++
            flushTasks eventsFirst edit.claims.sub
              [.shareTenant, .shareUser edit.target])) ++
    (if edit.endsSessions then [.run .readTokens] else [])

def Edit.tasks (eventsFirst : Bool) (edit : Edit Id) : List (Task Id) :=
  (if edit.endsSessions then
    [.run .shareTenant, .run (.lockUser edit.target)] else []) ++
    edit.writeTasks eventsFirst

/-- An acceptance has no audit context. -/
def Work.tasks (eventsFirst : Bool) : Work Id → List (Task Id)
  | .edit change _ => change.tasks eventsFirst
  | .create claims _ body =>
      flushTasks eventsFirst claims.sub [.shareTenant] ++
        (if body.groupIds = [] then [] else eventTasks claims.sub)
  | .invite _ invitation =>
      flushTasks eventsFirst invitation.issuedBy.sub
        [.shareTenant, .shareUser invitation.issuedBy.sub]
  | .accept _ _ _ _ => [.run .shareTenant]

def UserPhase.tasks (eventsFirst : Bool) : UserPhase Id → List (Task Id)
  | .guarding edit | .counting edit => edit.tasks eventsFirst
  | .writing work _ => work.tasks eventsFirst
  | .idle | .accepting _ _ | .ended _ => []

def skipEvent : List (Task Id) → List (Task Id)
  | .event _ :: .event _ :: tasks => tasks
  | tasks => tasks

/-- Without memberships to delete there are no events about them. -/
def UserPhase.afterStatement
    (phase : UserPhase Id) (tasks : List (Task Id)) :
    Statement Id → List (Task Id)
  | .readGroups _ =>
      match phase with
      | .writing (.edit _ progress) _ =>
          if progress.deleted.Nonempty then tasks else skipEvent tasks
      | _ => tasks
  | _ => tasks

/-- The requests, and what the open ones about the users still have to do. -/
structure AuditedState (Process : Type*) (Id : Type) where
  sessions : SessionState Process Id
  tasks : Process → List (Task Id)

inductive AuditedAction (Process : Type*) (Id : Type)
  | request (action : SessionAction Process Id)
  | insertEvent (process : Process)

def AuditedAction.process : AuditedAction Process Id → Process
  | .request action => action.process
  | .insertEvent process => process

namespace AuditedState

variable [DecidableEq Process]

def advance
    (state : AuditedState Process Id) (process : Process)
    (sessions : SessionState Process Id) (tasks : List (Task Id)) :
    AuditedState Process Id where
  sessions := sessions
  tasks := Function.update state.tasks process tasks

/-- What is left to do after a step of a request; a statement waits for the
events before it, and the commit for all of them. -/
def tasksAfter
    (eventsFirst : Bool) (state : AuditedState Process Id)
    (next : SessionState Process Id) :
    SessionAction Process Id → Option (List (Task Id))
  | .users (.execute process) =>
      match state.tasks process with
      | .run statement :: tasks =>
          some ((next.users.phase process).afterStatement tasks statement)
      | _ => none
  | .users (.commit process) =>
      if state.tasks process = [] then some [] else none
  | .users action => some ((next.users.phase action.process).tasks eventsFirst)
  | action => some (state.tasks action.process)

variable [DecidableEq Id] [ToString Id]

def step
    (eventsFirst : Bool) (ttlDays : ℤ) (state : AuditedState Process Id) :
    AuditedAction Process Id → Option (AuditedState Process Id)
  | .request action =>
      (state.sessions.step ttlDays action).bind fun next =>
        (state.tasksAfter eventsFirst next action).map fun tasks =>
          state.advance action.process next tasks
  | .insertEvent process =>
      match state.sessions.session process,
        state.sessions.users.phase process, state.tasks process with
      | .idle, .writing work rest, .event lock :: tasks =>
          (state.sessions.users.execute process work rest lock).map
            fun users =>
              state.advance process { state.sessions with users := users } tasks
      | _, _, _ => none

omit [DecidableEq Process] [DecidableEq Id] [ToString Id] in
structure Fresh (state : AuditedState Process Id) : Prop where
  sessions : state.sessions.Fresh
  tasks : ∀ process, state.tasks process = []

end AuditedState

def auditedMachine
    (eventsFirst : Bool) (ttlDays : ℤ) (Process : Type*) (Id : Type)
    [DecidableEq Process] [DecidableEq Id] [ToString Id] :
    Machine (AuditedState Process Id) (AuditedAction Process Id) where
  Initial := AuditedState.Fresh
  step := AuditedState.step eventsFirst ttlDays

/-! ## The statements among the tasks -/

def Task.statement? : Task Id → Option (Statement Id)
  | .event _ => none
  | .run statement => some statement

def statements (tasks : List (Task Id)) : List (Statement Id) :=
  tasks.filterMap Task.statement?

@[simp] theorem statements_nil : statements ([] : List (Task Id)) = [] := rfl

@[simp] theorem statements_event
    (lock : Statement Id) (tasks : List (Task Id)) :
    statements (.event lock :: tasks) = statements tasks := rfl

@[simp] theorem statements_run
    (statement : Statement Id) (tasks : List (Task Id)) :
    statements (.run statement :: tasks) = statement :: statements tasks := rfl

@[simp] theorem statements_skipEvent (tasks : List (Task Id)) :
    statements (skipEvent tasks) = statements tasks := by
  unfold skipEvent
  split <;> rfl

theorem statements_afterStatement
    (phase : UserPhase Id) (tasks : List (Task Id))
    (statement : Statement Id) :
    statements (phase.afterStatement tasks statement) = statements tasks := by
  cases statement with
  | readGroups groupIds =>
      simp only [UserPhase.afterStatement]
      split
      · split <;> simp
      · rfl
  | _ => rfl

theorem Edit.statements_tasks (eventsFirst : Bool) (edit : Edit Id) :
    NotifyHub.statements (edit.tasks eventsFirst) = edit.statements := by
  rcases edit with ⟨claims, target, loaded, final, groupIds, guarded, ends⟩
  rcases groupIds with _ | _ | ⟨group, groups⟩ <;> cases ends <;>
    cases eventsFirst <;> by_cases hwrites : final = loaded <;>
      simp [tasks, writeTasks, Edit.statements, flushTasks, eventTasks, hwrites]

theorem UserStore.start_statements [DecidableEq Id] [ToString Id]
    {store : UserStore Id} {request : UserRequest Id} {work : Work Id}
    {rest : List (Statement Id)} (eventsFirst : Bool)
    (hstart : store.start request = .ok (.writing work rest)) :
    statements (work.tasks eventsFirst) = rest := by
  have hedit : ∀ edit : Edit Id, edit.phase = .writing work rest →
      statements (work.tasks eventsFirst) = rest := by
    intro edit hphase
    unfold Edit.phase at hphase
    split at hphase
    · contradiction
    · obtain ⟨rfl, rfl⟩ := UserPhase.writing.inj hphase
      exact edit.statements_tasks eventsFirst
  cases request with
  | updateUser claims userId body =>
      obtain ⟨edit, -, hphase⟩ := Except.map_eq_ok.mp hstart
      exact hedit edit hphase
  | removeUser claims userId =>
      obtain ⟨edit, -, hphase⟩ := Except.map_eq_ok.mp hstart
      exact hedit edit hphase
  | createUser claims newId body =>
      obtain ⟨created, hcreated, hphase⟩ := Except.map_eq_ok.mp hstart
      obtain ⟨rfl, rfl⟩ := UserPhase.writing.inj hphase
      simp only [createUser, Except.bind_eq_ok] at hcreated
      obtain ⟨_, -, _, -, _, -, hok⟩ := hcreated
      obtain rfl := Except.ok.inj hok
      cases eventsFirst <;> by_cases hgroups : body.groupIds = [] <;>
        simp [Work.tasks, flushTasks, eventTasks, hgroups]
  | createInvitation claims newId role now =>
      obtain ⟨created, hcreated, hphase⟩ := Except.map_eq_ok.mp hstart
      obtain ⟨rfl, rfl⟩ := UserPhase.writing.inj hphase
      simp only [createInvitation, Except.bind_eq_ok] at hcreated
      obtain ⟨_, -, _, -, hok⟩ := hcreated
      obtain rfl := Except.ok.inj hok
      cases eventsFirst <;> simp [Work.tasks, flushTasks, eventTasks]
  | acceptInvitation invitationId newId now =>
      have hphase := UserStore.acceptInvitation_eq_ok hstart
      contradiction

end NotifyHub
