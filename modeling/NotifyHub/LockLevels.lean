import NotifyHub.AuditedRequests
import NotifyHub.LockOrder
import Mathlib.Tactic

/-!
# Levels of the locks around the users

The locks which the requests take on an invitation, the tenant and the users,
numbered so that each request takes them upwards.  The tenant comes before the
users, but two things depend on the edits which are open: which user acts
after which, since the event of an edit shares the row of the user who acts
under the lock of its target, and whether a user is only locked under the
tenant.
-/

namespace NotifyHub

open LockOrder

/-- The rows which these requests lock. -/
inductive LockedRow (Id : Type)
  | invitation (id : Id)
  | tenant
  | user (id : Id)
  deriving DecidableEq

abbrev LockRequest (Id : Type) := LockedRow Id × LockMode

/-- What is left open in the order of the locks: which users act after which,
and whose row is only locked under the tenant. -/
structure LockLevels (Id : Type) where
  share : Id → ℕ
  guarded : Id → Bool

def LockLevels.level {Id : Type} (levels : LockLevels Id) :
    LockRequest Id → ℕ
  | (.invitation _, _) => 0
  | (.tenant, .forUpdate) => 1
  | (.tenant, _) => 4
  | (.user id, .forUpdate) => if levels.guarded id then 5 else 2
  | (.user id, .noKeyUpdate) => if levels.guarded id then 6 else 3
  | (.user id, .keyShare) => 7 + levels.share id

variable {Process : Type*} {Id : Type}

def Statement.request : Statement Id → Option (LockRequest Id)
  | .shareTenant => some (.tenant, .keyShare)
  | .shareUser userId => some (.user userId, .keyShare)
  | .lockUser userId => some (.user userId, .forUpdate)
  | .writeUser userId => some (.user userId, .noKeyUpdate)
  | .readGroups _ | .readTokens => none

def Task.request : Task Id → Option (LockRequest Id)
  | .event lock => lock.request
  | .run statement => statement.request

def requests (tasks : List (Task Id)) : List (LockRequest Id) :=
  tasks.filterMap Task.request

@[simp] theorem requests_nil : requests ([] : List (Task Id)) = [] := rfl

@[simp] theorem requests_cons (task : Task Id) (tasks : List (Task Id)) :
    requests (task :: tasks) = task.request.toList ++ requests tasks := by
  unfold requests
  rw [List.filterMap_cons]
  cases task.request <;> rfl

/-- The edit ends the sessions of another user than the one who acts. -/
def Edit.EndsOther (edit : Edit Id) : Prop :=
  edit.endsSessions = true ∧ edit.target ≠ edit.claims.sub

/-- The edit writes its user and locks nothing before. -/
def Edit.Lone (edit : Edit Id) : Prop :=
  edit.guarded = false ∧ edit.endsSessions = false ∧ edit.final ≠ edit.loaded

instance [DecidableEq Id] (edit : Edit Id) : Decidable edit.EndsOther :=
  inferInstanceAs (Decidable (_ ∧ _))

instance (edit : Edit Id) : Decidable edit.Lone :=
  inferInstanceAs (Decidable (_ ∧ _))

/-! ## The plans of the requests -/

/-- An order in which an edit takes its locks upwards. -/
structure LockLevels.Fits
    (levels : LockLevels Id) (eventsFirst : Bool) (edit : Edit Id) :
    Prop where
  acts : edit.EndsOther → levels.share edit.target < levels.share edit.claims.sub
  first : eventsFirst = true → ∀ id, levels.guarded id = true
  guarded : edit.guarded = true → levels.guarded edit.target = true
  lone : eventsFirst = false → edit.Lone → levels.guarded edit.target = false

namespace LockLevels

variable {levels : LockLevels Id} {bound : ℕ}

@[simp] theorem below_invitation (id : Id) (mode : LockMode) :
    Below levels.level (.invitation id, mode) bound ↔ 0 < bound :=
  ⟨fun hbelow => hbelow .forUpdate (by cases mode <;> rfl), fun hpos _ _ => hpos⟩

@[simp] theorem below_tenant_forUpdate :
    Below levels.level (.tenant, .forUpdate) bound ↔ 4 < bound := by
  constructor
  · intro hbelow
    exact hbelow .keyShare rfl
  · intro hbound mode _
    cases mode <;> simp only [level] <;> omega

@[simp] theorem below_tenant_keyShare :
    Below levels.level (.tenant, .keyShare) bound ↔ 1 < bound := by
  constructor
  · intro hbelow
    exact hbelow .forUpdate rfl
  · intro hbound mode hconflict
    cases mode with
    | forUpdate => exact hbound
    | _ => contradiction

@[simp] theorem below_user_forUpdate (id : Id) :
    Below levels.level (.user id, .forUpdate) bound ↔
      7 + levels.share id < bound := by
  constructor
  · intro hbelow
    exact hbelow .keyShare rfl
  · intro hbound mode _
    cases mode <;> simp only [level] <;> grind

@[simp] theorem below_user_noKeyUpdate (id : Id) :
    Below levels.level (.user id, .noKeyUpdate) bound ↔
      (if levels.guarded id then 6 else 3) < bound := by
  constructor
  · intro hbelow
    exact hbelow .noKeyUpdate rfl
  · intro hbound mode hconflict
    cases mode with
    | keyShare => contradiction
    | noKeyUpdate => exact hbound
    | forUpdate =>
        simp only [level]
        grind

@[simp] theorem below_user_keyShare (id : Id) :
    Below levels.level (.user id, .keyShare) bound ↔
      (if levels.guarded id then 5 else 2) < bound := by
  constructor
  · intro hbelow
    exact hbelow .forUpdate rfl
  · intro hbound mode hconflict
    cases mode with
    | forUpdate => exact hbound
    | _ => contradiction

theorem planned_scope (levels : LockLevels Id) (userId : Id) :
    Planned levels.level []
      [(.tenant, .keyShare), (.user userId, .forUpdate)] := by
  simp [Planned, Next, level]
  grind

theorem planned_accept (levels : LockLevels Id) (invitationId : Id) :
    Planned levels.level []
      [(.invitation invitationId, .forUpdate), (.tenant, .keyShare)] := by
  simp [Planned, Next, level]

theorem planned_create
    (levels : LockLevels Id) (eventsFirst : Bool) (claims : AccessClaims Id)
    (userId : Id) (body : UserCreateIn Id) :
    Planned levels.level []
      (requests ((Work.create claims userId body).tasks eventsFirst)) := by
  cases eventsFirst <;> by_cases hgroups : body.groupIds = [] <;>
    simp [Work.tasks, flushTasks, eventTasks, hgroups, Task.request,
      Statement.request, Planned, Next, level, LockMode.covers] <;>
    grind

theorem planned_invite
    (levels : LockLevels Id) (eventsFirst : Bool) (invitationId : Id)
    (invitation : Invitation Id) :
    Planned levels.level []
      (requests ((Work.invite invitationId invitation).tasks eventsFirst)) := by
  cases eventsFirst <;>
    simp [Work.tasks, flushTasks, eventTasks, Task.request,
      Statement.request, Planned, Next, level, LockMode.covers] <;>
    grind

theorem below_tenant {entry : LockRequest Id} (htenant : entry.1 = .tenant)
    (hbound : 4 < bound) : Below levels.level entry bound := by
  obtain ⟨row, mode⟩ := entry
  change row = .tenant at htenant
  subst htenant
  intro other _
  cases other <;> simp only [level] <;> omega

/-- What a transaction on one user has locked after the tenant. -/
def HoldsUser (target : Id) (held : List (LockRequest Id)) : Prop :=
  ∀ entry ∈ held, entry.1 = .tenant ∨ entry = (.user target, .forUpdate) ∨
    entry = (.user target, .noKeyUpdate) ∨ ∃ id, entry = (.user id, .keyShare)

theorem next_shareUser
    {target id : Id} {held : List (LockRequest Id)}
    (hheld : HoldsUser target held)
    (hacts : (.user target, .forUpdate) ∈ held → target ≠ id →
      levels.share target < levels.share id) :
    Next levels.level held (.user id, .keyShare) := by
  by_cases hcovered : (.user target, .forUpdate) ∈ held ∧ target = id
  · obtain ⟨hmem, rfl⟩ := hcovered
    exact .inl ⟨_, hmem, rfl, rfl⟩
  · right
    intro entry hentry
    rcases hheld entry hentry with htenant | rfl | rfl | ⟨shared, rfl⟩
    · apply below_tenant htenant
      simp only [level]
      omega
    · have hless := hacts hentry fun hsame => hcovered ⟨hentry, hsame⟩
      simpa [level] using hless
    · rw [below_user_noKeyUpdate]
      simp only [level]
      split <;> omega
    · rw [below_user_keyShare]
      simp only [level]
      split <;> omega

theorem next_writeUser
    {target : Id} {held : List (LockRequest Id)}
    (hheld : HoldsUser target held)
    (hwrite : levels.guarded target = true ∨
      (.user target, .forUpdate) ∈ held ∨ (.user target, .noKeyUpdate) ∈ held) :
    Next levels.level held (.user target, .noKeyUpdate) := by
  by_cases hlocked : (.user target, .forUpdate) ∈ held
  · exact .inl ⟨_, hlocked, rfl, rfl⟩
  by_cases hwritten : (.user target, .noKeyUpdate) ∈ held
  · exact .inl ⟨_, hwritten, rfl, rfl⟩
  · have hguarded : levels.guarded target = true := by
      rcases hwrite with hguarded | hmem | hmem
      · exact hguarded
      · contradiction
      · contradiction
    right
    intro entry hentry
    have hlevel : levels.level (.user target, .noKeyUpdate) = 6 := by
      simp [level, hguarded]
    rw [hlevel]
    rcases hheld entry hentry with htenant | rfl | rfl | ⟨shared, rfl⟩
    · exact below_tenant htenant (by omega)
    · contradiction
    · contradiction
    · rw [below_user_keyShare]
      split <;> omega

/-- Once the tenant is locked, the writes of an edit and its events follow in
any order. -/
theorem planned_rest
    {target actor : Id} {held rest : List (LockRequest Id)}
    (htenant : ∃ mode, (.tenant, mode) ∈ held)
    (hheld : HoldsUser target held)
    (hacts : (.user target, .forUpdate) ∈ held → target ≠ actor →
      levels.share target < levels.share actor)
    (hwrite : (.user target, .noKeyUpdate) ∈ rest →
      levels.guarded target = true ∨ (.user target, .forUpdate) ∈ held ∨
        (.user target, .noKeyUpdate) ∈ held)
    (hrest : ∀ request ∈ rest, request = (.tenant, .keyShare) ∨
      request = (.user target, .noKeyUpdate) ∨
      request = (.user target, .keyShare) ∨
      request = (.user actor, .keyShare)) :
    Planned levels.level held rest := by
  induction rest generalizing held with
  | nil => trivial
  | cons request rest ih =>
      have hnext := hrest request List.mem_cons_self
      refine ⟨?_, ih ?_ ?_ ?_ ?_ ?_⟩
      · rcases hnext with rfl | rfl | rfl | rfl
        · obtain ⟨mode, hmem⟩ := htenant
          exact .inl ⟨_, hmem, rfl, by cases mode <;> rfl⟩
        · exact next_writeUser hheld (hwrite List.mem_cons_self)
        · exact next_shareUser hheld fun _ hne => absurd rfl hne
        · exact next_shareUser hheld hacts
      · obtain ⟨mode, hmem⟩ := htenant
        exact ⟨mode, List.mem_cons_of_mem _ hmem⟩
      · intro entry hentry
        rcases List.mem_cons.mp hentry with rfl | hentry
        · rcases hnext with rfl | rfl | rfl | rfl
          · exact .inl rfl
          · exact .inr (.inr (.inl rfl))
          · exact .inr (.inr (.inr ⟨_, rfl⟩))
          · exact .inr (.inr (.inr ⟨_, rfl⟩))
        · exact hheld entry hentry
      · intro hmem
        apply hacts
        rcases List.mem_cons.mp hmem with rfl | hmem
        · simp at hnext
        · exact hmem
      · intro hmem
        rcases hwrite (List.mem_cons_of_mem _ hmem) with hguarded | hheld | hheld
        · exact .inl hguarded
        · exact .inr (.inl (List.mem_cons_of_mem _ hheld))
        · exact .inr (.inr (List.mem_cons_of_mem _ hheld))
      · exact fun other hmem => hrest other (List.mem_cons_of_mem _ hmem)

theorem requests_writeTasks
    (eventsFirst : Bool) (edit : Edit Id) :
    ∀ request ∈ requests (edit.writeTasks eventsFirst),
      request = (.tenant, .keyShare) ∨
        (request = (.user edit.target, .noKeyUpdate) ∧
          edit.final ≠ edit.loaded) ∨
        request = (.user edit.target, .keyShare) ∨
        request = (.user edit.claims.sub, .keyShare) := by
  rcases edit with ⟨claims, target, loaded, final, groupIds, guarded, ends⟩
  rcases groupIds with _ | _ | ⟨group, groups⟩ <;> cases eventsFirst <;>
    by_cases hwrites : final = loaded <;> cases ends <;>
      simp [Edit.writeTasks, flushTasks, eventTasks, Task.request,
        Statement.request, hwrites]

/-- What an edit which locks nothing first starts with. -/
theorem requests_writeTasks_start
    (eventsFirst : Bool) (edit : Edit Id) :
    requests (edit.writeTasks eventsFirst) = [] ∨
    (∃ rest, requests (edit.writeTasks eventsFirst) =
        (.tenant, .keyShare) :: rest ∧
      (eventsFirst = true ∨ edit.final = edit.loaded)) ∨
    ∃ rest, requests (edit.writeTasks eventsFirst) =
        (.user edit.target, .noKeyUpdate) :: (.tenant, .keyShare) :: rest ∧
      eventsFirst = false ∧ edit.final ≠ edit.loaded := by
  rcases edit with ⟨claims, target, loaded, final, groupIds, guarded, ends⟩
  rcases groupIds with _ | _ | ⟨group, groups⟩ <;> cases eventsFirst <;>
    by_cases hwrites : final = loaded <;> cases ends <;>
      simp [Edit.writeTasks, flushTasks, eventTasks, Task.request,
        Statement.request, hwrites]

/-- The writes of an edit under a lock of the tenant. -/
theorem Fits.planned_writeTasks
    {eventsFirst : Bool} {edit : Edit Id} {held : List (LockRequest Id)}
    (hfits : levels.Fits eventsFirst edit)
    (htenant : ∃ mode, (.tenant, mode) ∈ held)
    (hheld : HoldsUser edit.target held)
    (hends : (.user edit.target, .forUpdate) ∈ held ↔ edit.endsSessions = true)
    (hwrite : edit.endsSessions = true ∨ levels.guarded edit.target = true ∨
      (.user edit.target, .noKeyUpdate) ∈ held ∨ edit.final = edit.loaded) :
    ∀ rest, (∀ request ∈ rest,
        request ∈ requests (edit.writeTasks eventsFirst)) →
      Planned levels.level held rest := by
  intro rest hrest
  apply planned_rest htenant hheld
  · exact fun hmem hne => hfits.acts ⟨hends.mp hmem, hne⟩
  · intro hmem
    rcases hwrite with hwrite | hwrite | hwrite | hwrite
    · exact .inr (.inl (hends.mpr hwrite))
    · exact .inl hwrite
    · exact .inr (.inr hwrite)
    · rcases requests_writeTasks eventsFirst edit _ (hrest _ hmem) with
        h | ⟨-, h⟩ | h | h
      · simp at h
      · contradiction
      · simp at h
      · simp at h
  · intro request hmem
    rcases requests_writeTasks eventsFirst edit _ (hrest _ hmem) with
      h | ⟨h, -⟩ | h | h
    · exact .inl h
    · exact .inr (.inl h)
    · exact .inr (.inr (.inl h))
    · exact .inr (.inr (.inr h))

/-- An edit which counts the owners holds the tenant throughout. -/
theorem Fits.planned_guarded
    {eventsFirst : Bool} {edit : Edit Id} (hfits : levels.Fits eventsFirst edit)
    (hguarded : edit.guarded = true) :
    Planned levels.level []
      ((.tenant, .forUpdate) :: requests (edit.tasks eventsFirst)) := by
  have htarget := hfits.guarded hguarded
  refine ⟨by simp [Next], ?_⟩
  cases hends : edit.endsSessions with
  | true =>
      simp only [Edit.tasks, hends, if_pos, List.cons_append, List.nil_append,
        requests_cons, Task.request, Statement.request, Option.toList_some]
      refine ⟨?_, ?_, ?_⟩
      · simp [Next, LockMode.covers]
      · simp [Next, level, htarget]
      · refine hfits.planned_writeTasks ⟨.forUpdate, by simp⟩ ?_ ?_
          (.inl hends) _ fun _ hmem => hmem
        · simp [HoldsUser]
        · simp [hends]
  | false =>
      simp only [Edit.tasks, hends, Bool.false_eq_true, if_false,
        List.nil_append]
      refine hfits.planned_writeTasks ⟨.forUpdate, by simp⟩ ?_ ?_
        (.inr (.inl htarget)) _ fun _ hmem => hmem
      · simp [HoldsUser]
      · simp [hends]

/-- An edit which does not, locks the tenant itself or starts with its
write. -/
theorem Fits.planned_unguarded
    {eventsFirst : Bool} {edit : Edit Id} (hfits : levels.Fits eventsFirst edit)
    (hguarded : edit.guarded = false) :
    Planned levels.level [] (requests (edit.tasks eventsFirst)) := by
  cases hends : edit.endsSessions with
  | true =>
      simp only [Edit.tasks, hends, if_pos, List.cons_append, List.nil_append,
        requests_cons, Task.request, Statement.request, Option.toList_some]
      refine ⟨by simp [Next], ?_, ?_⟩
      · simp only [Next, level]
        grind [below_tenant_keyShare]
      · refine hfits.planned_writeTasks ⟨.keyShare, by simp⟩ ?_ ?_
          (.inl hends) _ fun _ hmem => hmem
        · simp [HoldsUser]
        · simp [hends]
  | false =>
      simp only [Edit.tasks, hends, Bool.false_eq_true, if_false,
        List.nil_append]
      rcases requests_writeTasks_start eventsFirst edit with
        hnone | ⟨rest, htasks, hfirst⟩ | ⟨rest, htasks, hlast, hwrites⟩
      · rw [hnone]
        trivial
      · rw [htasks]
        refine ⟨by simp [Next], ?_⟩
        refine hfits.planned_writeTasks ⟨.keyShare, by simp⟩ ?_ ?_ ?_ _ ?_
        · simp [HoldsUser]
        · simp [hends]
        · rcases hfirst with hfirst | hsame
          · exact .inr (.inl (hfits.first hfirst _))
          · exact .inr (.inr (.inr hsame))
        · intro request hmem
          rw [htasks]
          exact List.mem_cons_of_mem _ hmem
      · have hlone := hfits.lone hlast ⟨hguarded, hends, hwrites⟩
        rw [htasks]
        refine ⟨by simp [Next], ?_, ?_⟩
        · simp [Next, level, hlone]
        · refine hfits.planned_writeTasks ⟨.keyShare, by simp⟩ ?_ ?_ ?_ _ ?_
          · simp [HoldsUser]
          · simp [hends]
          · exact .inr (.inr (.inl (by simp)))
          · intro request hmem
            rw [htasks]
            exact List.mem_cons_of_mem _ (List.mem_cons_of_mem _ hmem)

theorem requests_skipEvent
    (levels : LockLevels Id) (held : List (LockRequest Id))
    (eventsFirst : Bool) (actor target : Id)
    (hplanned : Planned levels.level held (requests (eventTasks actor ++
      flushTasks eventsFirst actor [.shareTenant, .shareUser target]))) :
    Planned levels.level held (requests
      (flushTasks eventsFirst actor [.shareTenant, .shareUser target])) := by
  cases eventsFirst <;>
    simp [flushTasks, eventTasks, Task.request, Statement.request, Planned,
      Next, level, LockMode.covers] at hplanned ⊢ <;>
    grind

end LockLevels

/-- What follows the read of the memberships may do without the events of the
deleted ones. -/
def Skippable : List (Task Id) → Prop
  | [] => True
  | .run (.readGroups _) :: tasks =>
      (∀ (levels : LockLevels Id) held,
        Planned levels.level held (requests tasks) →
          Planned levels.level held (requests (skipEvent tasks))) ∧
        Skippable tasks
  | _ :: tasks => Skippable tasks

theorem Skippable.tail
    {task : Task Id} {tasks : List (Task Id)}
    (hskippable : Skippable (task :: tasks)) : Skippable tasks := by
  unfold Skippable at hskippable
  split at hskippable
  · contradiction
  next htasks =>
    obtain ⟨rfl, rfl⟩ := List.cons.inj htasks
    exact hskippable.2
  next htasks =>
    obtain ⟨rfl, rfl⟩ := List.cons.inj htasks
    exact hskippable

theorem Skippable.skipEvent
    {tasks : List (Task Id)} (hskippable : Skippable tasks) :
    Skippable (skipEvent tasks) := by
  unfold NotifyHub.skipEvent
  split
  · exact hskippable.tail.tail
  · exact hskippable

theorem Skippable.afterStatement
    {tasks : List (Task Id)} (hskippable : Skippable tasks)
    (phase : UserPhase Id) (statement : Statement Id) :
    Skippable (phase.afterStatement tasks statement) := by
  cases statement with
  | readGroups groupIds =>
      simp only [UserPhase.afterStatement]
      split
      · split
        · exact hskippable
        · exact hskippable.skipEvent
      · exact hskippable
  | _ => exact hskippable

theorem Skippable.planned_afterStatement
    {statement : Statement Id} {tasks : List (Task Id)}
    (hskippable : Skippable (.run statement :: tasks)) (phase : UserPhase Id)
    {levels : LockLevels Id} {held : List (LockRequest Id)}
    (hplanned : Planned levels.level held (requests tasks)) :
    Planned levels.level held
      (requests (phase.afterStatement tasks statement)) := by
  cases statement with
  | readGroups groupIds =>
      simp only [UserPhase.afterStatement]
      split
      · split
        · exact hplanned
        · exact hskippable.1 levels held hplanned
      · exact hplanned
  | _ => exact hplanned

theorem Edit.skippable (eventsFirst : Bool) (edit : Edit Id) :
    Skippable (edit.tasks eventsFirst) := by
  have hskip := fun levels held => LockLevels.requests_skipEvent levels held
    eventsFirst edit.claims.sub edit.target
  rcases edit with ⟨claims, target, loaded, final, groupIds, guarded, ends⟩
  rcases groupIds with _ | _ | ⟨group, groups⟩ <;> cases ends <;>
    cases eventsFirst <;> by_cases hwrites : final = loaded <;>
      simp_all [tasks, writeTasks, flushTasks, eventTasks, Skippable,
        skipEvent, Task.request, Statement.request, Planned]

theorem Work.skippable (eventsFirst : Bool) (work : Work Id) :
    Skippable (work.tasks eventsFirst) := by
  cases work with
  | edit change progress => exact change.skippable eventsFirst
  | create claims userId body =>
      cases eventsFirst <;> by_cases hgroups : body.groupIds = [] <;>
        simp [tasks, flushTasks, eventTasks, hgroups, Skippable]
  | invite invitationId invitation =>
      cases eventsFirst <;> simp [tasks, flushTasks, eventTasks, Skippable]
  | accept invitationId invitation userId now => simp [tasks, Skippable]

end NotifyHub
