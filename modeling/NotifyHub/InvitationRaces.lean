import NotifyHub.UserRequests
import NotifyHub.RowTransactions
import Mathlib.Tactic

/-!
# One invitation

An acceptance reads the invitation without a lock, checks it again under
`FOR UPDATE`, and commits the user together with `accepted_at`.  A revocation
reads the invitation once and sends its DELETE with the commit; the DELETE
waits for the lock of the row and finds it by its primary key, whatever
`accepted_at` has become in the meantime.
-/

namespace NotifyHub

/-- The columns of `invitations` which the two requests read. -/
structure InvitationRow (Id : Type) where
  tenantId : Id
  email : Text
  role : UserRole
  expiresAt : Instant
  acceptedAt : Option Instant
  deriving DecidableEq, Repr

/-- The row of `users` which an acceptance inserts. -/
structure InvitedUser (Id : Type) where
  id : Id
  tenantId : Id
  email : Text
  passwordHash : Text
  role : UserRole
  status : UserStatus
  deriving DecidableEq, Repr

inductive InvitationRequest (Id : Type)
  | accept (userId : Id) (passwordHash : Text)
  | revoke (claims : AccessClaims Id) (tid : Id)

inductive InvitationAnswer (Id : Type)
  | created (userId tenantId : Id)
  | noContent
  | refused (problem : Problem)
  | failed
  deriving DecidableEq, Repr

/-- How far a request has come.  `accepting` and `deleted` hold the lock of the
row; `deletedNothing` is a DELETE which has matched no row. -/
inductive InvitationPhase (Id : Type)
  | idle
  | found (userId : Id) (passwordHash : Text)
  | unregistered (userId : Id) (passwordHash : Text)
  | locking (userId : Id) (passwordHash : Text)
  | accepting
      (invitation : InvitationRow Id) (user : InvitedUser Id) (now : Instant)
  | deleting
  | deleted (invitation : InvitationRow Id)
  | deletedNothing
  | answered (answer : InvitationAnswer Id)
  deriving DecidableEq

/-- A commit which has written the row, with the version it was based on. -/
inductive InvitationEvent (Id : Type)
  | accepted
      (invitation : InvitationRow Id) (user : InvitedUser Id) (now : Instant)
  | revoked (invitation : InvitationRow Id)

inductive InvitationAction (Process : Type*) (Id : Type)
  | find (process : Process) (request : InvitationRequest Id) (now : Instant)
  | checkEmail (process : Process) (registered : Bool)
  | openTenant (process : Process) (status : TenantStatus)
  | lock (process : Process) (now : Instant)
  | delete (process : Process)
  | commit (process : Process) (registered : Bool)
  | abort (process : Process)

def InvitationAction.process {Process : Type*} {Id : Type} :
    InvitationAction Process Id → Process
  | .find process .. | .checkEmail process _ | .openTenant process _
  | .lock process _ | .delete process | .commit process _
  | .abort process => process

abbrev InvitationState (Process : Type*) (Id : Type) :=
  RowState Process (Option (InvitationRow Id)) (InvitationEvent Id)
    (InvitationPhase Id)

variable {Process : Type*} {Id : Type}

def emailRegistered : Problem :=
  conflict "Email already registered.".toList

/-! ## The checks -/

/-- `find_invitation`, and the checks of `accept_invitation` on what it
returns. -/
def findInvitation (row : Option (InvitationRow Id)) (now : Instant) :
    Except Problem (InvitationRow Id) :=
  match row with
  | none => .error invalidInvitation
  | some identity => do
      raiseIf (identity.acceptedAt.isSome = true) invalidInvitation
      raiseIf (identity.expiresAt < now) invitationExpired
      .ok identity

def InvitationRow.user
    (invitation : InvitationRow Id) (userId : Id) (passwordHash : Text) :
    InvitedUser Id where
  id := userId
  tenantId := invitation.tenantId
  email := invitation.email
  passwordHash := passwordHash
  role := invitation.role
  status := .active

variable [DecidableEq Id]

/-- The checks of `revoke_invitation`. -/
def revokeInvitation
    (row : Option (InvitationRow Id)) (claims : AccessClaims Id) (tid : Id) :
    Except Problem (InvitationRow Id) := do
  requireAdmin claims
  match row.filter fun invitation => invitation.tenantId = tid with
  | none => .error (notFound "Invitation not found.".toList)
  | some invitation =>
      raiseIf (invitation.acceptedAt.isSome = true)
        (conflict "Invitation already accepted.".toList)
      .ok invitation

def InvitationRequest.start
    (row : Option (InvitationRow Id)) (now : Instant) :
    InvitationRequest Id → InvitationPhase Id
  | .accept userId passwordHash =>
      match findInvitation row now with
      | .error problem => .answered (.refused problem)
      | .ok _ => .found userId passwordHash
  | .revoke claims tid =>
      match revokeInvitation row claims tid with
      | .error problem => .answered (.refused problem)
      | .ok _ => .deleting

/-! ## The row under its lock -/

/-- What a process is about to commit, and what a commit does to the row. -/
def invitationProtocol (Id : Type) [DecidableEq Id] :
    RowProtocol (Option (InvitationRow Id)) (InvitationEvent Id)
      (InvitationPhase Id) where
  prepared
    | .accepting invitation user now =>
        some (some { invitation with acceptedAt := some now },
          .accepted invitation user now)
    | .deleted invitation => some (none, .revoked invitation)
    | _ => none
  effect row
    | .accepted invitation _ now =>
        if row = some invitation ∧ invitation.acceptedAt = none then
          some (some { invitation with acceptedAt := some now })
        else none
    | .revoked invitation =>
        if row = some invitation then some none else none

variable [DecidableEq Process]

namespace InvitationState

def step (state : InvitationState Process Id) :
    InvitationAction Process Id → Option (InvitationState Process Id)
  | .find process request now =>
      match state.phase process with
      | .idle => some (state.goto process (request.start state.row now))
      | _ => none
  | .checkEmail process registered =>
      match state.phase process with
      | .found userId passwordHash =>
          some (state.goto process
            (if registered then .answered (.refused emailRegistered)
              else .unregistered userId passwordHash))
      | _ => none
  | .openTenant process status =>
      match state.phase process with
      | .unregistered userId passwordHash =>
          some (state.goto process
            (if status = .active then .locking userId passwordHash
              else .answered (.refused invalidInvitation)))
      | _ => none
  | .lock process now =>
      match state.phase process with
      | .locking userId passwordHash =>
          if state.holder = none then
            match state.row with
            | none => some (state.goto process (.answered .failed))
            | some invitation =>
                if invitation.acceptedAt.isSome then
                  some (state.goto process
                    (.answered (.refused invalidInvitation)))
                else
                  some (state.take process
                    (.accepting invitation
                      (invitation.user userId passwordHash) now))
          else none
      | _ => none
  | .delete process =>
      match state.phase process with
      | .deleting =>
          if state.holder = none then
            match state.row with
            | none => some (state.goto process .deletedNothing)
            | some invitation =>
                some (state.take process (.deleted invitation))
          else none
      | _ => none
  | .commit process registered =>
      match state.phase process with
      | .accepting invitation user now =>
          -- the INSERT and the UPDATE are sent with the commit
          if registered then
            some (state.release process
              (.answered (.refused integrityConflict)))
          else
            some (state.commit process
              (.answered (.created user.id user.tenantId))
              (some { invitation with acceptedAt := some now })
              (.accepted invitation user now))
      | .deleted invitation =>
          some (state.commit process (.answered .noContent) none
            (.revoked invitation))
      | .deletedNothing =>
          some (state.goto process (.answered .noContent))
      | _ => none
  | .abort process =>
      match state.phase process with
      | .idle | .answered _ => none
      | _ => some (state.release process (.answered .failed))

variable {state next : InvitationState Process Id}

theorem step_moves
    {action : InvitationAction Process Id}
    (hstep : state.step action = some next) :
    RowState.Moves (invitationProtocol Id) state action.process next := by
  cases action with
  | find process request now =>
      simp only [step] at hstep
      split at hstep
      · obtain rfl := Option.some.inj hstep
        apply RowState.Moves.goto
        unfold InvitationRequest.start
        split <;> split <;> rfl
      · contradiction
  | checkEmail process registered =>
      simp only [step] at hstep
      split at hstep
      · obtain rfl := Option.some.inj hstep
        apply RowState.Moves.goto
        split <;> rfl
      · contradiction
  | openTenant process status =>
      simp only [step] at hstep
      split at hstep
      · obtain rfl := Option.some.inj hstep
        apply RowState.Moves.goto
        split <;> rfl
      · contradiction
  | lock process now =>
      simp only [step] at hstep
      split at hstep
      · split at hstep
        next hfree =>
          split at hstep
          · exact Option.some.inj hstep ▸ .goto _ rfl
          next invitation hrow =>
            split at hstep
            · exact Option.some.inj hstep ▸ .goto _ rfl
            next hopen =>
              obtain rfl := Option.some.inj hstep
              apply RowState.Moves.take _ hfree
              rintro row event ⟨⟩
              have hnone : invitation.acceptedAt = none := by simpa using hopen
              exact if_pos ⟨hrow, hnone⟩
        · contradiction
      · contradiction
  | delete process =>
      simp only [step] at hstep
      split at hstep
      · split at hstep
        next hfree =>
          split at hstep
          · exact Option.some.inj hstep ▸ .goto _ rfl
          next invitation hrow =>
            obtain rfl := Option.some.inj hstep
            apply RowState.Moves.take _ hfree
            rintro row event ⟨⟩
            exact if_pos hrow
        · contradiction
      · contradiction
  | commit process registered =>
      simp only [step] at hstep
      split at hstep
      next hphase =>
        split at hstep
        · exact Option.some.inj hstep ▸ .release _ rfl
        · exact Option.some.inj hstep ▸ .commit _ _ _
            (congrArg (invitationProtocol Id).prepared hphase) rfl
      next hphase =>
        exact Option.some.inj hstep ▸ .commit _ _ _
          (congrArg (invitationProtocol Id).prepared hphase) rfl
      · exact Option.some.inj hstep ▸ .goto _ rfl
      · contradiction
  | abort process =>
      simp only [step] at hstep
      split at hstep
      · contradiction
      · contradiction
      · exact Option.some.inj hstep ▸ .release _ rfl

end InvitationState

/-- Any number of requests on one invitation, in whatever version it is. -/
def invitationMachine
    (Process : Type*) (Id : Type) [DecidableEq Process] [DecidableEq Id] :
    Machine (InvitationState Process Id) (InvitationAction Process Id) where
  Initial state :=
    state.holder = none ∧ (∀ process, state.phase process = .idle) ∧
      state.log = []
  step := InvitationState.step

/-! ## What the log tells -/

section Log

omit [DecidableEq Process] [DecidableEq Id]

def createdUsers (log : List (InvitationEvent Id)) : List (InvitedUser Id) :=
  log.filterMap fun
    | .accepted _ user _ => some user
    | .revoked _ => none

@[simp] theorem createdUsers_accepted
    (invitation : InvitationRow Id) (user : InvitedUser Id) (now : Instant)
    (log : List (InvitationEvent Id)) :
    createdUsers (.accepted invitation user now :: log) =
      user :: createdUsers log := rfl

@[simp] theorem createdUsers_revoked
    (invitation : InvitationRow Id) (log : List (InvitationEvent Id)) :
    createdUsers (.revoked invitation :: log) = createdUsers log := rfl

/-- Nobody has entered, or one user has and the invitation is used up. -/
def UsedOnce
    (row : Option (InvitationRow Id)) (log : List (InvitationEvent Id)) :
    Prop :=
  createdUsers log = [] ∨
    (createdUsers log).length = 1 ∧
      ∀ invitation ∈ row, invitation.acceptedAt ≠ none

/-- Every version which has been deleted was not accepted. -/
def RevokedOpen (log : List (InvitationEvent Id)) : Prop :=
  ∀ invitation, .revoked invitation ∈ log → invitation.acceptedAt = none

variable [DecidableEq Id]
variable {first row next : Option (InvitationRow Id)}
variable {log : List (InvitationEvent Id)}

/-- An event finds the version of the row which it is based on. -/
theorem invitation_effect_cases
    {event : InvitationEvent Id}
    (heffect : (invitationProtocol Id).effect row event = some next) :
    (∃ invitation user now, event = .accepted invitation user now ∧
      row = some invitation ∧ invitation.acceptedAt = none ∧
        next = some { invitation with acceptedAt := some now }) ∨
    (∃ invitation, event = .revoked invitation ∧ row = some invitation ∧
      next = none) := by
  cases event with
  | accepted invitation user now =>
      simp only [invitationProtocol] at heffect
      split at heffect
      next hopen =>
        exact .inl ⟨invitation, user, now, rfl, hopen.1, hopen.2,
          (Option.some.inj heffect).symm⟩
      · contradiction
  | revoked invitation =>
      simp only [invitationProtocol] at heffect
      split at heffect
      next hrow =>
        exact .inr ⟨invitation, rfl, hrow, (Option.some.inj heffect).symm⟩
      · contradiction

theorem UsedOnce.effect
    {event : InvitationEvent Id} (hused : UsedOnce row log)
    (heffect : (invitationProtocol Id).effect row event = some next) :
    UsedOnce next (event :: log) := by
  rcases invitation_effect_cases heffect with
    ⟨invitation, user, now, rfl, rfl, hopen, rfl⟩ |
    ⟨invitation, rfl, rfl, rfl⟩
  · rcases hused with hnone | ⟨-, hspent⟩
    · refine .inr ⟨by simp [hnone], ?_⟩
      rintro accepted ⟨⟩
      simp
    · exact absurd hopen (hspent invitation rfl)
  · rcases hused with hnone | ⟨hone, -⟩
    · exact .inl hnone
    · exact .inr ⟨hone, nofun⟩

theorem usedOnce_replay
    (hlog : (invitationProtocol Id).replay first log = some row) :
    UsedOnce row log :=
  RowProtocol.replay_invariant (.inl rfl)
    (fun _ _ _ _ hused heffect => hused.effect heffect) hlog

/-- If only open invitations have been deleted, nobody has entered by a
deleted one. -/
theorem createdUsers_of_deleted
    (hopen : RevokedOpen log)
    (hlog : (invitationProtocol Id).replay first log = some none) :
    createdUsers log = [] := by
  cases log with
  | nil => rfl
  | cons event earlier =>
      obtain ⟨before, hbefore, heffect⟩ := Option.bind_eq_some_iff.mp hlog
      rcases invitation_effect_cases heffect with
        ⟨_, _, _, _, _, _, hnext⟩ | ⟨invitation, rfl, rfl, -⟩
      · contradiction
      · rcases usedOnce_replay hbefore with hnone | ⟨-, hspent⟩
        · exact hnone
        · have hunused : invitation.acceptedAt = none :=
            hopen invitation (List.mem_cons_self ..)
          exact absurd hunused (hspent invitation rfl)

end Log

/-! ## Runs -/

/-- What an answer, and a DELETE without a row, says of the row and the
log. -/
def InvitationPhase.Sound
    (row : Option (InvitationRow Id)) (log : List (InvitationEvent Id)) :
    InvitationPhase Id → Prop
  | .answered (.created ..) => createdUsers log ≠ []
  | .answered .noContent | .deletedNothing => row = none
  | _ => True

omit [DecidableEq Process] in
theorem InvitationPhase.Sound.effect
    {phase : InvitationPhase Id} {row next : Option (InvitationRow Id)}
    {log : List (InvitationEvent Id)} {event : InvitationEvent Id}
    (hsound : phase.Sound row log)
    (heffect : (invitationProtocol Id).effect row event = some next) :
    phase.Sound next (event :: log) := by
  rcases invitation_effect_cases heffect with
    ⟨invitation, user, now, rfl, rfl, -, rfl⟩ | ⟨invitation, rfl, rfl, rfl⟩
  · unfold Sound at hsound ⊢
    split <;> simp_all
  · unfold Sound at hsound ⊢
    split <;> simp_all

/-- The row which a DELETE has found and its commit takes away. -/
def InvitationPhase.deletedRow :
    InvitationPhase Id → Option (InvitationRow Id)
  | .deleted invitation => some invitation
  | _ => none

/-- A revocation commits a DELETE which has found the invitation not accepted,
if it has found it at all. -/
def DeletesOpen (state : InvitationState Process Id) :
    InvitationAction Process Id → Prop
  | .commit process _ =>
      ∀ invitation ∈ (state.phase process).deletedRow,
        invitation.acceptedAt = none
  | _ => True

instance (state : InvitationState Process Id) :
    (action : InvitationAction Process Id) →
      Decidable (DeletesOpen state action)
  | .commit process _ =>
      inferInstanceAs (Decidable (∀ invitation ∈
        (state.phase process).deletedRow, invitation.acceptedAt = none))
  | .find .. | .checkEmail .. | .openTenant .. | .lock .. | .delete _
  | .abort _ => .isTrue trivial

structure InvitationState.Fair
    (first : Option (InvitationRow Id)) (state : InvitationState Process Id) :
    Prop where
  recorded : state.Recorded (invitationProtocol Id) first
  sound : ∀ process, (state.phase process).Sound state.row state.log
  revokedOpen : RevokedOpen state.log

omit [DecidableEq Process] in
theorem InvitationPhase.prepared_revoked
    {phase : InvitationPhase Id} {row : Option (InvitationRow Id)}
    {invitation : InvitationRow Id}
    (hprepared : (invitationProtocol Id).prepared phase =
      some (row, .revoked invitation)) : phase = .deleted invitation := by
  cases phase with
  | accepting => simp [invitationProtocol] at hprepared
  | deleted found =>
      simp only [invitationProtocol, Option.some.injEq, Prod.mk.injEq,
        InvitationEvent.revoked.injEq] at hprepared
      rw [hprepared.2]
  | _ => contradiction

/-- What the process which moves has in hand afterwards. -/
theorem InvitationState.step_sound
    {state next : InvitationState Process Id}
    {action : InvitationAction Process Id}
    (hsound : (state.phase action.process).Sound state.row state.log)
    (hstep : state.step action = some next) :
    (next.phase action.process).Sound next.row next.log := by
  cases action with
  | find process request now =>
      simp only [step] at hstep
      split at hstep
      · obtain rfl := Option.some.inj hstep
        simp only [InvitationAction.process, RowState.goto_phase_self]
        unfold InvitationRequest.start
        split <;> split <;> trivial
      · contradiction
  | checkEmail process registered =>
      simp only [step] at hstep
      split at hstep
      · obtain rfl := Option.some.inj hstep
        simp only [InvitationAction.process, RowState.goto_phase_self]
        split <;> trivial
      · contradiction
  | openTenant process status =>
      simp only [step] at hstep
      split at hstep
      · obtain rfl := Option.some.inj hstep
        simp only [InvitationAction.process, RowState.goto_phase_self]
        split <;> trivial
      · contradiction
  | lock process now =>
      simp only [step] at hstep
      split at hstep
      · split at hstep
        · split at hstep
          · obtain rfl := Option.some.inj hstep
            simp [InvitationAction.process, InvitationPhase.Sound]
          · split at hstep
            · obtain rfl := Option.some.inj hstep
              simp [InvitationAction.process, InvitationPhase.Sound]
            · obtain rfl := Option.some.inj hstep
              simp [InvitationAction.process, InvitationPhase.Sound]
        · contradiction
      · contradiction
  | delete process =>
      simp only [step] at hstep
      split at hstep
      · split at hstep
        · split at hstep
          next hrow =>
            obtain rfl := Option.some.inj hstep
            simpa [InvitationAction.process, InvitationPhase.Sound] using hrow
          · obtain rfl := Option.some.inj hstep
            simp [InvitationAction.process, InvitationPhase.Sound]
        · contradiction
      · contradiction
  | commit process registered =>
      simp only [InvitationAction.process] at hsound ⊢
      simp only [step] at hstep
      split at hstep
      · split at hstep
        · obtain rfl := Option.some.inj hstep
          simp [InvitationPhase.Sound]
        · obtain rfl := Option.some.inj hstep
          simp [RowState.commit, InvitationPhase.Sound]
      · obtain rfl := Option.some.inj hstep
        simp [InvitationPhase.Sound]
      next hphase =>
        obtain rfl := Option.some.inj hstep
        rw [hphase] at hsound
        simpa [InvitationPhase.Sound] using hsound
      · contradiction
  | abort process =>
      simp only [step] at hstep
      split at hstep
      · contradiction
      · contradiction
      · obtain rfl := Option.some.inj hstep
        simp [InvitationAction.process, InvitationPhase.Sound]

/-- Only the commit of a DELETE writes an event about it. -/
theorem InvitationState.deleted_open
    {state next : InvitationState Process Id}
    {action : InvitationAction Process Id} {invitation : InvitationRow Id}
    {event : InvitationEvent Id} (hallowed : DeletesOpen state action)
    (hphase : state.phase action.process = .deleted invitation)
    (hlog : next.log = event :: state.log)
    (hstep : state.step action = some next) :
    invitation.acceptedAt = none := by
  cases action with
  | commit process registered =>
      apply hallowed invitation
      rw [InvitationAction.process] at hphase
      rw [hphase]
      rfl
  | abort process =>
      rw [InvitationAction.process] at hphase
      simp only [step, hphase, Option.some.injEq] at hstep
      subst hstep
      exact absurd hlog.symm (List.cons_ne_self event state.log)
  | _ =>
      rw [InvitationAction.process] at hphase
      simp [step, hphase] at hstep

theorem InvitationState.Fair.step
    {first : Option (InvitationRow Id)} {state next : InvitationState Process Id}
    {action : InvitationAction Process Id} (hfair : state.Fair first)
    (hallowed : DeletesOpen state action)
    (hstep : state.step action = some next) : next.Fair first := by
  have hmoves := step_moves hstep
  have hself := step_sound (hfair.sound action.process) hstep
  rcases hmoves.row_log hfair.recorded with
    ⟨hrow, hlog⟩ | ⟨event, hprepared, heffect, hlog⟩
  · refine ⟨hmoves.recorded hfair.recorded, fun other => ?_, ?_⟩
    · by_cases hother : other = action.process
      · exact hother ▸ hself
      · rw [hmoves.phase_of_ne hother, hrow, hlog]
        exact hfair.sound other
    · rw [hlog]
      exact hfair.revokedOpen
  · refine ⟨hmoves.recorded hfair.recorded, fun other => ?_, ?_⟩
    · by_cases hother : other = action.process
      · exact hother ▸ hself
      · rw [hmoves.phase_of_ne hother, hlog]
        exact (hfair.sound other).effect heffect
    · rw [hlog]
      intro invitation hmem
      rcases List.mem_cons.mp hmem with rfl | hmem
      · exact deleted_open hallowed
          (InvitationPhase.prepared_revoked hprepared) hlog hstep
      · exact hfair.revokedOpen invitation hmem

omit [DecidableEq Id] in
theorem InvitationState.recorded_of_initial [DecidableEq Id]
    {state : InvitationState Process Id}
    (hinitial : (invitationMachine Process Id).Initial state) :
    state.Recorded (invitationProtocol Id) state.row := by
  obtain ⟨-, hidle, hlog⟩ := hinitial
  refine RowState.Recorded.of_initial rfl hlog fun process => ?_
  rw [hidle process]
  rfl

theorem InvitationState.fair_of_initial
    {state : InvitationState Process Id}
    (hinitial : (invitationMachine Process Id).Initial state) :
    state.Fair state.row := by
  refine ⟨recorded_of_initial hinitial, fun process => ?_, ?_⟩
  · rw [hinitial.2.1 process]
    trivial
  · rw [hinitial.2.2]
    exact nofun

theorem InvitationState.exists_recorded
    {state : InvitationState Process Id}
    (hreach : (invitationMachine Process Id).Reachable state) :
    ∃ first, state.Recorded (invitationProtocol Id) first := by
  induction hreach with
  | initial hstart => exact ⟨_, recorded_of_initial hstart⟩
  | step _ _ hstep ih =>
      obtain ⟨first, hrecorded⟩ := ih
      exact ⟨first, (step_moves hstep).recorded hrecorded⟩

theorem InvitationState.exists_fair
    {state : InvitationState Process Id}
    (hreach : (invitationMachine Process Id).ReachableWhere DeletesOpen state) :
    ∃ first, state.Fair first := by
  induction hreach with
  | initial hstart => exact ⟨_, fair_of_initial hstart⟩
  | step _ hallowed hstep ih =>
      obtain ⟨first, hfair⟩ := ih
      exact ⟨first, hfair.step hallowed hstep⟩

/-- One invitation lets at most one user in, in every run. -/
theorem createdUsers_length_le_one
    {state : InvitationState Process Id}
    (hreach : (invitationMachine Process Id).Reachable state) :
    (createdUsers state.log).length ≤ 1 := by
  obtain ⟨first, hrecorded⟩ := InvitationState.exists_recorded hreach
  rcases usedOnce_replay hrecorded.replayed with hnone | ⟨hone, -⟩
  · simp [hnone]
  · exact hone.le

/-- As long as no DELETE of an accepted invitation is committed, an acceptance
and a revocation never both succeed. -/
theorem accepted_once_and_not_revoked
    {state : InvitationState Process Id}
    (hreach : (invitationMachine Process Id).ReachableWhere DeletesOpen state) :
    (createdUsers state.log).length ≤ 1 ∧
      ∀ accepter revoker userId tenantId,
        state.phase accepter = .answered (.created userId tenantId) →
          state.phase revoker ≠ .answered .noContent := by
  refine ⟨createdUsers_length_le_one hreach.reachable, ?_⟩
  intro accepter revoker userId tenantId haccepted hrevoked
  obtain ⟨first, hfair⟩ := InvitationState.exists_fair hreach
  have hdeleted := hfair.sound revoker
  rw [hrevoked] at hdeleted
  have hentered := hfair.sound accepter
  rw [haccepted] at hentered
  have hlog := hfair.recorded.replayed
  rw [show state.row = none from hdeleted] at hlog
  exact hentered (createdUsers_of_deleted hfair.revokedOpen hlog)

def openInvitation : InvitationRow ℕ :=
  ⟨0, "guest@example".toList, .member, 100, none⟩

def invitationAtRest : InvitationState (Fin 2) ℕ where
  row := some openInvitation
  holder := none
  phase _ := .idle
  log := []

theorem invitationAtRest_initial :
    (invitationMachine (Fin 2) ℕ).Initial invitationAtRest :=
  ⟨rfl, fun _ => rfl, rfl⟩

/-- An acceptance up to its commit. -/
def acceptance : List (InvitationAction (Fin 2) ℕ) :=
  [.find 0 (.accept 7 "hash".toList) 10, .checkEmail 0 false,
    .openTenant 0 .active, .lock 0 11, .commit 0 false]

theorem accepted_once_and_not_revoked_acceptance :
    ∃ state : InvitationState (Fin 2) ℕ,
      (invitationMachine (Fin 2) ℕ).run invitationAtRest
        (acceptance ++ [.find 1 (.revoke ⟨1, .admin⟩ 0) 12]) = some state ∧
      (createdUsers state.log).length ≤ 1 ∧
      ∀ accepter revoker userId tenantId,
        state.phase accepter = .answered (.created userId tenantId) →
          state.phase revoker ≠ .answered .noContent := by
  obtain ⟨state, hrun⟩ : ∃ state : InvitationState (Fin 2) ℕ,
      (invitationMachine (Fin 2) ℕ).run invitationAtRest
        (acceptance ++ [.find 1 (.revoke ⟨1, .admin⟩ 0) 12]) = some state :=
    ⟨_, rfl⟩
  have hallowed : (invitationMachine (Fin 2) ℕ).AllowedAlong DeletesOpen
      invitationAtRest
      (acceptance ++ [.find 1 (.revoke ⟨1, .admin⟩ 0) 12]) := by
    decide
  exact ⟨state, hrun, accepted_once_and_not_revoked
    (Machine.ReachableWhere.run (.initial invitationAtRest_initial) hallowed
      hrun)⟩

/-- The revocation has read the invitation before it is accepted and deletes
it afterwards: a user has entered, and both requests report success. -/
theorem accepted_and_revoked :
    ∃ state : InvitationState (Fin 2) ℕ,
      (invitationMachine (Fin 2) ℕ).Reachable state ∧
      state.phase 0 = .answered (.created 7 0) ∧
      state.phase 1 = .answered .noContent ∧
      (createdUsers state.log).length = 1 ∧ state.row = none := by
  obtain ⟨state, hrun, hfinal⟩ : ∃ state : InvitationState (Fin 2) ℕ,
      (invitationMachine (Fin 2) ℕ).run invitationAtRest
        (.find 1 (.revoke ⟨1, .admin⟩ 0) 9 :: acceptance ++
          [.delete 1, .commit 1 false]) = some state ∧
      state.phase 0 = .answered (.created 7 0) ∧
      state.phase 1 = .answered .noContent ∧
      (createdUsers state.log).length = 1 ∧ state.row = none :=
    ⟨_, rfl, by decide +kernel⟩
  exact ⟨state,
    Machine.Reachable.run (.initial invitationAtRest_initial) hrun, hfinal⟩

end NotifyHub
