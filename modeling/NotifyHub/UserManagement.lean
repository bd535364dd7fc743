import NotifyHub.DomainTypes
import NotifyHub.RowLocks
import NotifyHub.RowTransactions
import NotifyHub.TransitionMachine
import Mathlib.Tactic

/-!
# User management of one tenant

The requests of `/users` and `/invitations` which write: PATCH and DELETE of a
user, creation of a user, creation and acceptance of an invitation.  Every
right is checked on what the request reads first, without a lock; the writes
come later, each after the locks it waits for, and become visible with the
commit.  Any transaction may be rolled back, also because an address is
already registered or the connection is lost.
-/

namespace NotifyHub

/-! ## Requests -/

/-- The claims of an access token of the tenant. -/
structure AccessClaims (Id : Type) where
  sub : Id
  role : UserRole
  deriving DecidableEq, Repr

structure UserPatchIn (Id : Type) where
  role : Option UserRole
  status : Option UserStatus
  groupIds : Option (List Id)
  deriving DecidableEq, Repr

structure UserCreateIn (Id : Type) where
  role : UserRole
  groupIds : List Id
  deriving DecidableEq, Repr

/-- The columns of `users` which the requests read and write. -/
structure User where
  role : UserRole
  status : UserStatus
  deriving DecidableEq, Repr

/-- A row of `invitations`.  The role in the token of the issuer is not a
column. -/
structure Invitation (Id : Type) where
  role : UserRole
  expiresAt : Instant
  acceptedAt : Option Instant
  issuedBy : AccessClaims Id
  deriving DecidableEq, Repr

/-- The committed rows of a tenant. -/
structure UserStore (Id : Type) where
  tenantStatus : TenantStatus
  groups : Finset Id
  users : Finset Id
  user : Id → User
  memberships : Id → Finset Id
  liveTokens : Id → Finset Id
  invitations : Id → Option (Invitation Id)

variable {Id : Type}

def User.isActiveOwner (user : User) : Bool :=
  user.role = .owner && user.status = .active

/-- The rows which `_assert_not_last_owner` counts. -/
def UserStore.activeOwners (store : UserStore Id) : Finset Id :=
  store.users.filter fun id => (store.user id).isActiveOwner

theorem UserStore.mem_activeOwners {store : UserStore Id} {id : Id} :
    id ∈ store.activeOwners ↔
      id ∈ store.users ∧ (store.user id).isActiveOwner = true := by
  simp [activeOwners]

/-! ## Checks -/

def forbidden (detail : Text) : Problem where
  status := 403
  type := "/problems/forbidden".toList
  title := "Forbidden".toList
  detail := detail
  retryAfter := none

def unauthorized (detail : Text) : Problem where
  status := 401
  type := "/problems/unauthorized".toList
  title := "Unauthorized".toList
  detail := detail
  retryAfter := none

def userNotFound : Problem where
  status := 404
  type := "/problems/not-found".toList
  title := "Not Found".toList
  detail := "User not found.".toList
  retryAfter := none

def lastOwner : Problem where
  status := 409
  type := "/problems/last-owner".toList
  title := "Conflict".toList
  detail := "Cannot remove or demote the last owner of the tenant.".toList
  retryAfter := none

def unknownGroups [ToString Id] (missing : List Id) : Problem where
  status := 422
  type := "/problems/validation-error".toList
  title := "Validation Error".toList
  detail :=
    ("Unknown group_ids: " ++ ", ".intercalate (missing.map toString) ++
      ".").toList
  retryAfter := none

def raiseIf (condition : Prop) [Decidable condition] (problem : Problem) :
    Except Problem Unit :=
  if condition then .error problem else .ok ()

@[simp] theorem raiseIf_eq_ok_iff
    {condition : Prop} [Decidable condition] {problem : Problem} {done : Unit} :
    raiseIf condition problem = .ok done ↔ ¬condition := by
  by_cases hcondition : condition <;> simp [raiseIf, hcondition]

def requireRole (roles : List UserRole) (claims : AccessClaims Id) :
    Except Problem Unit :=
  raiseIf (claims.role ∉ roles) (forbidden "Insufficient permissions.".toList)

def requireAdmin (claims : AccessClaims Id) : Except Problem Unit :=
  requireRole [.owner, .admin] claims

def assertCanGrantOwner
    (claims : AccessClaims Id) (role : Option UserRole) :
    Except Problem Unit :=
  raiseIf (role = some .owner ∧ claims.role ≠ .owner)
    (forbidden "Only an owner can grant the owner role.".toList)

def assertCanManage (claims : AccessClaims Id) (target : User) :
    Except Problem Unit :=
  raiseIf (target.role = .owner ∧ claims.role ≠ .owner)
    (forbidden "Only an owner can modify an owner.".toList)

/-- The second half of `_assert_not_last_owner`, behind the tenant's lock. -/
def UserStore.assertNotLastOwner (store : UserStore Id) :
    Except Problem Unit :=
  raiseIf (store.activeOwners.card ≤ 1) lastOwner

variable [DecidableEq Id]

def UserStore.findUser (store : UserStore Id) (userId : Id) :
    Except Problem User :=
  if userId ∈ store.users then .ok (store.user userId)
  else .error userNotFound

theorem UserStore.findUser_eq_ok_iff
    {store : UserStore Id} {userId : Id} {user : User} :
    store.findUser userId = .ok user ↔
      userId ∈ store.users ∧ store.user userId = user := by
  by_cases hmem : userId ∈ store.users <;> simp [findUser, hmem]

def UserStore.assertGroupsExist [ToString Id]
    (store : UserStore Id) (groupIds : List Id) : Except Problem Unit :=
  let missing := groupIds.dedup.filter fun id => id ∉ store.groups
  raiseIf (missing ≠ []) (unknownGroups missing)

/-! ## What a request is about to write -/

/-- A PATCH or DELETE after its checks: the row it has loaded, the row it
wants, the groups it wants, whether it counts the owners first
(`_assert_not_last_owner`) and whether it revokes the refresh tokens. -/
structure Edit (Id : Type) where
  claims : AccessClaims Id
  target : Id
  loaded : User
  final : User
  groupIds : Option (List Id)
  guarded : Bool
  endsSessions : Bool
  deriving DecidableEq, Repr

def UserStore.updateUser
    (store : UserStore Id) (claims : AccessClaims Id) (userId : Id)
    (body : UserPatchIn Id) : Except Problem (Edit Id) := do
  requireAdmin claims
  let user ← store.findUser userId
  assertCanManage claims user
  assertCanGrantOwner claims body.role
  let demoting := body.role.any (· ≠ .owner)
  let disabling := body.status.any (· ≠ .active)
  let disablingNow :=
    body.status = some .disabled && user.status ≠ .disabled
  .ok
    { claims := claims
      target := userId
      loaded := user
      final :=
        { role := body.role.getD user.role
          status := body.status.getD user.status }
      groupIds := body.groupIds
      guarded := user.isActiveOwner && (demoting || disabling)
      endsSessions := disablingNow }

def UserStore.removeUser
    (store : UserStore Id) (claims : AccessClaims Id) (userId : Id) :
    Except Problem (Edit Id) := do
  requireAdmin claims
  let user ← store.findUser userId
  assertCanManage claims user
  .ok
    { claims := claims
      target := userId
      loaded := user
      final := { user with status := .disabled }
      groupIds := none
      guarded := user.isActiveOwner
      endsSessions := true }

/-- What an edit has read on its way: the memberships it deletes, those it
inserts, and the refresh tokens it revokes. -/
structure Progress (Id : Type) where
  deleted : Finset Id
  inserted : List Id
  revoked : Finset Id
  deriving DecidableEq

def Progress.start : Progress Id := ⟨∅, [], ∅⟩

inductive Work (Id : Type)
  | edit (change : Edit Id) (progress : Progress Id)
  | create
      (claims : AccessClaims Id) (userId : Id) (body : UserCreateIn Id)
  | invite (invitationId : Id) (invitation : Invitation Id)
  | accept
      (invitationId : Id) (invitation : Invitation Id) (userId : Id)
      (now : Instant)
  deriving DecidableEq

inductive Statement (Id : Type)
  | shareTenant
  | shareUser (userId : Id)
  | lockUser (userId : Id)
  | writeUser (userId : Id)
  | readGroups (groupIds : List Id)
  | readTokens
  deriving DecidableEq, Repr

/-- The statements of an edit after its checks, up to the commit.  Columns
which keep the value they were loaded with give no UPDATE, and an inserted
membership shares the rows its foreign keys name. -/
def Edit.statements (edit : Edit Id) : List (Statement Id) :=
  (if edit.endsSessions then [.shareTenant, .lockUser edit.target] else []) ++
    (if edit.final = edit.loaded then [] else [.writeUser edit.target]) ++
    (match edit.groupIds with
      | none => []
      | some [] => [.readGroups []]
      | some groupIds =>
          [.readGroups groupIds, .shareTenant, .shareUser edit.target]) ++
    (if edit.endsSessions then [.readTokens] else [])

/-- `_replace_user_groups` reads the memberships which it deletes. -/
def Work.readGroups
    (store : UserStore Id) (groupIds : List Id) : Work Id → Work Id
  | .edit change progress =>
      .edit change
        { progress with
          deleted := store.memberships change.target
          inserted := groupIds }
  | work => work

/-- `_revoke_refresh_tokens` reads the tokens which it revokes. -/
def Work.readTokens (store : UserStore Id) : Work Id → Work Id
  | .edit change progress =>
      .edit change
        { progress with revoked := store.liveTokens change.target }
  | work => work

/-! ## Commits -/

def User.writeBack (loaded final stored : User) : User :=
  { role := NotifyHub.writeBack loaded.role final.role stored.role
    status := NotifyHub.writeBack loaded.status final.status stored.status }

/-- No membership twice: `uq_user_group_memberships_user_id_group_id`. -/
def InsertsOnce (kept : Finset Id) (inserted : List Id) : Prop :=
  inserted.Nodup ∧ ∀ group ∈ inserted, group ∉ kept

instance (kept : Finset Id) (inserted : List Id) :
    Decidable (InsertsOnce kept inserted) :=
  inferInstanceAs (Decidable (_ ∧ _))

def UserStore.commitEdit
    (store : UserStore Id) (edit : Edit Id) (progress : Progress Id) :
    Option (UserStore Id) :=
  let kept := store.memberships edit.target \ progress.deleted
  if InsertsOnce kept progress.inserted then
    some { store with
      user := Function.update store.user edit.target
        (edit.loaded.writeBack edit.final (store.user edit.target))
      memberships := Function.update store.memberships edit.target
        (kept ∪ progress.inserted.toFinset)
      liveTokens := Function.update store.liveTokens edit.target
        (store.liveTokens edit.target \ progress.revoked) }
  else none

def UserStore.insertUser
    (store : UserStore Id) (userId : Id) (role : UserRole)
    (groupIds : List Id) : Option (UserStore Id) :=
  if userId ∉ store.users ∧ groupIds.Nodup then
    some { store with
      users := insert userId store.users
      user := Function.update store.user userId ⟨role, .active⟩
      memberships :=
        Function.update store.memberships userId groupIds.toFinset
      liveTokens := Function.update store.liveTokens userId ∅ }
  else none

/-- The rows after a commit; a violated constraint lets none happen. -/
def Work.apply (store : UserStore Id) : Work Id → Option (UserStore Id)
  | .edit change progress => store.commitEdit change progress
  | .create _ userId body => store.insertUser userId body.role body.groupIds
  | .invite invitationId invitation =>
      if (store.invitations invitationId).isNone then
        some { store with
          invitations := Function.update store.invitations invitationId
            (some invitation) }
      else none
  | .accept invitationId invitation userId now =>
      (store.insertUser userId invitation.role []).map fun store =>
        { store with
          invitations := Function.update store.invitations invitationId
            (some { invitation with acceptedAt := some now }) }

/-! ## What the checks have settled -/

/-- Without the owner role a request neither found an owner nor makes one. -/
def Edit.Granted (edit : Edit Id) : Prop :=
  edit.claims.role ≠ .owner →
    edit.loaded.role ≠ .owner ∧ edit.final.role ≠ .owner

/-- An edit as its request has just computed it from the committed rows. -/
structure UserStore.Opened (store : UserStore Id) (edit : Edit Id) : Prop where
  member : edit.target ∈ store.users
  loaded : edit.loaded = store.user edit.target
  granted : edit.Granted

theorem UserStore.updateUser_opened
    {store : UserStore Id} {claims : AccessClaims Id} {userId : Id}
    {body : UserPatchIn Id} {edit : Edit Id}
    (hedit : store.updateUser claims userId body = .ok edit) :
    store.Opened edit := by
  simp only [updateUser, Except.bind_eq_ok] at hedit
  obtain ⟨_, -, user, hfind, _, hmanage, _, hgrant, hok⟩ := hedit
  obtain ⟨hmem, huser⟩ := findUser_eq_ok_iff.mp hfind
  obtain rfl := Except.ok.inj hok
  simp only [assertCanManage, raiseIf_eq_ok_iff, not_and_not_right] at hmanage
  simp only [assertCanGrantOwner, raiseIf_eq_ok_iff,
    not_and_not_right] at hgrant
  refine ⟨hmem, huser.symm, fun hrole => ?_⟩
  have hloaded : user.role ≠ .owner := fun howner => hrole (hmanage howner)
  refine ⟨hloaded, ?_⟩
  cases hbody : body.role with
  | none => simpa [hbody] using hloaded
  | some role =>
      rintro rfl
      exact hrole (hgrant hbody)

theorem UserStore.removeUser_opened
    {store : UserStore Id} {claims : AccessClaims Id} {userId : Id}
    {edit : Edit Id} (hedit : store.removeUser claims userId = .ok edit) :
    store.Opened edit := by
  simp only [removeUser, Except.bind_eq_ok] at hedit
  obtain ⟨_, -, user, hfind, _, hmanage, hok⟩ := hedit
  obtain ⟨hmem, huser⟩ := findUser_eq_ok_iff.mp hfind
  obtain rfl := Except.ok.inj hok
  simp only [assertCanManage, raiseIf_eq_ok_iff, not_and_not_right] at hmanage
  refine ⟨hmem, huser.symm, fun hrole => ?_⟩
  have hloaded : user.role ≠ .owner := fun howner => hrole (hmanage howner)
  exact ⟨hloaded, hloaded⟩

/-- Who acts; an acceptance acts for the issuer of the invitation. -/
def Work.actor : Work Id → UserRole
  | .edit change _ => change.claims.role
  | .create claims _ _ => claims.role
  | .invite _ invitation => invitation.issuedBy.role
  | .accept _ invitation _ _ => invitation.issuedBy.role

def Invitation.Granted (invitation : Invitation Id) : Prop :=
  invitation.issuedBy.role ≠ .owner → invitation.role ≠ .owner

/-- The checks made on the way to some work hold of what it will write. -/
def Work.Granted : Work Id → Prop
  | .edit change _ => change.Granted
  | .create claims _ body => claims.role ≠ .owner → body.role ≠ .owner
  | .invite _ invitation => invitation.Granted
  | .accept _ invitation _ _ => invitation.Granted

/-! ## What a commit does -/

/-- The user whose rows an edit writes. -/
def Work.target : Work Id → Option Id
  | .edit change _ => some change.target
  | _ => none

def UserStore.IsOwner (store : UserStore Id) (id : Id) : Prop :=
  id ∈ store.users ∧ (store.user id).role = .owner

instance (store : UserStore Id) (id : Id) : Decidable (store.IsOwner id) :=
  inferInstanceAs (Decidable (_ ∧ _))

/-- Role, status, groups and refresh tokens of a user are the same. -/
structure UserStore.SameUser (before after : UserStore Id) (id : Id) :
    Prop where
  member : id ∈ before.users → id ∈ after.users
  user : after.user id = before.user id
  memberships : after.memberships id = before.memberships id
  liveTokens : after.liveTokens id = before.liveTokens id

omit [DecidableEq Id] in
theorem UserStore.SameUser.refl (store : UserStore Id) (id : Id) :
    store.SameUser store id :=
  ⟨fun hmem => hmem, rfl, rfl, rfl⟩

theorem UserStore.insertUser_eq_some
    {store after : UserStore Id} {userId : Id} {role : UserRole}
    {groupIds : List Id}
    (hinsert : store.insertUser userId role groupIds = some after) :
    userId ∉ store.users ∧ after.users = insert userId store.users ∧
      after.user = Function.update store.user userId ⟨role, .active⟩ ∧
      ∀ id, id ≠ userId → store.SameUser after id := by
  unfold insertUser at hinsert
  split at hinsert
  next hfree =>
    obtain rfl := Option.some.inj hinsert
    refine ⟨hfree.1, rfl, rfl, fun id hne => ?_⟩
    constructor <;> simp +contextual [hne]
  next => contradiction

theorem UserStore.commitEdit_eq_some
    {store after : UserStore Id} {edit : Edit Id} {progress : Progress Id}
    (hcommit : store.commitEdit edit progress = some after) :
    after.users = store.users ∧
      after.user edit.target =
        edit.loaded.writeBack edit.final (store.user edit.target) ∧
      ∀ id, id ≠ edit.target → store.SameUser after id := by
  simp only [commitEdit] at hcommit
  split at hcommit
  next =>
    obtain rfl := Option.some.inj hcommit
    refine ⟨rfl, by simp, fun id hne => ?_⟩
    constructor <;> simp [hne]
  next => contradiction

/-- What one commit does to the users: an edit writes its target, a new user
appears, or the users stay as they are. -/
theorem Work.apply_cases
    {store after : UserStore Id} {work : Work Id}
    (happly : work.apply store = some after) :
    (∃ change progress, work = .edit change progress ∧
      after.users = store.users ∧
      after.user change.target =
        change.loaded.writeBack change.final (store.user change.target) ∧
      ∀ id, id ≠ change.target → store.SameUser after id) ∨
    (∃ userId role, userId ∉ store.users ∧
      (work.Granted → work.actor ≠ .owner → role ≠ .owner) ∧
      after.users = insert userId store.users ∧
      after.user = Function.update store.user userId ⟨role, .active⟩ ∧
      ∀ id, id ≠ userId → store.SameUser after id) ∨
    (after.users = store.users ∧ ∀ id, store.SameUser after id) := by
  cases work with
  | edit change progress =>
      obtain ⟨husers, htarget, hothers⟩ :=
        UserStore.commitEdit_eq_some happly
      exact .inl ⟨change, progress, rfl, husers, htarget, hothers⟩
  | create claims userId body =>
      obtain ⟨hfree, husers, huser, hothers⟩ :=
        UserStore.insertUser_eq_some happly
      exact .inr (.inl ⟨userId, body.role, hfree, fun hgranted => hgranted,
        husers, huser, hothers⟩)
  | invite invitationId invitation =>
      simp only [Work.apply] at happly
      split at happly
      next =>
        obtain rfl := Option.some.inj happly
        exact .inr (.inr ⟨rfl, fun id => ⟨fun hmem => hmem, rfl, rfl, rfl⟩⟩)
      next => contradiction
  | accept invitationId invitation userId now =>
      obtain ⟨inserted, hinsert, rfl⟩ := Option.map_eq_some_iff.mp happly
      obtain ⟨hfree, husers, huser, hothers⟩ :=
        UserStore.insertUser_eq_some hinsert
      refine .inr (.inl ⟨userId, invitation.role, hfree,
        fun hgranted => hgranted, husers, huser, fun id hne => ?_⟩)
      obtain ⟨hmember, huser, hmemberships, htokens⟩ := hothers id hne
      exact ⟨hmember, huser, hmemberships, htokens⟩

/-- A commit leaves the users it does not edit as they are. -/
theorem Work.apply_sameUser
    {store after : UserStore Id} {work : Work Id}
    (happly : work.apply store = some after) {id : Id}
    (hmem : id ∈ store.users) (htarget : work.target ≠ some id) :
    store.SameUser after id := by
  rcases Work.apply_cases happly with
    ⟨change, progress, rfl, -, -, hothers⟩ |
    ⟨userId, role, hfree, -, -, -, hothers⟩ | ⟨-, hsame⟩
  · apply hothers
    rintro rfl
    exact htarget rfl
  · apply hothers
    rintro rfl
    exact hfree hmem
  · exact hsame id

omit [DecidableEq Id] in
/-- The UPDATE of an edit without the owner role does not grant the role. -/
theorem Edit.Granted.writeBack_role
    {edit : Edit Id} (hgranted : edit.Granted)
    (hactor : edit.claims.role ≠ .owner) {stored : User}
    (howner : (edit.loaded.writeBack edit.final stored).role = .owner) :
    stored.role = .owner := by
  by_cases hsame : edit.final.role = edit.loaded.role
  · simpa [User.writeBack, writeBack_of_eq hsame] using howner
  · simp only [User.writeBack, writeBack_of_ne hsame] at howner
    exact absurd howner (hgranted hactor).2

/-- Without the owner role a commit makes nobody an owner. -/
theorem Work.apply_isOwner
    {store after : UserStore Id} {work : Work Id}
    (happly : work.apply store = some after) (hgranted : work.Granted)
    (hactor : work.actor ≠ .owner) {id : Id} (howner : after.IsOwner id) :
    store.IsOwner id := by
  obtain ⟨hmem, hrole⟩ := howner
  rcases Work.apply_cases happly with
    ⟨change, progress, rfl, husers, htarget, hothers⟩ |
    ⟨userId, role, -, hrefused, husers, huser, -⟩ | ⟨husers, hsame⟩
  · rw [husers] at hmem
    refine ⟨hmem, ?_⟩
    by_cases hid : id = change.target
    · subst hid
      rw [htarget] at hrole
      exact Edit.Granted.writeBack_role hgranted hactor hrole
    · rw [← (hothers id hid).user]
      exact hrole
  · rw [huser] at hrole
    by_cases hid : id = userId
    · subst hid
      rw [Function.update_self] at hrole
      exact absurd hrole (hrefused hgranted hactor)
    · rw [Function.update_of_ne hid] at hrole
      rw [husers] at hmem
      exact ⟨Finset.mem_of_mem_insert_of_ne hmem hid, hrole⟩
  · rw [husers] at hmem
    rw [(hsame id).user] at hrole
    exact ⟨hmem, hrole⟩

end NotifyHub
