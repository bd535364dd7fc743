import NotifyHub.UserRequests
import Mathlib.Tactic

/-!
# Refresh tokens of one tenant

Logins, refreshes and logouts beside the requests which manage the users.
Each of them shares the tenant and locks its user for update
(`lock_user_token_scope`) before it reads what it decides on; its writes
become visible with its commit, which also draws the identifiers of a new
token.  Which refresh tokens are not revoked is recorded in `liveTokens`; a
text presented as a refresh token is the id of the row its hash finds.
-/

namespace NotifyHub

/-- The columns of `refresh_tokens` which never change. -/
structure TokenRow (Id : Type) where
  user : Id
  family : Id
  jti : Id
  expiresAt : Instant
  deriving DecidableEq, Repr

structure LogoutIn (Id : Type) where
  revokeAll : Bool
  refreshToken : Option Id
  jti : Option Id
  deriving DecidableEq, Repr

/-- A login is one whose password was right. -/
inductive SessionRequest (Id : Type)
  | login (userId : Id)
  | refresh (tokenId : Id)
  | logout (claims : AccessClaims Id) (body : LogoutIn Id)
  deriving DecidableEq

/-- Why refresh tokens are revoked, other than by a rotation. -/
inductive Revocation (Id : Type)
  | reuse (family : Id)
  | presented (family : Id)
  | everything
  | row
  deriving DecidableEq

/-- From `inScope` on, the process holds the tenant and its user.  In
`signing`, `rotating` and `revoking` it is about to commit. -/
inductive SessionPhase (Id : Type)
  | idle
  | sharing (userId : Id) (request : SessionRequest Id)
  | locking (userId : Id) (request : SessionRequest Id)
  | inScope (userId : Id) (request : SessionRequest Id)
  | presenting (userId tokenId : Id)
  | scanning (userId : Id) (revocation : Revocation Id)
  | signing (userId : Id)
  | rotating (userId tokenId : Id)
  | revoking
      (userId : Id) (revocation : Revocation Id) (revoked : Finset Id)
  | ended (outcome : Outcome)
  deriving DecidableEq

namespace SessionPhase

variable {Id : Type}

def isOpen : SessionPhase Id → Bool
  | .idle | .ended _ => false
  | _ => true

/-- The user whose row the process holds for update. -/
def scope : SessionPhase Id → Option Id
  | .inScope userId _ | .presenting userId _ | .scanning userId _
  | .signing userId | .rotating userId _ | .revoking userId _ _ => some userId
  | _ => none

end SessionPhase

structure SessionState (Process : Type*) (Id : Type) where
  users : UserState Process Id
  tokens : Finset Id
  token : Id → TokenRow Id
  session : Process → SessionPhase Id

/-- The identifiers drawn for a new refresh token. -/
structure Drawn (Id : Type) where
  id : Id
  family : Id
  jti : Id
  deriving DecidableEq

inductive SessionAction (Process : Type*) (Id : Type)
  | users (action : UserAction Process Id)
  | start (process : Process) (request : SessionRequest Id)
  | shareTenant (process : Process)
  | lockUser (process : Process)
  | read (process : Process) (now : Instant)
  | commit (process : Process) (drawn : Drawn Id) (now : Instant)
  | rollback (process : Process)

variable {Process : Type*} {Id : Type}

def SessionAction.process : SessionAction Process Id → Process
  | .users action => action.process
  | .start process _ | .shareTenant process | .lockUser process
  | .read process _ | .commit process _ _ | .rollback process => process

def invalidCredentials : Problem :=
  unauthorized "Invalid credentials.".toList

def invalidRefreshToken : Problem :=
  unauthorized "Invalid refresh token.".toList

def refreshTokenRevoked : Problem :=
  unauthorized "Refresh token revoked or invalid.".toList

def refreshTokenExpired : Problem :=
  unauthorized "Refresh token expired.".toList

def userOrTenantInactive : Problem :=
  unauthorized "User or tenant inactive.".toList

/-- What a revocation answers after its commit. -/
def Revocation.outcome : Revocation Id → Outcome
  | .reuse _ => .refused refreshTokenRevoked
  | .presented _ | .everything | .row => .succeeded

namespace SessionState

/-- The refresh tokens of a family. -/
def family [DecidableEq Id]
    (state : SessionState Process Id) (family : Id) : Finset Id :=
  state.tokens.filter fun id => (state.token id).family = family

/-- `revoked_at` is null. -/
def Live (state : SessionState Process Id) (tokenId : Id) : Prop :=
  tokenId ∈ state.users.store.liveTokens (state.token tokenId).user

instance [DecidableEq Id]
    (state : SessionState Process Id) (tokenId : Id) :
    Decidable (state.Live tokenId) :=
  inferInstanceAs (Decidable (_ ∈ _))

variable [DecidableEq Process]

def goto
    (state : SessionState Process Id) (process : Process)
    (phase : SessionPhase Id) : SessionState Process Id :=
  { state with session := Function.update state.session process phase }

def finish
    (state : SessionState Process Id) (process : Process)
    (outcome : Outcome) : SessionState Process Id :=
  { state.goto process (.ended outcome) with
    users := state.users.finish process outcome }

variable [DecidableEq Id]

/-- The checks before `lock_user_token_scope`; an access token was issued to
a user of the tenant. -/
def start
    (state : SessionState Process Id) (process : Process) :
    SessionRequest Id → Option (SessionState Process Id)
  | .login userId =>
      if userId ∉ state.users.store.users then none
      else if (state.users.store.user userId).status ≠ .active ∨
          state.users.store.tenantStatus ≠ .active then
        some (state.finish process (.refused invalidCredentials))
      else some (state.goto process (.sharing userId (.login userId)))
  | .refresh tokenId =>
      if tokenId ∉ state.tokens then
        some (state.finish process (.refused invalidRefreshToken))
      else
        some (state.goto process
          (.sharing (state.token tokenId).user (.refresh tokenId)))
  | .logout claims body =>
      if claims.sub ∉ state.users.store.users then none
      else some (state.goto process (.sharing claims.sub (.logout claims body)))

/-- What a logout reads first. -/
def readLogout
    (state : SessionState Process Id) (process : Process) (userId : Id)
    (body : LogoutIn Id) : SessionState Process Id :=
  if body.revokeAll then
    state.goto process
      (.revoking userId .everything (state.users.store.liveTokens userId))
  else
    match body.refreshToken with
    | some tokenId =>
        if tokenId ∈ state.tokens ∧ (state.token tokenId).user = userId then
          state.goto process
            (.scanning userId (.presented (state.token tokenId).family))
        else state.goto process (.revoking userId .row ∅)
    | none =>
        match body.jti with
        | some jti =>
            let rows := state.tokens.filter fun id =>
              (state.token id).user = userId ∧ (state.token id).jti = jti
            if 1 < rows.card then state.finish process .rolledBack
            else state.goto process (.revoking userId .row rows)
        | none => state.goto process (.revoking userId .row ∅)

/-- What a refresh decides on the row of its token. -/
def readRefresh
    (state : SessionState Process Id) (process : Process)
    (userId tokenId : Id) (now : Instant) : SessionState Process Id :=
  if tokenId ∉ state.tokens then
    state.finish process (.refused refreshTokenRevoked)
  else if ¬state.Live tokenId then
    state.goto process
      (.scanning userId (.reuse (state.token tokenId).family))
  else if (state.token tokenId).expiresAt < now then
    state.finish process (.refused refreshTokenExpired)
  else state.goto process (.presenting userId tokenId)

/-- The tokens which a revocation finds once it knows the family. -/
def scan
    (state : SessionState Process Id) (userId : Id) :
    Revocation Id → Finset Id
  | .reuse family => state.family family
  | .presented family =>
      (state.family family).filter fun id =>
        (state.token id).user = userId ∧ state.Live id
  | .everything | .row => ∅

/-- One SELECT after the locks. -/
def read
    (state : SessionState Process Id) (process : Process) (now : Instant) :
    Option (SessionState Process Id) :=
  match state.session process with
  | .inScope userId (.login _) =>
      if (state.users.store.user userId).status ≠ .active then
        some (state.finish process (.refused invalidCredentials))
      else some (state.goto process (.signing userId))
  | .inScope userId (.refresh tokenId) =>
      some (state.readRefresh process userId tokenId now)
  | .inScope userId (.logout _ body) =>
      some (state.readLogout process userId body)
  | .presenting userId tokenId =>
      if (state.users.store.user userId).status ≠ .active ∨
          state.users.store.tenantStatus ≠ .active then
        some (state.finish process (.refused userOrTenantInactive))
      else some (state.goto process (.rotating userId tokenId))
  | .scanning userId revocation =>
      some (state.goto process
        (.revoking userId revocation (state.scan userId revocation)))
  | _ => none

/-- The insertion of a refresh token. -/
def insertToken
    (state : SessionState Process Id) (tokenId : Id) (row : TokenRow Id) :
    SessionState Process Id :=
  { state with
    tokens := insert tokenId state.tokens
    token := Function.update state.token tokenId row
    users :=
      { state.users with
        store :=
          { state.users.store with
            liveTokens := Function.update state.users.store.liveTokens row.user
              (insert tokenId (state.users.store.liveTokens row.user)) } } }

/-- `revoked_at` is set on some refresh tokens. -/
def revokeTokens
    (state : SessionState Process Id) (revoked : Finset Id) :
    SessionState Process Id :=
  { state with
    users :=
      { state.users with
        store :=
          { state.users.store with
            liveTokens := fun userId =>
              state.users.store.liveTokens userId \ revoked } } }

/-- The commit; an identifier drawn for a row or a family is one which no row
uses. -/
def commit
    (ttlDays : ℤ) (state : SessionState Process Id) (process : Process)
    (drawn : Drawn Id) (now : Instant) : Option (SessionState Process Id) :=
  match state.session process with
  | .signing userId =>
      if drawn.id ∉ state.tokens ∧ state.family drawn.family = ∅ then
        some ((state.insertToken drawn.id
          { user := userId
            family := drawn.family
            jti := drawn.jti
            expiresAt := now + ttlDays * microsecondsPerDay }).finish
              process .succeeded)
      else none
  | .rotating userId tokenId =>
      if drawn.id ∉ state.tokens then
        some (((state.revokeTokens {tokenId}).insertToken drawn.id
          { user := userId
            family := (state.token tokenId).family
            jti := drawn.jti
            expiresAt := now + ttlDays * microsecondsPerDay }).finish
              process .succeeded)
      else none
  | .revoking _ revocation revoked =>
      some ((state.revokeTokens revoked).finish process revocation.outcome)
  | _ => none

variable [ToString Id]

def step
    (ttlDays : ℤ) (state : SessionState Process Id) :
    SessionAction Process Id → Option (SessionState Process Id)
  | .users action =>
      if state.session action.process = .idle then
        (state.users.step action).map fun users =>
          { state with users := users }
      else none
  | .start process request =>
      if state.session process = .idle ∧
          state.users.phase process = .idle then
        state.start process request
      else none
  | .shareTenant process =>
      match state.session process with
      | .sharing userId request =>
          (state.users.lockTenant process .keyShare).map fun users =>
            { state with users := users }.goto process
              (.locking userId request)
      | _ => none
  | .lockUser process =>
      match state.session process with
      | .locking userId request =>
          (state.users.lockUser process userId .forUpdate).map fun users =>
            { state with users := users }.goto process
              (.inScope userId request)
      | _ => none
  | .read process now => state.read process now
  | .commit process drawn now => state.commit ttlDays process drawn now
  | .rollback process =>
      if (state.session process).isOpen then
        some (state.finish process .rolledBack)
      else none

omit [DecidableEq Process] [DecidableEq Id] [ToString Id] in
/-- Nothing is going on and nobody has ever logged in. -/
structure Fresh (state : SessionState Process Id) : Prop where
  users : state.users.Quiet
  session : ∀ process, state.session process = .idle
  tokens : state.tokens = ∅
  liveTokens : ∀ userId, state.users.store.liveTokens userId = ∅

end SessionState

/-- `settings.refresh_token_ttl_days` is a parameter. -/
def sessionMachine
    (ttlDays : ℤ) (Process : Type*) (Id : Type) [DecidableEq Process]
    [DecidableEq Id] [ToString Id] :
    Machine (SessionState Process Id) (SessionAction Process Id) where
  Initial := SessionState.Fresh
  step := SessionState.step ttlDays

end NotifyHub
