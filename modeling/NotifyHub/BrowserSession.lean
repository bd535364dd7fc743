import NotifyHub.SharedAgents
import NotifyHub.IssuedOnce
import Mathlib.Tactic

/-!
# The session of a browser

The tabs of one browser share `localStorage`, which holds the refresh token
and the user it belongs to, and the lock under which a tab refreshes.  The
access token lives in the memory of each tab.

The script of a tab runs from one `await` to the next without being
interrupted in its own tab, but the other tabs run beside it: between two
accesses to the storage anything may happen there.  A step of the model is
one access, together with what the script does around it in its own memory.
The browser grants the lock and the server answers in steps of their own.
-/

namespace NotifyHub

/-! ## What is stored and what is sent -/

structure TokenPair (Token Access : Type) where
  access : Access
  refresh : Token
  deriving DecidableEq, Repr

/-- The two keys of `localStorage`. -/
structure StoredSession (Token User : Type) where
  user : Option User
  refreshToken : Option Token
  deriving DecidableEq, Repr

/-- `storeTokens` or `clearTokens`: the owner is written first. -/
inductive SessionWrite (Token Access : Type)
  | store (tokens : TokenPair Token Access)
  | clear
  deriving DecidableEq, Repr

/-- What the server answers to a refresh: a new pair, 401 or 403, or another
status that is not ok. -/
inductive RefreshReply (Token Access : Type)
  | pair (tokens : TokenPair Token Access)
  | refused
  | failed
  deriving DecidableEq, Repr

/-- `refreshAccessToken` returns true, returns false or throws. -/
inductive Renewal
  | renewed
  | closed
  | failed
  deriving DecidableEq, Repr

/-- Where the refresh of a tab stands; it is not idle while `refreshPromise`
is set.  In `storing` and `closing` the script of the tab is writing the
session. -/
inductive RefreshPhase (Token Access : Type)
  | idle
  | waiting
  | reading
  | inFlight (sent : Token)
  | replied (sent : Token) (reply : RefreshReply Token Access)
  | readingBody (sent : Token) (tokens : TokenPair Token Access)
  | storing (sent : Token)
  | closing (locked : Bool)
  | unlocking (renewal : Renewal)
  | settled (renewal : Renewal)
  deriving DecidableEq, Repr

/-- What is left of the running script before its next access. -/
inductive Script (Token Access : Type)
  | writing (write : SessionWrite Token Access) (ownerDone : Bool)
  | refreshing
  | matching
  deriving DecidableEq, Repr

/-- Why a request is sent; only a first one may start a refresh. -/
inductive Attempt (Access : Type)
  | first
  | afterBootstrap
  | after (sent : Option Access)
  deriving DecidableEq, Repr

def Attempt.isRetry {Access : Type} : Attempt Access → Bool
  | .first => false
  | .afterBootstrap | .after _ => true

inductive CallAnswer
  | ok
  | unauthorized
  | error
  | lost
  deriving DecidableEq, Repr

inductive CallOutcome
  | returned
  | threw
  deriving DecidableEq, Repr

/-- Where a `rawRequest` stands.  `bootstrapping` and `unauthorized` wait for
the refresh of the tab, whose result they have in `bootstrapped` and
`refreshed`. -/
inductive CallPhase (Access : Type)
  | idle
  | sentWithoutSession
  | sent (token : Option Access) (attempt : Attempt Access)
  | bootstrapping
  | bootstrapped (renewal : Renewal)
  | unauthorized (sent : Option Access)
  | refreshed (sent : Option Access) (renewal : Renewal)
  | ended (outcome : CallOutcome)
  deriving DecidableEq, Repr

/-- The refresh of the tab has ended. -/
def CallPhase.settle {Access : Type} (renewal : Renewal) :
    CallPhase Access → CallPhase Access
  | .bootstrapping => .bootstrapped renewal
  | .unauthorized token => .refreshed token renewal
  | phase => phase

/-- A login or a logout. -/
inductive RoutinePhase (Token Access : Type)
  | idle
  | loggingIn
  | readingProfile (tokens : TokenPair Token Access)
  | loggingOut
  deriving DecidableEq, Repr

structure BrowserTab (Call Routine Token Access : Type) where
  accessToken : Option Access
  script : Option (Script Token Access)
  refresh : RefreshPhase Token Access
  calls : Call → CallPhase Access
  routines : Routine → RoutinePhase Token Access

/-- What the tabs share.  The server has issued `tokens` and `accesses` and
has rotated `rotated`. -/
structure BrowserShared (Tab Token Access User : Type) where
  storage : StoredSession Token User
  lock : Option Tab
  tokens : Finset Token
  accesses : Finset Access
  rotated : Finset Token

/-- What a tab turns to when no script is running. -/
inductive Turn (Call Routine : Type)
  | present
  | check
  | receive
  | lose
  | unlock
  | settle
  | refreshSession
  | request (call : Call) (withoutSession : Bool)
  | respond (call : Call) (answer : CallAnswer)
  | resume (call : Call)
  | login (routine : Routine)
  | enter (routine : Routine)
  | abandon (routine : Routine)
  | logout (routine : Routine)
  | leave (routine : Routine)
  | storageEvent
  deriving DecidableEq, Repr

/-- `proceed` takes the running script to its next access. -/
inductive BrowserMove (Call Routine Token Access : Type)
  | turn (turn : Turn Call Routine)
  | proceed
  | acquire
  | rotate (tokens : TokenPair Token Access)
  | refuse
  | fail
  | authenticate (routine : Routine) (tokens : TokenPair Token Access)
  deriving DecidableEq, Repr

abbrev TabView (Tab Call Routine Token Access User : Type) :=
  AgentView (BrowserShared Tab Token Access User)
    (BrowserTab Call Routine Token Access)

namespace TabView

variable {Tab Call Routine Token Access User : Type}

/-! ## Storing and clearing the session -/

def storedUser
    (view : TabView Tab Call Routine Token Access User) : Option User :=
  view.shared.storage.user

def storedToken
    (view : TabView Tab Call Routine Token Access User) : Option Token :=
  view.shared.storage.refreshToken

def setScript
    (view : TabView Tab Call Routine Token Access User)
    (script : Option (Script Token Access)) :
    TabView Tab Call Routine Token Access User :=
  { view with own := { view.own with script } }

def setRefresh
    (view : TabView Tab Call Routine Token Access User)
    (refresh : RefreshPhase Token Access) :
    TabView Tab Call Routine Token Access User :=
  { view with own := { view.own with refresh } }

def setAccessToken
    (view : TabView Tab Call Routine Token Access User)
    (accessToken : Option Access) :
    TabView Tab Call Routine Token Access User :=
  { view with own := { view.own with accessToken } }

def setCall [DecidableEq Call]
    (view : TabView Tab Call Routine Token Access User)
    (call : Call) (phase : CallPhase Access) :
    TabView Tab Call Routine Token Access User :=
  { view with own :=
      { view.own with calls := Function.update view.own.calls call phase } }

def setRoutine [DecidableEq Routine]
    (view : TabView Tab Call Routine Token Access User)
    (routine : Routine) (phase : RoutinePhase Token Access) :
    TabView Tab Call Routine Token Access User :=
  { view with own :=
      { view.own with
        routines := Function.update view.own.routines routine phase } }

def storeTokens
    (view : TabView Tab Call Routine Token Access User)
    (tokens : TokenPair Token Access) :
    TabView Tab Call Routine Token Access User :=
  (view.setAccessToken (some tokens.access)).setScript
    (some (.writing (.store tokens) false))

def clearTokens
    (view : TabView Tab Call Routine Token Access User) :
    TabView Tab Call Routine Token Access User :=
  (view.setAccessToken none).setScript (some (.writing .clear false))

/-- The listeners of `onLogout` only forget what is on the screen. -/
def emitLogout
    (view : TabView Tab Call Routine Token Access User) :
    TabView Tab Call Routine Token Access User :=
  view.clearTokens

end TabView

/-- The owner which a write stores; `tokenSubject` of an access token is
`subject`. -/
def SessionWrite.user
    {Token Access User : Type} (subject : Access → Option User) :
    SessionWrite Token Access → Option User
  | .store tokens => subject tokens.access
  | .clear => none

def SessionWrite.refreshToken
    {Token Access : Type} : SessionWrite Token Access → Option Token
  | .store tokens => some tokens.refresh
  | .clear => none

/-- Where the refresh goes on once the script has written the session. -/
def RefreshPhase.written
    {Token Access : Type} : RefreshPhase Token Access → RefreshPhase Token Access
  | .storing _ => .unlocking .renewed
  | .closing true => .unlocking .closed
  | .closing false => .settled .closed
  | phase => phase

namespace TabView

variable {Tab Call Routine Token Access User : Type}

/-- One access of `storeTokens` or `clearTokens`. -/
def write
    (subject : Access → Option User)
    (view : TabView Tab Call Routine Token Access User)
    (write : SessionWrite Token Access) :
    Bool → TabView Tab Call Routine Token Access User
  | false =>
      { view.setScript (some (.writing write true)) with
        shared := { view.shared with
          storage := ⟨write.user subject, view.storedToken⟩ } }
  | true =>
      { (view.setScript none).setRefresh view.own.refresh.written with
        shared := { view.shared with
          storage := ⟨view.storedUser, write.refreshToken⟩ } }

/-! ## The refresh of a tab -/

/-- `refreshAccessToken` up to its first `await`. -/
def refreshAccessToken
    (view : TabView Tab Call Routine Token Access User) :
    TabView Tab Call Routine Token Access User :=
  match view.storedToken with
  | none => view.emitLogout.setRefresh (.closing false)
  | some _ => view.setRefresh .waiting

def refreshOnce
    (view : TabView Tab Call Routine Token Access User) :
    TabView Tab Call Routine Token Access User :=
  match view.own.refresh with
  | .idle => view.refreshAccessToken
  | _ => view

/-- One round of the loop under the lock, up to the request. -/
def present
    (view : TabView Tab Call Routine Token Access User)
    (current : Option Token) : TabView Tab Call Routine Token Access User :=
  match current with
  | some token => view.setRefresh (.inFlight token)
  | none => view.emitLogout.setRefresh (.closing true)

/-- The loop goes on once a response has arrived. -/
def check [DecidableEq Token]
    (view : TabView Tab Call Routine Token Access User)
    (sent : Token) (reply : RefreshReply Token Access) :
    TabView Tab Call Routine Token Access User :=
  if view.storedToken ≠ some sent then view.present view.storedToken
  else
    match reply with
    | .refused => view.emitLogout.setRefresh (.closing true)
    | .failed => view.setRefresh (.unlocking .failed)
    | .pair tokens => view.setRefresh (.readingBody sent tokens)

/-! ## Requests -/

variable [DecidableEq Call]

def send
    (view : TabView Tab Call Routine Token Access User)
    (call : Call) (attempt : Attempt Access) :
    TabView Tab Call Routine Token Access User :=
  view.setCall call (.sent view.own.accessToken attempt)

/-- `rawRequest` up to its first `await`; `refreshOnce` may read the storage
once more. -/
def rawRequest
    (view : TabView Tab Call Routine Token Access User)
    (call : Call) (withoutSession : Bool) :
    TabView Tab Call Routine Token Access User :=
  if withoutSession then view.setCall call .sentWithoutSession
  else
    match view.own.accessToken, view.storedToken with
    | none, some _ =>
        (view.setCall call .bootstrapping).setScript (some .refreshing)
    | _, _ => view.send call .first

/-- `rawRequest` once its response has arrived. -/
def respond [DecidableEq Access]
    (view : TabView Tab Call Routine Token Access User)
    (call : Call) (sent : Option Access) (attempt : Attempt Access) :
    CallAnswer → TabView Tab Call Routine Token Access User
  | .ok => view.setCall call (.ended .returned)
  | .error | .lost => view.setCall call (.ended .threw)
  | .unauthorized =>
      if attempt.isRetry then view.setCall call (.ended .threw)
      else if view.own.accessToken ≠ none ∧ view.own.accessToken ≠ sent then
        view.send call (.after sent)
      else (view.setCall call (.unauthorized sent)).refreshOnce

/-- The requests which wait for the refresh get its result. -/
def settle
    (view : TabView Tab Call Routine Token Access User)
    (renewal : Renewal) : TabView Tab Call Routine Token Access User :=
  { view with own :=
      { view.own with
        refresh := .idle
        calls := fun call => (view.own.calls call).settle renewal } }

/-- A request goes on with the result of the refresh it has waited for. -/
def resume
    (view : TabView Tab Call Routine Token Access User) (call : Call) :
    Option (TabView Tab Call Routine Token Access User) :=
  match view.own.calls call with
  | .bootstrapped .failed | .refreshed _ .failed | .refreshed _ .closed =>
      some (view.setCall call (.ended .threw))
  | .bootstrapped _ => some (view.send call .afterBootstrap)
  | .refreshed sent .renewed => some (view.send call (.after sent))
  | _ => none

/-! ## Turns of the script -/

omit [DecidableEq Call] in
/-- The second access of `handleStorage`; `onUserSwitch` reads the profile
with a request of its own. -/
def matchOwner [DecidableEq User]
    (subject : Access → Option User)
    (view : TabView Tab Call Routine Token Access User) :
    TabView Tab Call Routine Token Access User :=
  let mine := view.own.accessToken.bind subject
  if view.storedUser ≠ none ∧ mine ≠ none ∧ view.storedUser ≠ mine then
    (view.setScript none).setAccessToken none
  else view.setScript none

omit [DecidableEq Call] in
/-- The running script goes on. -/
def proceed [DecidableEq User]
    (subject : Access → Option User)
    (view : TabView Tab Call Routine Token Access User) :
    Script Token Access → TabView Tab Call Routine Token Access User
  | .writing write ownerDone => view.write subject write ownerDone
  | .refreshing => (view.setScript none).refreshOnce
  | .matching => view.matchOwner subject

variable [DecidableEq Routine] [DecidableEq Token] [DecidableEq Access]

/-- `lose` is a response, or the body of one, which does not arrive; `enter`
and `leave` are the ends of `login` and `logout`. -/
def turn
    (view : TabView Tab Call Routine Token Access User) :
    Turn Call Routine → Option (TabView Tab Call Routine Token Access User)
  | .present =>
      match view.own.refresh with
      | .reading => some (view.present view.storedToken)
      | _ => none
  | .check =>
      match view.own.refresh with
      | .replied sent reply => some (view.check sent reply)
      | _ => none
  | .receive =>
      match view.own.refresh with
      | .readingBody sent tokens =>
          some ((view.storeTokens tokens).setRefresh (.storing sent))
      | _ => none
  | .lose =>
      match view.own.refresh with
      | .inFlight _ | .replied _ _ | .readingBody _ _ =>
          some (view.setRefresh (.unlocking .failed))
      | _ => none
  | .unlock =>
      match view.own.refresh with
      | .unlocking renewal =>
          some { view.setRefresh (.settled renewal) with
            shared := { view.shared with lock := none } }
      | _ => none
  | .settle =>
      match view.own.refresh with
      | .settled renewal => some (view.settle renewal)
      | _ => none
  | .refreshSession => some view.refreshOnce
  | .request call withoutSession =>
      match view.own.calls call with
      | .idle => some (view.rawRequest call withoutSession)
      | _ => none
  | .respond call answer =>
      match view.own.calls call with
      | .sent sent attempt => some (view.respond call sent attempt answer)
      | .sentWithoutSession =>
          some (view.setCall call
            (.ended (if answer = .ok then .returned else .threw)))
      | _ => none
  | .resume call => view.resume call
  | .login routine =>
      match view.own.routines routine with
      | .idle => some (view.setRoutine routine .loggingIn)
      | _ => none
  | .enter routine =>
      match view.own.routines routine with
      | .readingProfile tokens =>
          some ((view.setRoutine routine .idle).storeTokens tokens)
      | _ => none
  | .abandon routine =>
      match view.own.routines routine with
      | .loggingIn | .readingProfile _ =>
          some (view.setRoutine routine .idle)
      | _ => none
  | .logout routine =>
      match view.own.routines routine, view.storedToken with
      | .idle, none => some view.clearTokens
      | .idle, some _ => some (view.setRoutine routine .loggingOut)
      | _, _ => none
  | .leave routine =>
      match view.own.routines routine with
      | .loggingOut => some (view.setRoutine routine .idle).clearTokens
      | _ => none
  | .storageEvent =>
      match view.storedToken with
      | none => some view.emitLogout
      | some _ => some (view.setScript (some .matching))

end TabView

/-! ## The server and the whole browser -/

section Server

variable {Tab Call Routine Token Access User : Type}
  [DecidableEq Tab] [DecidableEq Call] [DecidableEq Routine]
  [DecidableEq Token] [DecidableEq Access] [DecidableEq User]

/-- The server draws a pair which nobody has seen, for one user. -/
def BrowserShared.Issues
    (subject : Access → Option User) (userOf : Token → User)
    (shared : BrowserShared Tab Token Access User)
    (tokens : TokenPair Token Access) : Prop :=
  tokens.refresh ∉ shared.tokens ∧ tokens.access ∉ shared.accesses ∧
    subject tokens.access = some (userOf tokens.refresh)

instance decidableIssues
    (subject : Access → Option User) (userOf : Token → User)
    (shared : BrowserShared Tab Token Access User)
    (tokens : TokenPair Token Access) :
    Decidable (shared.Issues subject userOf tokens) :=
  inferInstanceAs (Decidable (_ ∧ _ ∧ _))

def BrowserShared.issue
    (shared : BrowserShared Tab Token Access User)
    (tokens : TokenPair Token Access) :
    BrowserShared Tab Token Access User :=
  { shared with
    tokens := insert tokens.refresh shared.tokens
    accesses := insert tokens.access shared.accesses }

/-- The server may refuse a refresh for many reasons, and always refuses a
token which it has rotated. -/
def TabView.advance
    (subject : Access → Option User) (userOf : Token → User) (tab : Tab)
    (view : TabView Tab Call Routine Token Access User) :
    BrowserMove Call Routine Token Access →
      Option (TabView Tab Call Routine Token Access User)
  | .turn turn =>
      match view.own.script with
      | none => view.turn turn
      | some _ => none
  | .proceed => view.own.script.map (view.proceed subject)
  | .acquire =>
      match view.own.refresh, view.shared.lock with
      | .waiting, none =>
          some { view.setRefresh .reading with
            shared := { view.shared with lock := some tab } }
      | _, _ => none
  | .rotate tokens =>
      match view.own.refresh with
      | .inFlight sent =>
          if sent ∉ view.shared.rotated ∧
              view.shared.Issues subject userOf tokens ∧
              userOf tokens.refresh = userOf sent then
            some { view.setRefresh (.replied sent (.pair tokens)) with
              shared := { view.shared.issue tokens with
                rotated := insert sent view.shared.rotated } }
          else none
      | _ => none
  | .refuse =>
      match view.own.refresh with
      | .inFlight sent => some (view.setRefresh (.replied sent .refused))
      | _ => none
  | .fail =>
      match view.own.refresh with
      | .inFlight sent => some (view.setRefresh (.replied sent .failed))
      | _ => none
  | .authenticate routine tokens =>
      match view.own.routines routine with
      | .loggingIn =>
          if view.shared.Issues subject userOf tokens then
            some { view.setRoutine routine (.readingProfile tokens) with
              shared := view.shared.issue tokens }
          else none
      | _ => none

abbrev BrowserState (Tab Call Routine Token Access User : Type) :=
  Agents Tab (BrowserShared Tab Token Access User)
    (BrowserTab Call Routine Token Access)

/-- No tab is doing anything.  The server has issued what the browser holds,
and the stored token has not been rotated. -/
structure BrowserState.Start
    (state : BrowserState Tab Call Routine Token Access User) : Prop where
  lock : state.shared.lock = none
  script : ∀ tab, (state.own tab).script = none
  refresh : ∀ tab, (state.own tab).refresh = .idle
  calls : ∀ tab call, (state.own tab).calls call = .idle
  routines : ∀ tab routine, (state.own tab).routines routine = .idle
  stored : ∀ token, state.shared.storage.refreshToken = some token →
    token ∈ state.shared.tokens ∧ token ∉ state.shared.rotated
  rotated : state.shared.rotated ⊆ state.shared.tokens
  held : ∀ tab access,
    (state.own tab).accessToken = some access →
      access ∈ state.shared.accesses

def browserMachine
    (Call Routine : Type) [DecidableEq Call] [DecidableEq Routine]
    (subject : Access → Option User) (userOf : Token → User) :
    Machine (BrowserState Tab Call Routine Token Access User)
      (Tab × BrowserMove Call Routine Token Access) :=
  Machine.agents BrowserState.Start (TabView.advance subject userOf)

end Server

end NotifyHub
