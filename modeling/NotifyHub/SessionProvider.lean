import NotifyHub.BrowserSession
import Mathlib.Tactic

/-!
# The user on the screen

`SessionProvider` keeps the user a tab shows beside the session of the tab.
Each reading of the profile has a number and counts only while it is the last
one; a login, a forced logout and a change of user count the number up too.  The
answers to the readings arrive in any order, between the steps of the refreshes,
logins and logouts of all the tabs.
-/

namespace NotifyHub.SessionProvider

/-! ## The provider -/

/-- `loadProfile`, or the reading of `reloadProfile`. -/
inductive ReadKind
  | load
  | reload
  deriving DecidableEq, Repr

/-- The state of the provider.  `reads` are the requests for the profile, with
the number which `profileRequest` had for them; `reloads` are the calls of
`reloadProfile` which wait for the refresh. -/
structure Provider (Call Slot User : Type) where
  user : Option User
  loading : Bool
  unreachable : Bool
  profileRequest : ℕ
  reads : Call → Option (ReadKind × ℕ)
  reloads : Slot → Option ℕ

variable {Tab Call Routine Slot Token Access User : Type}

namespace Provider

def forget (provider : Provider Call Slot User) : Provider Call Slot User :=
  { provider with
    profileRequest := provider.profileRequest + 1
    user := none
    unreachable := false
    loading := false }

/-- The end of `login`. -/
def enter (provider : Provider Call Slot User) (me : Option User) :
    Provider Call Slot User :=
  { provider with
    profileRequest := provider.profileRequest + 1
    unreachable := false
    user := me
    loading := false }

/-- The answer to a reading of the profile. -/
def finish
    (provider : Provider Call Slot User) (kind : ReadKind) (request : ℕ)
    (me : User) : Provider Call Slot User :=
  if request ≠ provider.profileRequest then provider
  else
    match kind with
    | .load =>
        { provider with user := some me, unreachable := false, loading := false }
    | .reload => { provider with user := some me }

/-- A reading of the profile has thrown; `down` tells a server which has not
answered, or not with a status below 500. -/
def fail
    (provider : Provider Call Slot User) (kind : ReadKind) (request : ℕ)
    (down : Bool) : Provider Call Slot User :=
  match kind with
  | .load =>
      if request ≠ provider.profileRequest then provider
      else { provider with user := none, unreachable := down, loading := false }
  | .reload => provider

section Requests

variable [DecidableEq Call] [DecidableEq Slot]

/-- `loadProfile` up to its first `await`; `retryProfile` and a change of user
set `loading` before it. -/
def load
    (provider : Provider Call Slot User) (call : Call) (retry : Bool) :
    Provider Call Slot User :=
  { provider with
    loading := retry || provider.loading
    profileRequest := provider.profileRequest + 1
    reads := Function.update provider.reads call
      (some (.load, provider.profileRequest + 1)) }

/-- `reloadProfile` before `refreshSession`. -/
def reload (provider : Provider Call Slot User) (slot : Slot) :
    Provider Call Slot User :=
  { provider with
    reloads := Function.update provider.reloads slot
      (some provider.profileRequest) }

/-- `reloadProfile` once the session is refreshed. -/
def readAgain
    (provider : Provider Call Slot User) (slot : Slot) (call : Call)
    (request : ℕ) : Provider Call Slot User :=
  { provider with
    reloads := Function.update provider.reloads slot none
    reads := Function.update provider.reads call (some (.reload, request)) }

def giveUp (provider : Provider Call Slot User) (slot : Slot) :
    Provider Call Slot User :=
  { provider with reloads := Function.update provider.reloads slot none }

end Requests

end Provider

/-! ## A tab with its provider -/

structure Screen (Call Routine Slot Token Access User : Type) where
  tab : BrowserTab Call Routine Token Access
  provider : Provider Call Slot User

abbrev ScreenView (Tab Call Routine Slot Token Access User : Type) :=
  AgentView (BrowserShared Tab Token Access User)
    (Screen Call Routine Slot Token Access User)

def ScreenView.tab
    (view : ScreenView Tab Call Routine Slot Token Access User) :
    TabView Tab Call Routine Token Access User :=
  ⟨view.shared, view.own.tab⟩

/-- The script is about to clear the stored session. -/
def clearing (tab : BrowserTab Call Routine Token Access) : Bool :=
  match tab.script with
  | some (.writing .clear false) => true
  | _ => false

/-- The tab has begun to clear the session, which every logout does before it
tells the provider. -/
def cleared (before after : BrowserTab Call Routine Token Access) : Bool :=
  !clearing before && clearing after

/-- `handleStorage` has found the session of another user. -/
def switched (before after : BrowserTab Call Routine Token Access) : Bool :=
  match before.script with
  | some .matching => before.accessToken.isSome && after.accessToken.isNone
  | _ => false

section Moves

variable [DecidableEq Tab] [DecidableEq Call] [DecidableEq Routine]
  [DecidableEq Slot] [DecidableEq Token] [DecidableEq Access]
  [DecidableEq User]

/-- What the client tells the provider in a step: a logout, a change of user,
which starts to load, or the end of a login with the profile read with its
token. -/
def Provider.notice
    (subject : Access → Option User)
    (before after : BrowserTab Call Routine Token Access)
    (move : BrowserMove Call Routine Token Access)
    (provider : Provider Call Slot User) : Provider Call Slot User :=
  if cleared before after then provider.forget
  else if switched before after then { provider.forget with loading := true }
  else
    match move with
    | .turn (.enter routine) =>
        match before.routines routine with
        | .readingProfile tokens => provider.enter (subject tokens.access)
        | _ => provider
    | _ => provider

/-- The call of a move which may end it. -/
def endedCall : BrowserMove Call Routine Token Access → Option Call
  | .turn (.respond call _) | .turn (.resume call) => some call
  | _ => none

/-- The answer to a reading of the profile, if the move brings one.  The server
answers with the user of the token, and not without a token. -/
def Provider.receive
    (subject : Access → Option User)
    (before after : BrowserTab Call Routine Token Access)
    (move : BrowserMove Call Routine Token Access) (down : Bool)
    (provider : Provider Call Slot User) : Option (Provider Call Slot User) :=
  match endedCall move with
  | none => some provider
  | some call =>
      match provider.reads call, after.calls call with
      | some (kind, request), .ended .returned =>
          match before.calls call with
          | .sent (some access) _ =>
              (subject access).map fun me => provider.finish kind request me
          | _ => none
      | some (kind, request), .ended .threw =>
          some (provider.fail kind request down)
      | _, _ => some provider

/-- A move of the tab, or a step by which the provider starts or gives up a
reading. -/
inductive ScreenMove (Call Routine Slot Token Access : Type)
  | browser (move : BrowserMove Call Routine Token Access) (down : Bool)
  | load (call : Call) (retry : Bool)
  | reload (slot : Slot)
  | readAgain (slot : Slot) (call : Call)
  | giveUp (slot : Slot)
  deriving DecidableEq, Repr

/-- A move of the tab, which the provider notices. -/
def ScreenView.browse
    (subject : Access → Option User) (userOf : Token → User) (tab : Tab)
    (view : ScreenView Tab Call Routine Slot Token Access User)
    (move : BrowserMove Call Routine Token Access) (down : Bool) :
    Option (ScreenView Tab Call Routine Slot Token Access User) :=
  (view.tab.advance subject userOf tab move).bind fun next =>
    ((view.own.provider.notice subject view.own.tab next.own move).receive
      subject view.own.tab next.own move down).map fun provider =>
        ⟨next.shared, next.own, provider⟩

/-- The view with what the provider has noted before a step. -/
def ScreenView.noted
    (view : ScreenView Tab Call Routine Slot Token Access User)
    (provider : Provider Call Slot User) :
    ScreenView Tab Call Routine Slot Token Access User :=
  { view with own := { view.own with provider } }

def ScreenView.advance
    (subject : Access → Option User) (userOf : Token → User) (tab : Tab)
    (view : ScreenView Tab Call Routine Slot Token Access User) :
    ScreenMove Call Routine Slot Token Access →
      Option (ScreenView Tab Call Routine Slot Token Access User)
  | .browser move down => view.browse subject userOf tab move down
  | .load call retry =>
      (view.noted (view.own.provider.load call retry)).browse subject userOf tab
        (.turn (.request call false)) false
  | .reload slot =>
      match view.own.provider.reloads slot with
      | some _ => none
      | none =>
          (view.noted (view.own.provider.reload slot)).browse subject userOf tab
            (.turn .refreshSession) false
  | .readAgain slot call =>
      match view.own.provider.reloads slot with
      | none => none
      | some request =>
          (view.noted (view.own.provider.readAgain slot call request)).browse
            subject userOf tab (.turn (.request call false)) false
  | .giveUp slot => some (view.noted (view.own.provider.giveUp slot))

abbrev Screens (Tab Call Routine Slot Token Access User : Type) :=
  Agents Tab (BrowserShared Tab Token Access User)
    (Screen Call Routine Slot Token Access User)

/-- Nothing is going on in any tab, and no profile has been read. -/
structure Screens.Start
    (state : Screens Tab Call Routine Slot Token Access User) : Prop where
  browser : BrowserState.Start
    (⟨state.shared, fun tab => (state.own tab).tab⟩ :
      BrowserState Tab Call Routine Token Access User)
  user : ∀ tab, (state.own tab).provider.user = none
  reads : ∀ tab call, (state.own tab).provider.reads call = none
  reloads : ∀ tab slot, (state.own tab).provider.reloads slot = none

def screenMachine
    (Call Routine Slot : Type) [DecidableEq Call] [DecidableEq Routine]
    [DecidableEq Slot] (subject : Access → Option User)
    (userOf : Token → User) :
    Machine (Screens Tab Call Routine Slot Token Access User)
      (Tab × ScreenMove Call Routine Slot Token Access) :=
  Machine.agents Screens.Start (ScreenView.advance subject userOf)

end Moves

/-! ## The access token of the tab -/

section Effects

variable {subject : Access → Option User} {userOf : Token → User} {tab : Tab}
  {view next : TabView Tab Call Routine Token Access User}

/-- What a move of a tab does to its access token: nothing; it is lost, which
the provider notices; or it is that of a refresh or of a login. -/
inductive TokenEffect (subject : Access → Option User) :
    BrowserTab Call Routine Token Access →
      BrowserTab Call Routine Token Access →
        BrowserMove Call Routine Token Access → Prop
  | keep {before after move} (hkeep : after.accessToken = before.accessToken)
      (hclear : cleared before after = false)
      (hswitch : switched before after = false)
      (henter : ∀ routine, move ≠ .turn (.enter routine)) :
      TokenEffect subject before after move
  | lose {before after move}
      (hlose : cleared before after = true ∨ switched before after = true) :
      TokenEffect subject before after move
  | refresh {before after} {sent : Token} {tokens : TokenPair Token Access}
      (hphase : before.refresh = .readingBody sent tokens)
      (htoken : after.accessToken = some tokens.access)
      (hcalls : after.calls = before.calls)
      (hclear : cleared before after = false)
      (hswitch : switched before after = false) :
      TokenEffect subject before after (.turn .receive)
  | enter {before after} {routine : Routine} {tokens : TokenPair Token Access}
      (hphase : before.routines routine = .readingProfile tokens)
      (htoken : after.accessToken = some tokens.access)
      (hclear : cleared before after = false)
      (hswitch : switched before after = false) :
      TokenEffect subject before after (.turn (.enter routine))

theorem clearing_of_none
    {own : BrowserTab Call Routine Token Access} (hscript : own.script = none) :
    clearing own = false := by
  rw [clearing, hscript]

theorem TokenEffect.keep_of_script
    {before after : BrowserTab Call Routine Token Access}
    {turn : Turn Call Routine} (hscript : before.script = none)
    (hkeep : after.accessToken = before.accessToken)
    (hclear : clearing after = false)
    (henter : ∀ routine, turn ≠ .enter routine) :
    TokenEffect subject before after (.turn turn) := by
  apply TokenEffect.keep hkeep
  · rw [cleared, hclear, Bool.and_false]
  · rw [switched, hscript]
  · rintro routine ⟨⟩
    exact henter routine rfl

theorem TokenEffect.lose_of_script
    {before after : BrowserTab Call Routine Token Access}
    {move : BrowserMove Call Routine Token Access}
    (hscript : before.script = none) (hclear : clearing after = true) :
    TokenEffect subject before after move := by
  apply TokenEffect.lose
  left
  rw [cleared, clearing, hscript, hclear]
  rfl

/-- Part of a script which ends the session, or leaves the token. -/
structure Renews
    (view next : TabView Tab Call Routine Token Access User) : Prop where
  calls : next.own.calls = view.own.calls
  token : clearing next.own = true ∨
    next.own.accessToken = view.own.accessToken ∧
      next.own.script = view.own.script

theorem renews_refreshOnce
    (view : TabView Tab Call Routine Token Access User) :
    Renews view view.refreshOnce := by
  unfold TabView.refreshOnce
  cases view.own.refresh with
  | idle =>
      simp only
      unfold TabView.refreshAccessToken
      cases view.storedToken with
      | none => exact ⟨rfl, .inl rfl⟩
      | some token => exact ⟨rfl, .inr ⟨rfl, rfl⟩⟩
  | _ => exact ⟨rfl, .inr ⟨rfl, rfl⟩⟩

theorem renews_present
    (view : TabView Tab Call Routine Token Access User)
    (current : Option Token) : Renews view (view.present current) := by
  cases current with
  | none => exact ⟨rfl, .inl rfl⟩
  | some token => exact ⟨rfl, .inr ⟨rfl, rfl⟩⟩

theorem renews_check [DecidableEq Token]
    (view : TabView Tab Call Routine Token Access User) (sent : Token)
    (reply : RefreshReply Token Access) :
    Renews view (view.check sent reply) := by
  unfold TabView.check
  split
  next hother => exact renews_present view view.storedToken
  next hsame =>
    cases reply with
    | refused => exact ⟨rfl, .inl rfl⟩
    | failed => exact ⟨rfl, .inr ⟨rfl, rfl⟩⟩
    | pair tokens => exact ⟨rfl, .inr ⟨rfl, rfl⟩⟩

theorem Renews.effect
    (hrenews : Renews view next) (hscript : view.own.script = none)
    {turn : Turn Call Routine} (henter : ∀ routine, turn ≠ .enter routine) :
    TokenEffect subject view.own next.own (.turn turn) := by
  rcases hrenews.token with hclear | ⟨hkeep, hsame⟩
  · exact .lose_of_script hscript hclear
  · exact .keep_of_script hscript hkeep
      (clearing_of_none (hsame.trans hscript)) henter

/-- No call is on its way with a token which was not so before. -/
def Waits (before after : BrowserTab Call Routine Token Access) : Prop :=
  ∀ call access attempt, after.calls call = .sent (some access) attempt →
    before.calls call = .sent (some access) attempt

/-- A call which has been sent has the token of the tab. -/
def Sends (before after : BrowserTab Call Routine Token Access) : Prop :=
  ∀ call access attempt, after.calls call = .sent (some access) attempt →
    before.calls call = .sent (some access) attempt ∨
      after.accessToken = some access

theorem Waits.sends
    {before after : BrowserTab Call Routine Token Access}
    (hwaits : Waits before after) : Sends before after :=
  fun call access attempt hsent => .inl (hwaits call access attempt hsent)

theorem waits_of_eq
    {before after : BrowserTab Call Routine Token Access}
    (hcalls : after.calls = before.calls) : Waits before after := by
  intro call access attempt hsent
  rw [← hcalls]
  exact hsent

/-- What a turn does to the calls and to the token. -/
def TurnEffect
    (subject : Access → Option User)
    (before after : BrowserTab Call Routine Token Access)
    (turn : Turn Call Routine) : Prop :=
  Sends before after ∧ TokenEffect subject before after (.turn turn)

/-- A turn which leaves the calls, the token and the script. -/
theorem turnEffect_rest
    {before after : BrowserTab Call Routine Token Access}
    {turn : Turn Call Routine} (hscript : before.script = none)
    (hcalls : after.calls = before.calls)
    (htoken : after.accessToken = before.accessToken)
    (hsame : after.script = before.script)
    (henter : ∀ routine, turn ≠ .enter routine) :
    TurnEffect subject before after turn := by
  exact ⟨(waits_of_eq hcalls).sends, .keep_of_script hscript htoken
    (clearing_of_none (hsame.trans hscript)) henter⟩

theorem turnEffect_renews
    (hrenews : Renews view next) (hscript : view.own.script = none)
    {turn : Turn Call Routine} (henter : ∀ routine, turn ≠ .enter routine) :
    TurnEffect subject view.own next.own turn :=
  ⟨(waits_of_eq hrenews.calls).sends, hrenews.effect hscript henter⟩

variable [DecidableEq Call]

theorem waits_setCall
    (view : TabView Tab Call Routine Token Access User) (call : Call)
    {phase : CallPhase Access}
    (hphase : ∀ token attempt, phase ≠ .sent token attempt) :
    Waits view.own (view.setCall call phase).own := by
  intro other access attempt hsent
  change Function.update view.own.calls call phase other = _ at hsent
  rw [Function.update_apply] at hsent
  split at hsent
  next heq => exact absurd hsent (hphase _ _)
  next hne => exact hsent

theorem sends_send
    (view : TabView Tab Call Routine Token Access User) (call : Call)
    (attempt : Attempt Access) :
    Sends view.own (view.send call attempt).own := by
  intro other access attempt hsent
  change Function.update view.own.calls call _ other = _ at hsent
  rw [Function.update_apply] at hsent
  split at hsent
  next heq => exact .inr (CallPhase.sent.inj hsent).1
  next hne => exact .inl hsent

theorem turnEffect_setCall
    (hscript : view.own.script = none) (call : Call) {phase : CallPhase Access}
    (hphase : ∀ token attempt, phase ≠ .sent token attempt)
    {turn : Turn Call Routine} (henter : ∀ routine, turn ≠ .enter routine) :
    TurnEffect subject view.own (view.setCall call phase).own turn := by
  exact ⟨(waits_setCall view call hphase).sends,
    .keep_of_script hscript rfl (clearing_of_none hscript) henter⟩

theorem turnEffect_send
    (hscript : view.own.script = none) (call : Call) (attempt : Attempt Access)
    {turn : Turn Call Routine} (henter : ∀ routine, turn ≠ .enter routine) :
    TurnEffect subject view.own (view.send call attempt).own turn := by
  exact ⟨sends_send view call attempt,
    .keep_of_script hscript rfl (clearing_of_none hscript) henter⟩

theorem respond_effect [DecidableEq Access]
    {call : Call} {sent : Option Access} {attempt : Attempt Access}
    {answer : CallAnswer} (hscript : view.own.script = none) :
    TurnEffect subject view.own (view.respond call sent attempt answer).own
      (.respond call answer) := by
  have henter : ∀ routine : Routine,
      Turn.respond call answer ≠ .enter routine := by
    rintro routine ⟨⟩
  have hended : ∀ outcome, TurnEffect subject view.own
      (view.setCall call (.ended outcome)).own (.respond call answer) :=
    fun outcome => turnEffect_setCall hscript call (by rintro _ _ ⟨⟩) henter
  cases answer with
  | ok => exact hended .returned
  | error => exact hended .threw
  | lost => exact hended .threw
  | unauthorized =>
      unfold TabView.respond
      simp only
      split
      next hretry => exact hended .threw
      next hfirst =>
        split
        next hother => exact turnEffect_send hscript call _ henter
        next hsame =>
          have hwaiting : Waits view.own
              (view.setCall call (.unauthorized sent)).own :=
            waits_setCall view call (by rintro _ _ ⟨⟩)
          have hrenews := renews_refreshOnce
            (view.setCall call (.unauthorized sent))
          constructor
          · apply Waits.sends
            intro other access attempt hsent
            rw [hrenews.calls] at hsent
            exact hwaiting other access attempt hsent
          · rcases hrenews.token with hclear | ⟨hkeep, hscripts⟩
            · exact .lose_of_script hscript hclear
            · exact .keep_of_script hscript hkeep
                (clearing_of_none (hscripts.trans hscript)) henter

theorem resume_effect
    {call : Call} (hscript : view.own.script = none)
    (hresume : view.resume call = some next) :
    TurnEffect subject view.own next.own (.resume call) := by
  have henter : ∀ routine : Routine, Turn.resume call ≠ .enter routine := by
    rintro routine ⟨⟩
  unfold TabView.resume at hresume
  split at hresume
  · obtain rfl := Option.some.inj hresume
    exact turnEffect_setCall hscript call (by rintro _ _ ⟨⟩) henter
  · obtain rfl := Option.some.inj hresume
    exact turnEffect_setCall hscript call (by rintro _ _ ⟨⟩) henter
  · obtain rfl := Option.some.inj hresume
    exact turnEffect_setCall hscript call (by rintro _ _ ⟨⟩) henter
  · obtain rfl := Option.some.inj hresume
    exact turnEffect_send hscript call _ henter
  · obtain rfl := Option.some.inj hresume
    exact turnEffect_send hscript call _ henter
  · contradiction

theorem request_effect
    {call : Call} {withoutSession : Bool} (hscript : view.own.script = none) :
    TurnEffect subject view.own (view.rawRequest call withoutSession).own
      (.request call withoutSession : Turn Call Routine) := by
  have henter : ∀ routine : Routine,
      Turn.request call withoutSession ≠ .enter routine := by
    rintro routine ⟨⟩
  unfold TabView.rawRequest
  split
  next hwithout =>
    exact turnEffect_setCall hscript call (by rintro _ _ ⟨⟩) henter
  next hsession =>
    split
    next hnone hstored =>
      have hwaits : Waits view.own (view.setCall call .bootstrapping).own :=
        waits_setCall view call (by rintro _ _ ⟨⟩)
      exact ⟨hwaits.sends, .keep_of_script hscript rfl rfl henter⟩
    next hsent => exact turnEffect_send hscript call _ henter

theorem turn_effect
    [DecidableEq Routine] [DecidableEq Token] [DecidableEq Access]
    {turn : Turn Call Routine} (hscript : view.own.script = none)
    (hturn : view.turn turn = some next) :
    TurnEffect subject view.own next.own turn := by
  cases turn with
  | present =>
      simp only [TabView.turn] at hturn
      split at hturn
      next hphase =>
        obtain rfl := Option.some.inj hturn
        exact turnEffect_renews (renews_present view _) hscript
          (by rintro _ ⟨⟩)
      next => contradiction
  | check =>
      simp only [TabView.turn] at hturn
      split at hturn
      next sent reply hphase =>
        obtain rfl := Option.some.inj hturn
        exact turnEffect_renews (renews_check view sent reply) hscript
          (by rintro _ ⟨⟩)
      next => contradiction
  | receive =>
      simp only [TabView.turn] at hturn
      split at hturn
      next sent tokens hphase =>
        obtain rfl := Option.some.inj hturn
        refine ⟨(waits_of_eq rfl).sends, .refresh hphase rfl rfl ?_ ?_⟩
        · exact Bool.and_false _
        · rw [switched, hscript]
      next => contradiction
  | lose =>
      simp only [TabView.turn] at hturn
      split at hturn
      all_goals
        first
          | contradiction
          | obtain rfl := Option.some.inj hturn
            exact turnEffect_rest hscript rfl rfl rfl (by rintro _ ⟨⟩)
  | unlock =>
      simp only [TabView.turn] at hturn
      split at hturn
      next renewal hphase =>
        obtain rfl := Option.some.inj hturn
        exact turnEffect_rest hscript rfl rfl rfl (by rintro _ ⟨⟩)
      next => contradiction
  | settle =>
      simp only [TabView.turn] at hturn
      split at hturn
      next renewal hphase =>
        obtain rfl := Option.some.inj hturn
        refine ⟨?_, .keep_of_script hscript rfl ?_ (by rintro _ ⟨⟩)⟩
        · apply Waits.sends
          intro call access attempt hsent
          change (view.own.calls call).settle renewal = _ at hsent
          cases hcall : view.own.calls call <;>
            simp [hcall, CallPhase.settle] at hsent ⊢
          exact hsent
        · exact clearing_of_none hscript
      next => contradiction
  | refreshSession =>
      obtain rfl := Option.some.inj hturn
      exact turnEffect_renews (renews_refreshOnce view) hscript
        (by rintro _ ⟨⟩)
  | request call withoutSession =>
      simp only [TabView.turn] at hturn
      split at hturn
      next hidle =>
        obtain rfl := Option.some.inj hturn
        exact request_effect hscript
      next => contradiction
  | respond call answer =>
      simp only [TabView.turn] at hturn
      split at hturn
      next sent attempt hphase =>
        obtain rfl := Option.some.inj hturn
        exact respond_effect hscript
      next hphase =>
        obtain rfl := Option.some.inj hturn
        exact turnEffect_setCall hscript call (by rintro _ _ ⟨⟩)
          (by rintro _ ⟨⟩)
      next => contradiction
  | resume call => exact resume_effect hscript hturn
  | login routine =>
      simp only [TabView.turn] at hturn
      split at hturn
      next hphase =>
        obtain rfl := Option.some.inj hturn
        exact turnEffect_rest hscript rfl rfl rfl (by rintro _ ⟨⟩)
      next => contradiction
  | enter routine =>
      simp only [TabView.turn] at hturn
      split at hturn
      next tokens hphase =>
        obtain rfl := Option.some.inj hturn
        refine ⟨(waits_of_eq rfl).sends, .enter hphase rfl ?_ ?_⟩
        · exact Bool.and_false _
        · rw [switched, hscript]
      next => contradiction
  | abandon routine =>
      simp only [TabView.turn] at hturn
      split at hturn
      all_goals
        first
          | contradiction
          | obtain rfl := Option.some.inj hturn
            exact turnEffect_rest hscript rfl rfl rfl (by rintro _ ⟨⟩)
  | logout routine =>
      simp only [TabView.turn] at hturn
      split at hturn
      next hphase hstored =>
        obtain rfl := Option.some.inj hturn
        exact ⟨(waits_of_eq rfl).sends, .lose_of_script hscript rfl⟩
      next token hphase hstored =>
        obtain rfl := Option.some.inj hturn
        exact turnEffect_rest hscript rfl rfl rfl (by rintro _ ⟨⟩)
      next => contradiction
  | leave routine =>
      simp only [TabView.turn] at hturn
      split at hturn
      next hphase =>
        obtain rfl := Option.some.inj hturn
        exact ⟨(waits_of_eq rfl).sends, .lose_of_script hscript rfl⟩
      next => contradiction
  | storageEvent =>
      simp only [TabView.turn] at hturn
      split at hturn
      next hstored =>
        obtain rfl := Option.some.inj hturn
        exact ⟨(waits_of_eq rfl).sends, .lose_of_script hscript rfl⟩
      next token hstored =>
        obtain rfl := Option.some.inj hturn
        refine ⟨(waits_of_eq rfl).sends,
          .keep_of_script hscript rfl rfl (by rintro _ ⟨⟩)⟩

/-- What a move does to the calls and to the token. -/
def MoveEffect
    (subject : Access → Option User)
    (before after : BrowserTab Call Routine Token Access)
    (move : BrowserMove Call Routine Token Access) : Prop :=
  Sends before after ∧ TokenEffect subject before after move

omit [DecidableEq Call] in
/-- A move beside the script, of the browser or the server. -/
theorem moveEffect_rest
    {before after : BrowserTab Call Routine Token Access}
    {move : BrowserMove Call Routine Token Access}
    (hcalls : after.calls = before.calls)
    (htoken : after.accessToken = before.accessToken)
    (hscript : after.script = before.script)
    (henter : ∀ routine, move ≠ .turn (.enter routine)) :
    MoveEffect subject before after move := by
  refine ⟨(waits_of_eq hcalls).sends, .keep htoken ?_ ?_ henter⟩
  · rw [cleared, clearing, clearing, hscript, Bool.not_and_self]
  · rw [switched, htoken]
    split
    · cases before.accessToken <;> rfl
    · rfl

omit [DecidableEq Call] in
theorem proceed_effect [DecidableEq User]
    {script : Script Token Access} (hscript : view.own.script = some script) :
    MoveEffect subject view.own (view.proceed subject script).own .proceed := by
  cases script with
  | writing write ownerDone =>
      refine ⟨(waits_of_eq ?_).sends, .keep ?_ ?_ ?_ (by rintro _ ⟨⟩)⟩
      · cases ownerDone <;> rfl
      · cases ownerDone <;> rfl
      · cases ownerDone <;> cases write <;> exact Bool.and_false _
      · rw [switched, hscript]
  | refreshing =>
      have hrenews := renews_refreshOnce (view.setScript none)
      refine ⟨(waits_of_eq hrenews.calls).sends, ?_⟩
      rcases hrenews.token with hclear | ⟨hkeep, hsame⟩
      · apply TokenEffect.lose
        left
        rw [cleared, clearing, hscript]
        exact hclear
      · have htoken : (view.setScript none).refreshOnce.own.accessToken =
            view.own.accessToken := hkeep
        have hquiet : clearing (view.setScript none).refreshOnce.own = false :=
          clearing_of_none hsame
        apply TokenEffect.keep htoken
        · exact (congrArg _ hquiet).trans (Bool.and_false _)
        · rw [switched, hscript]
        · rintro routine ⟨⟩
  | matching =>
      change MoveEffect subject view.own (view.matchOwner subject).own .proceed
      unfold TabView.matchOwner
      simp only
      split
      next hother =>
        refine ⟨(waits_of_eq rfl).sends, .lose (.inr ?_)⟩
        rw [switched, hscript]
        cases hown : view.own.accessToken with
        | none => simp [hown] at hother
        | some access => rfl
      next hsame =>
        refine ⟨(waits_of_eq rfl).sends,
          .keep rfl (Bool.and_false _) ?_ (by rintro _ ⟨⟩)⟩
        rw [switched, hscript]
        show (view.own.accessToken.isSome && view.own.accessToken.isNone) = false
        cases view.own.accessToken <;> rfl

theorem advance_effect
    [DecidableEq Tab] [DecidableEq Routine] [DecidableEq Token]
    [DecidableEq Access] [DecidableEq User]
    {move : BrowserMove Call Routine Token Access}
    (hadvance : view.advance subject userOf tab move = some next) :
    MoveEffect subject view.own next.own move := by
  cases move with
  | turn turn =>
      simp only [TabView.advance] at hadvance
      split at hadvance
      next hscript => exact turn_effect hscript hadvance
      next => contradiction
  | proceed =>
      obtain ⟨script, hscript, rfl⟩ := Option.map_eq_some_iff.mp hadvance
      exact proceed_effect hscript
  | acquire =>
      simp only [TabView.advance] at hadvance
      split at hadvance
      next hwaiting hfree =>
        obtain rfl := Option.some.inj hadvance
        exact moveEffect_rest rfl rfl rfl (by rintro _ ⟨⟩)
      next => contradiction
  | rotate tokens =>
      simp only [TabView.advance] at hadvance
      split at hadvance
      next sent hphase =>
        split at hadvance
        next hissues =>
          obtain rfl := Option.some.inj hadvance
          exact moveEffect_rest rfl rfl rfl (by rintro _ ⟨⟩)
        next => contradiction
      next => contradiction
  | refuse =>
      simp only [TabView.advance] at hadvance
      split at hadvance
      next sent hphase =>
        obtain rfl := Option.some.inj hadvance
        exact moveEffect_rest rfl rfl rfl (by rintro _ ⟨⟩)
      next => contradiction
  | fail =>
      simp only [TabView.advance] at hadvance
      split at hadvance
      next sent hphase =>
        obtain rfl := Option.some.inj hadvance
        exact moveEffect_rest rfl rfl rfl (by rintro _ ⟨⟩)
      next => contradiction
  | authenticate routine tokens =>
      simp only [TabView.advance] at hadvance
      split at hadvance
      next hphase =>
        split at hadvance
        next hissues =>
          obtain rfl := Option.some.inj hadvance
          exact moveEffect_rest rfl rfl rfl (by rintro _ ⟨⟩)
        next => contradiction
      next => contradiction

end Effects

/-! ## Whose profile is shown -/

/-- What holds of a tab and its provider: who is shown is the user of an access
token which agrees with that of the tab, and so is the token of a reading which
still counts. -/
structure Owned
    (subject : Access → Option User) (agree : Access → Access → Prop)
    (screen : Screen Call Routine Slot Token Access User) : Prop where
  user : ∀ me, screen.provider.user = some me →
    ∃ own access, screen.tab.accessToken = some own ∧ agree own access ∧
      subject access = some me
  reads : ∀ call kind access attempt,
    screen.provider.reads call =
        some (kind, screen.provider.profileRequest) →
      screen.tab.calls call = .sent (some access) attempt →
        ∃ own, screen.tab.accessToken = some own ∧ agree own access
  readsCount : ∀ call kind request,
    screen.provider.reads call = some (kind, request) →
      request ≤ screen.provider.profileRequest
  reloadsCount : ∀ slot request, screen.provider.reloads slot = some request →
    request ≤ screen.provider.profileRequest

section Invariant

variable {subject : Access → Option User} {userOf : Token → User} {tab : Tab}
  {agree : Access → Access → Prop}

/-- The access token which a refresh is about to bring the tab. -/
def brought
    (own : BrowserTab Call Routine Token Access) :
    BrowserMove Call Routine Token Access → Option Access
  | .turn .receive =>
      match own.refresh with
      | .readingBody _ tokens => some tokens.access
      | _ => none
  | _ => none

/-- What a refresh brings agrees with the token which the tab has. -/
def Agrees
    (agree : Access → Access → Prop)
    (own : BrowserTab Call Routine Token Access)
    (move : BrowserMove Call Routine Token Access) : Prop :=
  ∀ access ∈ brought own move, ∀ token ∈ own.accessToken, agree access token

theorem Owned.forget
    {before after : BrowserTab Call Routine Token Access}
    {provider : Provider Call Slot User} {next : Provider Call Slot User}
    (howned : Owned subject agree ⟨before, provider⟩)
    (hcount : next.profileRequest = provider.profileRequest + 1)
    (hreads : next.reads = provider.reads)
    (hreloads : next.reloads = provider.reloads)
    (huser : ∀ me, next.user = some me →
      ∃ own access, after.accessToken = some own ∧ agree own access ∧
        subject access = some me) :
    Owned subject agree ⟨after, next⟩ where
  user := huser
  reads call kind access attempt hread _ := by
    have hbefore := howned.readsCount call kind next.profileRequest
      (hreads ▸ hread)
    simp only at hbefore
    omega
  readsCount call kind request hread := by
    have hbefore := howned.readsCount call kind request (hreads ▸ hread)
    simp only at hbefore ⊢
    omega
  reloadsCount slot request hreload := by
    have hbefore := howned.reloadsCount slot request (hreloads ▸ hreload)
    simp only at hbefore ⊢
    omega

/-- What the provider has noticed, and the readings which may be answered. -/
structure Notices
    (subject : Access → Option User) (agree : Access → Access → Prop)
    (before after : BrowserTab Call Routine Token Access)
    (move : BrowserMove Call Routine Token Access)
    (provider : Provider Call Slot User) : Prop where
  owned : Owned subject agree ⟨after, provider⟩
  pending : ∀ call kind access attempt,
    endedCall move = some call →
      provider.reads call = some (kind, provider.profileRequest) →
        before.calls call = .sent (some access) attempt →
          ∃ own, after.accessToken = some own ∧ agree own access

theorem notices_notice
    (hrefl : ∀ access, agree access access)
    (htrans : ∀ first second third, agree first second → agree second third →
      agree first third)
    {before after : BrowserTab Call Routine Token Access}
    {move : BrowserMove Call Routine Token Access}
    {provider : Provider Call Slot User}
    (howned : Owned subject agree ⟨before, provider⟩)
    (heffect : MoveEffect subject before after move)
    (hagrees : Agrees agree before move) :
    Notices subject agree before after move
      (provider.notice subject before after move) := by
  obtain ⟨hsends, htoken⟩ := heffect
  cases htoken with
  | keep hkeep hclear hswitch henter =>
      have hsame : provider.notice subject before after move = provider := by
        unfold Provider.notice
        rw [hclear, hswitch, if_neg Bool.false_ne_true,
          if_neg Bool.false_ne_true]
        split
        next routine => exact absurd rfl (henter routine)
        next => rfl
      rw [hsame]
      constructor
      · constructor
        · intro me hme
          obtain ⟨own, access, hown, hagree, hsubject⟩ := howned.user me hme
          exact ⟨own, access, hkeep.trans hown, hagree, hsubject⟩
        · intro call kind access attempt hread hsent
          rcases hsends call access attempt hsent with hbefore | hnow
          · obtain ⟨own, hown, hagree⟩ :=
              howned.reads call kind access attempt hread hbefore
            exact ⟨own, hkeep.trans hown, hagree⟩
          · exact ⟨access, hnow, hrefl access⟩
        · exact howned.readsCount
        · exact howned.reloadsCount
      · intro call kind access attempt _ hread hsent
        obtain ⟨own, hown, hagree⟩ :=
          howned.reads call kind access attempt hread hsent
        exact ⟨own, hkeep.trans hown, hagree⟩
  | lose hlose =>
      have hforgets : ∃ loading, provider.notice subject before after move =
          { provider.forget with loading } := by
        unfold Provider.notice
        split
        next hclear => exact ⟨false, rfl⟩
        next hclear =>
          rw [if_pos (hlose.resolve_left hclear)]
          exact ⟨true, rfl⟩
      obtain ⟨loading, hforget⟩ := hforgets
      rw [hforget]
      refine ⟨howned.forget rfl rfl rfl (by rintro _ ⟨⟩), ?_⟩
      intro call kind access attempt _ hread _
      have hbefore := howned.readsCount call kind _ hread
      exact absurd hbefore (Nat.not_succ_le_self _)
  | @refresh sent tokens hphase htoken hcalls hclear hswitch =>
      have hsame : provider.notice subject before after (.turn .receive) =
          provider := by
        unfold Provider.notice
        rw [hclear, hswitch, if_neg Bool.false_ne_true,
          if_neg Bool.false_ne_true]
      have hbrought : ∀ own, before.accessToken = some own →
          agree tokens.access own := by
        intro own hown
        refine hagrees tokens.access ?_ own hown
        rw [brought, hphase]
        rfl
      rw [hsame]
      constructor
      · constructor
        · intro me hme
          obtain ⟨own, access, hown, hagree, hsubject⟩ := howned.user me hme
          exact ⟨_, access, htoken, htrans _ _ _ (hbrought own hown) hagree,
            hsubject⟩
        · intro call kind access attempt hread hsent
          rw [hcalls] at hsent
          obtain ⟨own, hown, hagree⟩ :=
            howned.reads call kind access attempt hread hsent
          exact ⟨_, htoken, htrans _ _ _ (hbrought own hown) hagree⟩
        · exact howned.readsCount
        · exact howned.reloadsCount
      · rintro call kind access attempt ⟨⟩
  | @enter routine tokens hphase htoken hclear hswitch =>
      have henters : provider.notice subject before after
          (.turn (.enter routine)) = provider.enter (subject tokens.access) := by
        unfold Provider.notice
        rw [hclear, hswitch, if_neg Bool.false_ne_true,
          if_neg Bool.false_ne_true]
        simp only [hphase]
      rw [henters]
      constructor
      · refine howned.forget rfl rfl rfl ?_
        intro me hme
        exact ⟨tokens.access, tokens.access, htoken, hrefl _, hme⟩
      · rintro call kind access attempt ⟨⟩

theorem owned_finish
    {own : BrowserTab Call Routine Token Access}
    {provider : Provider Call Slot User} {kind : ReadKind} {request : ℕ}
    {me : User} (howned : Owned subject agree ⟨own, provider⟩)
    (hme : request = provider.profileRequest →
      ∃ token access, own.accessToken = some token ∧ agree token access ∧
        subject access = some me) :
    Owned subject agree ⟨own, provider.finish kind request me⟩ := by
  unfold Provider.finish
  split
  next hstale => exact howned
  next hlast =>
    have hshown := hme (not_not.mp hlast)
    cases kind with
    | load =>
        exact ⟨fun other hother => Option.some.inj hother ▸ hshown,
          howned.reads, howned.readsCount, howned.reloadsCount⟩
    | reload =>
        exact ⟨fun other hother => Option.some.inj hother ▸ hshown,
          howned.reads, howned.readsCount, howned.reloadsCount⟩

theorem owned_fail
    {own : BrowserTab Call Routine Token Access}
    {provider : Provider Call Slot User} {kind : ReadKind} {request : ℕ}
    {down : Bool} (howned : Owned subject agree ⟨own, provider⟩) :
    Owned subject agree ⟨own, provider.fail kind request down⟩ := by
  cases kind with
  | load =>
      rw [Provider.fail]
      split
      next hstale => exact howned
      next hlast =>
        exact ⟨by rintro me ⟨⟩, howned.reads, howned.readsCount,
          howned.reloadsCount⟩
  | reload => exact howned

theorem Notices.receive
    {before after : BrowserTab Call Routine Token Access}
    {move : BrowserMove Call Routine Token Access} {down : Bool}
    {provider next : Provider Call Slot User}
    (hnotices : Notices subject agree before after move provider)
    (hreceive : provider.receive subject before after move down = some next) :
    Owned subject agree ⟨after, next⟩ := by
  unfold Provider.receive at hreceive
  split at hreceive
  next hnone => exact Option.some.inj hreceive ▸ hnotices.owned
  next call hcall =>
    split at hreceive
    next kind request hread hended =>
      split at hreceive
      next access attempt hsent =>
        obtain ⟨me, hme, rfl⟩ := Option.map_eq_some_iff.mp hreceive
        apply owned_finish hnotices.owned
        rintro rfl
        obtain ⟨own, hown, hagree⟩ :=
          hnotices.pending call kind access attempt hcall hread hsent
        exact ⟨own, access, hown, hagree, hme⟩
      next => contradiction
    next kind request hread hended =>
      exact Option.some.inj hreceive ▸ owned_fail hnotices.owned
    next => exact Option.some.inj hreceive ▸ hnotices.owned

theorem reloads_of_cleared [DecidableEq Slot]
    {reloads : Slot → Option ℕ} {slot other : Slot} {request : ℕ}
    (hreload : Function.update reloads slot none other = some request) :
    reloads other = some request := by
  rw [Function.update_apply] at hreload
  split at hreload
  next heq => contradiction
  next hne => exact hreload

/-- A reading is noted for a call which is about to be sent. -/
theorem Owned.register [DecidableEq Call]
    {own : BrowserTab Call Routine Token Access}
    {provider next : Provider Call Slot User} {call : Call} {kind : ReadKind}
    {request : ℕ} (howned : Owned subject agree ⟨own, provider⟩)
    (hidle : own.calls call = .idle) (huser : next.user = provider.user)
    (hreads : next.reads =
      Function.update provider.reads call (some (kind, request)))
    (hrequest : request ≤ next.profileRequest)
    (hcount : provider.profileRequest ≤ next.profileRequest)
    (hreloads : ∀ slot request, next.reloads slot = some request →
      request ≤ next.profileRequest) :
    Owned subject agree ⟨own, next⟩ where
  user := by
    rw [show Screen.provider _ = next from rfl, huser]
    exact howned.user
  reads other kind access attempt hread hsent := by
    simp only [hreads, Function.update_apply] at hread
    split at hread
    next heq =>
      rw [heq, hidle] at hsent
      contradiction
    next hne =>
      have hbefore := howned.readsCount other kind _ hread
      rw [← hcount.antisymm hbefore] at hread
      exact howned.reads other kind access attempt hread hsent
  readsCount other kind number hread := by
    simp only [hreads, Function.update_apply] at hread
    split at hread
    next heq =>
      obtain ⟨-, rfl⟩ := Prod.mk.inj (Option.some.inj hread)
      exact hrequest
    next hne => exact (howned.readsCount other kind number hread).trans hcount
  reloadsCount := hreloads

section Browse

variable [DecidableEq Call] [DecidableEq Routine] [DecidableEq Token]
  [DecidableEq Access] [DecidableEq User]
  {view next : ScreenView Tab Call Routine Slot Token Access User}

theorem owned_browse [DecidableEq Tab]
    (hrefl : ∀ access, agree access access)
    (htrans : ∀ first second third, agree first second → agree second third →
      agree first third)
    {move : BrowserMove Call Routine Token Access} {down : Bool}
    (howned : Owned subject agree view.own)
    (hagrees : Agrees agree view.own.tab move)
    (hbrowse : view.browse subject userOf tab move down = some next) :
    Owned subject agree next.own := by
  obtain ⟨after, hadvance, hrest⟩ := Option.bind_eq_some_iff.mp hbrowse
  obtain ⟨provider, hreceive, rfl⟩ := Option.map_eq_some_iff.mp hrest
  exact (notices_notice hrefl htrans howned (advance_effect hadvance)
    hagrees).receive hreceive

theorem idle_of_browse
    {call : Call} {down : Bool}
    (hbrowse : view.browse subject userOf tab (.turn (.request call false))
      down = some next) : view.own.tab.calls call = .idle := by
  obtain ⟨after, hadvance, -⟩ := Option.bind_eq_some_iff.mp hbrowse
  simp only [TabView.advance] at hadvance
  split at hadvance
  next hscript =>
    simp only [TabView.turn] at hadvance
    split at hadvance
    next hidle => exact hidle
    next => contradiction
  next => contradiction

end Browse

/-- The condition on a step of a tab. -/
def Keeps
    (agree : Access → Access → Prop)
    (own : Screen Call Routine Slot Token Access User) :
    ScreenMove Call Routine Slot Token Access → Prop
  | .browser move _ => Agrees agree own.tab move
  | _ => True

section Steps

variable [DecidableEq Tab] [DecidableEq Call] [DecidableEq Routine]
  [DecidableEq Slot] [DecidableEq Token] [DecidableEq Access]
  [DecidableEq User]

theorem owned_advance
    {view next : ScreenView Tab Call Routine Slot Token Access User}
    (hrefl : ∀ access, agree access access)
    (htrans : ∀ first second third, agree first second → agree second third →
      agree first third)
    {move : ScreenMove Call Routine Slot Token Access}
    (howned : Owned subject agree view.own)
    (hkeeps : Keeps agree view.own move)
    (hadvance : view.advance subject userOf tab move = some next) :
    Owned subject agree next.own := by
  cases move with
  | browser move down =>
      exact owned_browse hrefl htrans howned hkeeps hadvance
  | load call retry =>
      have hidle := idle_of_browse hadvance
      refine owned_browse hrefl htrans ?_ (by rintro access ⟨⟩) hadvance
      exact howned.register hidle rfl rfl le_rfl (Nat.le_succ _)
        fun slot request hreload =>
          Nat.le_succ_of_le (howned.reloadsCount slot request hreload)
  | reload slot =>
      simp only [ScreenView.advance] at hadvance
      split at hadvance
      next => contradiction
      next hfree =>
        refine owned_browse hrefl htrans ?_ (by rintro access ⟨⟩) hadvance
        refine ⟨howned.user, howned.reads, howned.readsCount, ?_⟩
        intro other request hreload
        change Function.update view.own.provider.reloads slot _ other = _
          at hreload
        rw [Function.update_apply] at hreload
        split at hreload
        next heq => exact (Option.some.inj hreload).ge
        next hne => exact howned.reloadsCount other request hreload
  | readAgain slot call =>
      simp only [ScreenView.advance] at hadvance
      split at hadvance
      next => contradiction
      next request hwaits =>
        have hidle := idle_of_browse hadvance
        refine owned_browse hrefl htrans ?_ (by rintro access ⟨⟩) hadvance
        refine howned.register hidle rfl rfl
          (howned.reloadsCount slot request hwaits) le_rfl ?_
        exact fun other number hreload =>
          howned.reloadsCount other number (reloads_of_cleared hreload)
  | giveUp slot =>
      obtain rfl := Option.some.inj hadvance
      exact ⟨howned.user, howned.reads, howned.readsCount,
        fun other number hreload =>
          howned.reloadsCount other number (reloads_of_cleared hreload)⟩

theorem owned_of_reachable
    (hrefl : ∀ access, agree access access)
    (htrans : ∀ first second third, agree first second → agree second third →
      agree first third)
    {Allowed : Screens Tab Call Routine Slot Token Access User →
      Tab × ScreenMove Call Routine Slot Token Access → Prop}
    (hallowed : ∀ state action, Allowed state action →
      Keeps agree (state.own action.1) action.2)
    {state : Screens Tab Call Routine Slot Token Access User}
    (hreach : (screenMachine Call Routine Slot subject userOf).ReachableWhere
      Allowed state)
    (tab : Tab) : Owned subject agree (state.own tab) := by
  have hinitial : ∀ state : Screens Tab Call Routine Slot Token Access User,
      state.Start → ∀ tab, Owned subject agree (state.own tab) := by
    intro state hstart tab
    constructor
    · intro me hme
      rw [hstart.user tab] at hme
      contradiction
    · intro call kind access attempt hread
      rw [hstart.reads tab call] at hread
      contradiction
    · intro call kind request hread
      rw [hstart.reads tab call] at hread
      contradiction
    · intro slot request hreload
      rw [hstart.reloads tab slot] at hreload
      contradiction
  have hpreserved : ∀ (state : Screens Tab Call Routine Slot Token Access User)
      (action : Tab × ScreenMove Call Routine Slot Token Access) next,
      (∀ tab, Owned subject agree (state.own tab)) →
        Allowed state action →
          (screenMachine Call Routine Slot subject userOf).step state action =
            some next → ∀ tab, Owned subject agree (next.own tab) := by
    rintro state ⟨mover, move⟩ next howned hstep hadvance
    have hkeeps := hallowed state (mover, move) hstep
    obtain ⟨view, hview, rfl⟩ := Machine.agents_step hadvance
    exact Agents.forall_put (fun _ own => Owned subject agree own)
      (owned_advance hrefl htrans (howned mover) hkeeps hview)
      fun other _ => howned other
  exact hreach.invariant hinitial hpreserved tab

end Steps

end Invariant

/-- Tokens of the same user. -/
def SameUser (subject : Access → Option User) (first second : Access) : Prop :=
  subject first = subject second

instance [DecidableEq User]
    (subject : Access → Option User) (first second : Access) :
    Decidable (SameUser subject first second) :=
  inferInstanceAs (Decidable (_ = _))

instance
    {agree : Access → Access → Prop}
    [∀ first second, Decidable (agree first second)]
    (own : BrowserTab Call Routine Token Access)
    (move : BrowserMove Call Routine Token Access) :
    Decidable (Agrees agree own move) :=
  inferInstanceAs (Decidable (∀ access ∈ brought own move,
    ∀ token ∈ own.accessToken, agree access token))

instance
    {agree : Access → Access → Prop}
    [∀ first second, Decidable (agree first second)]
    (own : Screen Call Routine Slot Token Access User) :
    (move : ScreenMove Call Routine Slot Token Access) →
      Decidable (Keeps agree own move)
  | .browser move _ => inferInstanceAs (Decidable (Agrees agree own.tab move))
  | .load _ _ | .reload _ | .readAgain _ _ | .giveUp _ => .isTrue trivial

/-- A tab without an access token shows nobody, in every run.  And as long as no
refresh has brought a tab a token of another user than that of its own, the user
it shows is the user of its access token. -/
theorem shown_user_owns_token
    [DecidableEq Tab] [DecidableEq Call] [DecidableEq Routine]
    [DecidableEq Slot] [DecidableEq Token] [DecidableEq Access]
    [DecidableEq User] (subject : Access → Option User)
    (userOf : Token → User) (tab : Tab) :
    (∀ state, (screenMachine Call Routine Slot subject userOf).Reachable state →
      (state.own tab).tab.accessToken = none →
        (state.own tab).provider.user = none) ∧
    ∀ state, (screenMachine Call Routine Slot subject userOf).ReachableWhere
        (fun state action =>
          Keeps (SameUser subject) (state.own action.1) action.2) state →
      ∀ me, (state.own tab).provider.user = some me →
        ∃ access, (state.own tab).tab.accessToken = some access ∧
          subject access = some me := by
  constructor
  · intro state hreach hnone
    have hkeeps : ∀ (own : Screen Call Routine Slot Token Access User) move,
        Keeps (fun _ _ => True) own move := by
      rintro own (_ | _) <;> simp [Keeps, Agrees]
    have howned := owned_of_reachable (fun _ => trivial)
      (fun _ _ _ _ _ => trivial) (fun state action _ => hkeeps _ _) hreach tab
    cases hme : (state.own tab).provider.user with
    | none => rfl
    | some me =>
        obtain ⟨own, access, hown, -⟩ := howned.user me hme
        rw [hnone] at hown
        contradiction
  · intro state hreach me hme
    have hrefl : ∀ access, SameUser subject access access := fun _ => rfl
    have htrans : ∀ first second third, SameUser subject first second →
        SameUser subject second third → SameUser subject first third :=
      fun _ _ _ hfirst hsecond => Eq.trans hfirst hsecond
    have howned := owned_of_reachable hrefl htrans (fun _ _ hkeeps => hkeeps)
      hreach tab
    obtain ⟨own, access, hown, hagree, hsubject⟩ := howned.user me hme
    exact ⟨own, hown, Eq.trans hagree hsubject⟩

/-! Two tabs of one browser, both with the session of user 0. -/

def sampleScreens : Screens Bool Bool Unit Unit ℕ ℕ ℕ where
  shared :=
    { storage := ⟨some 0, some 0⟩
      lock := none
      tokens := {0}
      accesses := {0}
      rotated := ∅ }
  own _ :=
    { tab :=
        { accessToken := some 0
          script := none
          refresh := .idle
          calls := fun _ => .idle
          routines := fun _ => .idle }
      provider := ⟨none, true, false, 0, fun _ => none, fun _ => none⟩ }

/-- Every token names its user. -/
def sampleUser (token : ℕ) : ℕ := token / 10

def sampleSubject (access : ℕ) : Option ℕ := some (access / 10)

abbrev sampleMachine : Machine (Screens Bool Bool Unit Unit ℕ ℕ ℕ)
    (Bool × ScreenMove Bool Unit Unit ℕ ℕ) :=
  screenMachine Bool Unit Unit sampleSubject sampleUser

theorem sampleScreens_start : sampleScreens.Start := by
  refine ⟨⟨rfl, fun _ => rfl, fun _ => rfl, fun _ _ => rfl, fun _ _ => rfl,
    ?_, ?_, ?_⟩, fun _ => rfl, fun _ _ => rfl, fun _ _ => rfl⟩
  · rintro token ⟨⟩
    decide
  · decide
  · rintro tab access ⟨⟩
    decide

def browsing (tab : Bool) (moves : List (BrowserMove Bool Unit ℕ ℕ)) :
    List (Bool × ScreenMove Bool Unit Unit ℕ ℕ) :=
  moves.map fun move => (tab, .browser move false)

/-- The first tab reads its profile, and user 1 logs in from the second one. -/
def readThenLogin : List (Bool × ScreenMove Bool Unit Unit ℕ ℕ) :=
  (false, .load false false) ::
    browsing false [.turn (.respond false .ok)] ++
    browsing true [.turn (.login ()), .authenticate () ⟨10, 10⟩,
      .turn (.enter ()), .proceed, .proceed]

/-- A refresh with the stored token of user 1, for the call `true`. -/
def refreshing : List (BrowserMove Bool Unit ℕ ℕ) :=
  [.acquire, .turn .present, .rotate ⟨11, 11⟩, .turn .check, .turn .receive,
    .proceed, .proceed, .turn .unlock, .turn .settle, .turn (.resume true)]

/-- The first tab is told of the login, and reads the profile again. -/
def toldInTime : List (Bool × ScreenMove Bool Unit Unit ℕ ℕ) :=
  readThenLogin ++ browsing false [.turn .storageEvent, .proceed] ++
    (false, .load true true) :: browsing false (.proceed :: refreshing) ++
    browsing false [.turn (.respond true .ok)]

/-- A request of a page of the first tab is refused before it is told. -/
def toldTooLate : List (Bool × ScreenMove Bool Unit Unit ℕ ℕ) :=
  readThenLogin ++
    browsing false ([.turn (.request true false),
      .turn (.respond true .unauthorized)] ++ refreshing ++
        [.turn .storageEvent, .proceed])

theorem shown_user_owns_token_toldInTime :
    ∃ state, sampleMachine.run sampleScreens toldInTime = some state ∧
      (state.own false).provider.user = some 1 ∧
      ∃ access, (state.own false).tab.accessToken = some access ∧
        sampleSubject access = some 1 := by
  have hallowed : sampleMachine.AllowedAlong
      (fun state action =>
        Keeps (SameUser sampleSubject) (state.own action.1) action.2)
      sampleScreens toldInTime := by
    decide
  obtain ⟨state, hrun, huser⟩ : ∃ state,
      sampleMachine.run sampleScreens toldInTime = some state ∧
        (state.own false).provider.user = some 1 := ⟨_, rfl, rfl⟩
  exact ⟨state, hrun, huser,
    (shown_user_owns_token sampleSubject sampleUser false).2 state
      (Machine.ReachableWhere.run (.initial sampleScreens_start) hallowed hrun)
      1 huser⟩

/-- A refresh which is faster than the storage event leaves the name of user 0
beside the token of user 1, and the event then finds nothing to do. -/
theorem shown_user_crossed :
    ∃ state, sampleMachine.Reachable state ∧
      (state.own false).provider.user = some 0 ∧
      (state.own false).tab.accessToken = some 11 ∧
      sampleSubject 11 = some 1 ∧ (state.own false).tab.script = none := by
  have hrun : sampleMachine.run sampleScreens toldTooLate = some _ := rfl
  exact ⟨_, (Machine.Reachable.run (.initial sampleScreens_start) hrun), rfl,
    rfl, rfl, rfl⟩

end NotifyHub.SessionProvider
