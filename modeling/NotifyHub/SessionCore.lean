import NotifyHub.BrowserSession
import Mathlib.Tactic

/-!
# What a tab does to the session

The refreshes and the stored session do not depend on the requests which wait
for them, nor on the access tokens.  Without these, a step of a tab is one of
a few: a step of its refresh, an access to the storage, or a step of a login
or a logout.
-/

namespace NotifyHub

variable {Tab Call Routine Token Access User : Type}

/-- A tab without its requests and its access token. -/
structure SessionCore (Routine Token Access : Type) where
  refresh : RefreshPhase Token Access
  writing : Option (SessionWrite Token Access × Bool)
  entering : Routine → Option (TokenPair Token Access)

def Script.writing? :
    Script Token Access → Option (SessionWrite Token Access × Bool)
  | .writing write ownerDone => some (write, ownerDone)
  | .refreshing | .matching => none

def RoutinePhase.entering :
    RoutinePhase Token Access → Option (TokenPair Token Access)
  | .readingProfile tokens => some tokens
  | .idle | .loggingIn | .loggingOut => none

def BrowserTab.core
    (own : BrowserTab Call Routine Token Access) :
    SessionCore Routine Token Access where
  refresh := own.refresh
  writing := own.script.bind Script.writing?
  entering routine := (own.routines routine).entering

abbrev CoreView (Tab Routine Token Access User : Type) :=
  AgentView (BrowserShared Tab Token Access User)
    (SessionCore Routine Token Access)

def TabView.core
    (view : TabView Tab Call Routine Token Access User) :
    CoreView Tab Routine Token Access User :=
  ⟨view.shared, view.own.core⟩

namespace TabView

/-! ## The core of a view -/

@[simp] theorem core_setAccessToken
    (view : TabView Tab Call Routine Token Access User)
    (accessToken : Option Access) :
    (view.setAccessToken accessToken).core = view.core := rfl

@[simp] theorem core_setRefresh
    (view : TabView Tab Call Routine Token Access User)
    (refresh : RefreshPhase Token Access) :
    (view.setRefresh refresh).core =
      ⟨view.core.shared, { view.core.own with refresh }⟩ := rfl

@[simp] theorem core_setScript
    (view : TabView Tab Call Routine Token Access User)
    (script : Option (Script Token Access)) :
    (view.setScript script).core =
      ⟨view.core.shared,
        { view.core.own with writing := script.bind Script.writing? }⟩ := rfl

@[simp] theorem core_setCall [DecidableEq Call]
    (view : TabView Tab Call Routine Token Access User)
    (call : Call) (phase : CallPhase Access) :
    (view.setCall call phase).core = view.core := rfl

@[simp] theorem core_send [DecidableEq Call]
    (view : TabView Tab Call Routine Token Access User)
    (call : Call) (attempt : Attempt Access) :
    (view.send call attempt).core = view.core := rfl

theorem core_setRoutine [DecidableEq Routine]
    (view : TabView Tab Call Routine Token Access User)
    (routine : Routine) (phase : RoutinePhase Token Access) :
    (view.setRoutine routine phase).core =
      ⟨view.core.shared,
        { view.core.own with
          entering :=
            Function.update view.core.own.entering routine
              phase.entering }⟩ := by
  simp only [core, BrowserTab.core, setRoutine, AgentView.mk.injEq,
    SessionCore.mk.injEq, true_and]
  funext other
  by_cases heq : other = routine
  · subst heq
    simp
  · simp [heq]

/-- A routine which goes on without a pair. -/
theorem core_setRoutine_of_entering [DecidableEq Routine]
    (view : TabView Tab Call Routine Token Access User)
    {routine : Routine} {phase : RoutinePhase Token Access}
    (hentering : phase.entering = (view.own.routines routine).entering) :
    (view.setRoutine routine phase).core = view.core := by
  rw [core_setRoutine, hentering]
  change _ = AgentView.mk _ _
  refine congrArg (AgentView.mk _) ?_
  change _ = SessionCore.mk _ _ _
  exact congrArg (SessionCore.mk _ _)
    (Function.update_eq_self routine view.core.own.entering)

theorem core_writing_of_script
    {view : TabView Tab Call Routine Token Access User}
    (hscript : view.own.script = none) : view.core.own.writing = none := by
  simp [core, BrowserTab.core, hscript]

theorem rawRequest_core [DecidableEq Call]
    {view : TabView Tab Call Routine Token Access User} {call : Call} {withoutSession : Bool}
    (hscript : view.own.script = none) :
    (view.rawRequest call withoutSession).core = view.core := by
  unfold rawRequest
  split
  · rfl
  split
  · simp [core, BrowserTab.core, setScript, setCall, hscript,
      Script.writing?]
  · rfl

theorem resume_core [DecidableEq Call]
    {view next : TabView Tab Call Routine Token Access User} {call : Call}
    (hresume : view.resume call = some next) :
    next.core = view.core := by
  unfold resume at hresume
  split at hresume
  all_goals
    first
      | contradiction
      | exact Option.some.inj hresume ▸ rfl

end TabView

section Steps

variable [DecidableEq Token] [DecidableEq Access]

/-- The steps of a refresh, and the accesses to the storage. -/
inductive RefreshStep
    (subject : Access → Option User) (userOf : Token → User) (tab : Tab) :
    CoreView Tab Routine Token Access User →
      CoreView Tab Routine Token Access User → Prop
  | rest {view} : RefreshStep subject userOf tab view view
  | wait {shared own} {token : Token}
      (hidle : own.refresh = .idle)
      (hstored : shared.storage.refreshToken = some token) :
      RefreshStep subject userOf tab ⟨shared, own⟩
        ⟨shared, { own with refresh := .waiting }⟩
  | closeUnlocked {shared own}
      (hwriting : own.writing = none)
      (hidle : own.refresh = .idle)
      (hstored : shared.storage.refreshToken = none) :
      RefreshStep subject userOf tab ⟨shared, own⟩
        ⟨shared, { own with
          refresh := .closing false, writing := some (.clear, false) }⟩
  | acquire {shared own}
      (hwaiting : own.refresh = .waiting) (hlock : shared.lock = none) :
      RefreshStep subject userOf tab ⟨shared, own⟩
        ⟨{ shared with lock := some tab }, { own with refresh := .reading }⟩
  | present {shared own} {token : Token}
      (hwriting : own.writing = none)
      (hphase : own.refresh = .reading ∨
        ∃ sent reply, own.refresh = .replied sent reply ∧ token ≠ sent)
      (hstored : shared.storage.refreshToken = some token) :
      RefreshStep subject userOf tab ⟨shared, own⟩
        ⟨shared, { own with refresh := .inFlight token }⟩
  | closeMissing {shared own}
      (hwriting : own.writing = none)
      (hphase : own.refresh = .reading ∨
        ∃ sent reply, own.refresh = .replied sent reply)
      (hstored : shared.storage.refreshToken = none) :
      RefreshStep subject userOf tab ⟨shared, own⟩
        ⟨shared, { own with
          refresh := .closing true, writing := some (.clear, false) }⟩
  | closeRefused {shared own} {sent : Token}
      (hwriting : own.writing = none)
      (hphase : own.refresh = .replied sent .refused)
      (hstored : shared.storage.refreshToken = some sent) :
      RefreshStep subject userOf tab ⟨shared, own⟩
        ⟨shared, { own with
          refresh := .closing true, writing := some (.clear, false) }⟩
  | rotate {shared own} {sent : Token} {tokens : TokenPair Token Access}
      (hphase : own.refresh = .inFlight sent)
      (hrotated : sent ∉ shared.rotated)
      (hissues : shared.Issues subject userOf tokens)
      (huser : userOf tokens.refresh = userOf sent) :
      RefreshStep subject userOf tab ⟨shared, own⟩
        ⟨{ shared.issue tokens with
            rotated := insert sent shared.rotated },
          { own with refresh := .replied sent (.pair tokens) }⟩
  | answer {shared own} {sent : Token} {reply : RefreshReply Token Access}
      (hphase : own.refresh = .inFlight sent)
      (hreply : ∀ tokens, reply ≠ .pair tokens) :
      RefreshStep subject userOf tab ⟨shared, own⟩
        ⟨shared, { own with refresh := .replied sent reply }⟩
  | giveUp {shared own} {sent : Token}
      (hwriting : own.writing = none)
      (hphase : own.refresh = .replied sent .failed)
      (hstored : shared.storage.refreshToken = some sent) :
      RefreshStep subject userOf tab ⟨shared, own⟩
        ⟨shared, { own with refresh := .unlocking .failed }⟩
  | accept {shared own} {sent : Token} {tokens : TokenPair Token Access}
      (hwriting : own.writing = none)
      (hphase : own.refresh = .replied sent (.pair tokens))
      (hstored : shared.storage.refreshToken = some sent) :
      RefreshStep subject userOf tab ⟨shared, own⟩
        ⟨shared, { own with refresh := .readingBody sent tokens }⟩
  | receive {shared own} {sent : Token} {tokens : TokenPair Token Access}
      (hwriting : own.writing = none)
      (hphase : own.refresh = .readingBody sent tokens) :
      RefreshStep subject userOf tab ⟨shared, own⟩
        ⟨shared, { own with
          refresh := .storing sent
          writing := some (.store tokens, false) }⟩
  | unlock {shared own} {renewal : Renewal}
      (hwriting : own.writing = none)
      (hphase : own.refresh = .unlocking renewal) :
      RefreshStep subject userOf tab ⟨shared, own⟩
        ⟨{ shared with lock := none },
          { own with refresh := .settled renewal }⟩
  | settle {shared own} {renewal : Renewal}
      (hwriting : own.writing = none)
      (hphase : own.refresh = .settled renewal) :
      RefreshStep subject userOf tab ⟨shared, own⟩
        ⟨shared, { own with refresh := .idle }⟩
  | forget {shared own}
      (hwriting : own.writing = none)
      (hstored : shared.storage.refreshToken = none) :
      RefreshStep subject userOf tab ⟨shared, own⟩
        ⟨shared, { own with writing := some (.clear, false) }⟩
  | writeOwner {shared own} {write : SessionWrite Token Access}
      (hwriting : own.writing = some (write, false)) :
      RefreshStep subject userOf tab ⟨shared, own⟩
        ⟨{ shared with storage :=
            ⟨write.user subject, shared.storage.refreshToken⟩ },
          { own with writing := some (write, true) }⟩
  | writeToken {shared own} {write : SessionWrite Token Access}
      (hwriting : own.writing = some (write, true)) :
      RefreshStep subject userOf tab ⟨shared, own⟩
        ⟨{ shared with storage := ⟨shared.storage.user, write.refreshToken⟩ },
          { own with refresh := own.refresh.written, writing := none }⟩

/-- The steps of logins and logouts, and lost responses. -/
inductive OtherStep [DecidableEq Routine]
    (subject : Access → Option User) (userOf : Token → User) :
    CoreView Tab Routine Token Access User →
      CoreView Tab Routine Token Access User → Prop
  | lose {shared own}
      (hwriting : own.writing = none)
      (hphase : (∃ sent, own.refresh = .inFlight sent) ∨
        (∃ sent reply, own.refresh = .replied sent reply) ∨
          ∃ sent tokens, own.refresh = .readingBody sent tokens) :
      OtherStep subject userOf ⟨shared, own⟩
        ⟨shared, { own with refresh := .unlocking .failed }⟩
  | logout {shared own} (hwriting : own.writing = none) :
      OtherStep subject userOf ⟨shared, own⟩
        ⟨shared, { own with writing := some (.clear, false) }⟩
  | authenticate {shared own} {routine : Routine} {tokens : TokenPair Token Access}
      (hissues : shared.Issues subject userOf tokens) :
      OtherStep subject userOf ⟨shared, own⟩
        ⟨shared.issue tokens,
          { own with
            entering :=
              Function.update own.entering routine (some tokens) }⟩
  | login {shared own} {routine : Routine} {tokens : TokenPair Token Access}
      (hwriting : own.writing = none)
      (hentering : own.entering routine = some tokens) :
      OtherStep subject userOf ⟨shared, own⟩
        ⟨shared, { own with
          writing := some (.store tokens, false)
          entering := Function.update own.entering routine none }⟩
  | abandon {shared own} {routine : Routine} :
      OtherStep subject userOf ⟨shared, own⟩
        ⟨shared, { own with
          entering := Function.update own.entering routine none }⟩

/-- Logins, logouts and lost responses. -/
def Turn.disturbs : Turn Call Routine → Bool
  | .lose | .login _ | .enter _ | .abandon _ | .logout _ | .leave _ => true
  | _ => false

def BrowserMove.disturbs : BrowserMove Call Routine Token Access → Bool
  | .turn move => move.disturbs
  | .authenticate _ _ => true
  | _ => false

namespace TabView

/-! ## Steps seen from the core -/

variable {subject : Access → Option User} {userOf : Token → User} {tab : Tab}
  {view next : TabView Tab Call Routine Token Access User}

theorem refreshOnce_core (hscript : view.own.script = none) :
    RefreshStep subject userOf tab view.core view.refreshOnce.core := by
  unfold refreshOnce
  cases hphase : view.own.refresh with
  | idle =>
      simp only
      unfold refreshAccessToken
      cases hstored : view.storedToken with
      | none =>
          exact .closeUnlocked (core_writing_of_script hscript) hphase hstored
      | some token => exact .wait hphase hstored
  | _ => exact .rest

theorem present_core
    (hscript : view.own.script = none)
    (hphase : view.own.refresh = .reading ∨
      ∃ sent reply, view.own.refresh = .replied sent reply ∧
        view.storedToken ≠ some sent) :
    RefreshStep subject userOf tab view.core
      (view.present view.storedToken).core := by
  have hwriting := core_writing_of_script hscript
  cases hstored : view.storedToken with
  | none =>
      refine .closeMissing hwriting ?_ hstored
      rcases hphase with hreading | ⟨sent, reply, hreplied, -⟩
      · exact .inl hreading
      · exact .inr ⟨sent, reply, hreplied⟩
  | some token =>
      refine .present hwriting ?_ hstored
      rcases hphase with hreading | ⟨sent, reply, hreplied, hne⟩
      · exact .inl hreading
      · refine .inr ⟨sent, reply, hreplied, ?_⟩
        rintro rfl
        exact hne hstored

theorem check_core
    {sent : Token} {reply : RefreshReply Token Access}
    (hscript : view.own.script = none)
    (hphase : view.own.refresh = .replied sent reply) :
    RefreshStep subject userOf tab view.core (view.check sent reply).core := by
  have hwriting := core_writing_of_script hscript
  unfold check
  by_cases hstored : view.storedToken = some sent
  · simp only [hstored, ne_eq, not_true_eq_false, if_false]
    cases reply with
    | refused => exact .closeRefused hwriting hphase hstored
    | failed => exact .giveUp hwriting hphase hstored
    | pair tokens => exact .accept hwriting hphase hstored
  · rw [if_pos hstored]
    exact present_core hscript (.inr ⟨sent, reply, hphase, hstored⟩)

theorem proceed_core [DecidableEq User]
    {script : Script Token Access} (hscript : view.own.script = some script) :
    RefreshStep subject userOf tab view.core
      (view.proceed subject script).core := by
  cases script with
  | writing write ownerDone =>
      have hwriting : view.core.own.writing = some (write, ownerDone) := by
        simp [core, BrowserTab.core, hscript, Script.writing?]
      cases ownerDone with
      | false => exact .writeOwner hwriting
      | true => exact .writeToken hwriting
  | refreshing =>
      have hsame : (view.setScript none).core = view.core := by
        simp [core, BrowserTab.core, setScript, hscript, Script.writing?]
      have hstep : RefreshStep subject userOf tab (view.setScript none).core
          (view.setScript none).refreshOnce.core := refreshOnce_core rfl
      rwa [hsame] at hstep
  | matching =>
      have hsame : (view.matchOwner subject).core = view.core := by
        unfold matchOwner
        simp only
        split
        all_goals
          simp [core, BrowserTab.core, setScript, setAccessToken, hscript,
            Script.writing?]
      change RefreshStep _ _ _ _ (view.matchOwner subject).core
      rw [hsame]
      exact .rest

variable [DecidableEq Call]

theorem respond_core
    {call : Call} {sent : Option Access} {attempt : Attempt Access}
    {answer : CallAnswer} (hscript : view.own.script = none) :
    RefreshStep subject userOf tab view.core
      (view.respond call sent attempt answer).core := by
  cases answer with
  | unauthorized =>
      unfold respond
      simp only
      split
      · exact .rest
      split
      · exact .rest
      · have hwaiting :
            (view.setCall call (.unauthorized sent)).own.script = none :=
          hscript
        exact refreshOnce_core hwaiting
  | _ => exact .rest

/-- Every turn is a step of the core. -/
theorem turn_core [DecidableEq Routine]
    {turn : Turn Call Routine} (hscript : view.own.script = none)
    (hturn : view.turn turn = some next) :
    RefreshStep subject userOf tab view.core next.core ∨
      turn.disturbs ∧
        OtherStep subject userOf view.core next.core := by
  have hwriting := core_writing_of_script hscript
  cases turn with
  | present =>
      simp only [TabView.turn] at hturn
      split at hturn
      · rename_i hphase
        obtain rfl := Option.some.inj hturn
        exact .inl (present_core hscript (.inl hphase))
      · contradiction
  | check =>
      simp only [TabView.turn] at hturn
      split at hturn
      · rename_i sent reply hphase
        obtain rfl := Option.some.inj hturn
        exact .inl (check_core hscript hphase)
      · contradiction
  | receive =>
      simp only [TabView.turn] at hturn
      split at hturn
      · rename_i sent tokens hphase
        obtain rfl := Option.some.inj hturn
        exact .inl (.receive hwriting hphase)
      · contradiction
  | lose =>
      refine .inr ⟨rfl, ?_⟩
      simp only [TabView.turn] at hturn
      split at hturn
      · rename_i sent hphase
        obtain rfl := Option.some.inj hturn
        exact .lose hwriting (.inl ⟨sent, hphase⟩)
      · rename_i sent reply hphase
        obtain rfl := Option.some.inj hturn
        exact .lose hwriting (.inr (.inl ⟨sent, reply, hphase⟩))
      · rename_i sent tokens hphase
        obtain rfl := Option.some.inj hturn
        exact .lose hwriting (.inr (.inr ⟨sent, tokens, hphase⟩))
      · contradiction
  | unlock =>
      simp only [TabView.turn] at hturn
      split at hturn
      · rename_i renewal hphase
        obtain rfl := Option.some.inj hturn
        exact .inl (.unlock hwriting hphase)
      · contradiction
  | settle =>
      simp only [TabView.turn] at hturn
      split at hturn
      · rename_i renewal hphase
        obtain rfl := Option.some.inj hturn
        exact .inl (.settle hwriting hphase)
      · contradiction
  | refreshSession =>
      obtain rfl := Option.some.inj hturn
      exact .inl (refreshOnce_core hscript)
  | request call withoutSession =>
      simp only [TabView.turn] at hturn
      split at hturn
      · obtain rfl := Option.some.inj hturn
        rw [rawRequest_core hscript]
        exact .inl .rest
      · contradiction
  | respond call answer =>
      simp only [TabView.turn] at hturn
      split at hturn
      · obtain rfl := Option.some.inj hturn
        exact .inl (respond_core hscript)
      · obtain rfl := Option.some.inj hturn
        exact .inl .rest
      · contradiction
  | resume call =>
      rw [resume_core hturn]
      exact .inl .rest
  | login routine =>
      simp only [TabView.turn] at hturn
      split at hturn
      · rename_i hphase
        obtain rfl := Option.some.inj hturn
        rw [core_setRoutine_of_entering _ (by rw [hphase]; rfl)]
        exact .inl .rest
      · contradiction
  | enter routine =>
      refine .inr ⟨rfl, ?_⟩
      simp only [TabView.turn] at hturn
      split at hturn
      · rename_i tokens hphase
        obtain rfl := Option.some.inj hturn
        have hentering : view.core.own.entering routine = some tokens := by
          simp [core, BrowserTab.core, hphase, RoutinePhase.entering]
        simp only [storeTokens, core_setScript, core_setAccessToken,
          core_setRoutine]
        exact .login hwriting hentering
      · contradiction
  | abandon routine =>
      refine .inr ⟨rfl, ?_⟩
      simp only [TabView.turn] at hturn
      split at hturn
      all_goals
        first
          | contradiction
          | obtain rfl := Option.some.inj hturn
            rw [core_setRoutine]
            exact .abandon
  | logout routine =>
      simp only [TabView.turn] at hturn
      split at hturn
      · obtain rfl := Option.some.inj hturn
        exact .inr ⟨rfl, .logout hwriting⟩
      · rename_i hphase _
        obtain rfl := Option.some.inj hturn
        rw [core_setRoutine_of_entering _ (by rw [hphase]; rfl)]
        exact .inl .rest
      · contradiction
  | leave routine =>
      refine .inr ⟨rfl, ?_⟩
      simp only [TabView.turn] at hturn
      split at hturn
      · rename_i hphase
        obtain rfl := Option.some.inj hturn
        simp only [clearTokens, core_setScript, core_setAccessToken]
        rw [core_setRoutine_of_entering _ (by rw [hphase]; rfl)]
        exact .logout hwriting
      · contradiction
  | storageEvent =>
      simp only [TabView.turn] at hturn
      split at hturn
      · rename_i hstored
        obtain rfl := Option.some.inj hturn
        exact .inl (.forget hwriting hstored)
      · obtain rfl := Option.some.inj hturn
        refine .inl ?_
        have hsame : (view.setScript (some .matching)).core = view.core := by
          simp [core, BrowserTab.core, setScript, hscript, Script.writing?]
        rw [hsame]
        exact .rest

/-- Every move of a tab is a step of the core. -/
theorem advance_core [DecidableEq Routine] [DecidableEq User]
    {move : BrowserMove Call Routine Token Access}
    (hadvance : view.advance subject userOf tab move = some next) :
    RefreshStep subject userOf tab view.core next.core ∨
      move.disturbs ∧ OtherStep subject userOf view.core next.core := by
  cases move with
  | turn turn =>
      simp only [advance] at hadvance
      split at hadvance
      · rename_i hscript
        exact turn_core hscript hadvance
      · contradiction
  | proceed =>
      obtain ⟨script, hscript, rfl⟩ := Option.map_eq_some_iff.mp hadvance
      exact .inl (proceed_core hscript)
  | acquire =>
      simp only [advance] at hadvance
      split at hadvance
      · rename_i hphase hlock
        obtain rfl := Option.some.inj hadvance
        exact .inl (.acquire hphase hlock)
      · contradiction
  | rotate tokens =>
      simp only [advance] at hadvance
      split at hadvance
      · rename_i sent hphase
        split at hadvance
        · rename_i hguard
          obtain rfl := Option.some.inj hadvance
          exact .inl (.rotate hphase hguard.1 hguard.2.1 hguard.2.2)
        · contradiction
      · contradiction
  | refuse =>
      simp only [advance] at hadvance
      split at hadvance
      · rename_i sent hphase
        obtain rfl := Option.some.inj hadvance
        exact .inl (.answer hphase nofun)
      · contradiction
  | fail =>
      simp only [advance] at hadvance
      split at hadvance
      · rename_i sent hphase
        obtain rfl := Option.some.inj hadvance
        exact .inl (.answer hphase nofun)
      · contradiction
  | authenticate routine tokens =>
      refine .inr ⟨rfl, ?_⟩
      simp only [advance] at hadvance
      split at hadvance
      · split at hadvance
        · rename_i hissues
          obtain rfl := Option.some.inj hadvance
          change OtherStep _ _ _
            ⟨_, (view.setRoutine routine (.readingProfile tokens)).core.own⟩
          rw [core_setRoutine]
          exact .authenticate hissues
        · contradiction
      · contradiction

end TabView

end Steps

/-! ## The lock -/

def RefreshPhase.underLock : RefreshPhase Token Access → Bool
  | .reading | .inFlight _ | .replied _ _ | .readingBody _ _ | .storing _
  | .unlocking _ => true
  | .closing locked => locked
  | .idle | .waiting | .settled _ => false

theorem RefreshPhase.underLock_of_written
    {phase : RefreshPhase Token Access}
    (hlocked : phase.written.underLock = true) : phase.underLock = true := by
  cases phase with
  | closing locked =>
      cases locked with
      | false => contradiction
      | true => rfl
  | _ => first | rfl | contradiction

theorem RefreshPhase.written_ne_storing
    (phase : RefreshPhase Token Access) (sent : Token) :
    phase.written ≠ .storing sent := by
  cases phase with
  | closing locked => cases locked <;> simp [written]
  | _ => simp [written]

theorem RefreshPhase.written_ne_closing
    (phase : RefreshPhase Token Access) (locked : Bool) :
    phase.written ≠ .closing locked := by
  cases phase with
  | closing inner => cases inner <;> simp [written]
  | _ => simp [written]

/-- A refresh works under the lock, and while it stores or clears the session
the script of the tab is doing just that. -/
structure SessionCore.Orderly
    (shared : BrowserShared Tab Token Access User) (tab : Tab)
    (own : SessionCore Routine Token Access) : Prop where
  locked : own.refresh.underLock = true → shared.lock = some tab
  storing : ∀ sent, own.refresh = .storing sent →
    ∃ tokens ownerDone, own.writing = some (.store tokens, ownerDone)
  closing : ∀ locked, own.refresh = .closing locked →
    ∃ ownerDone, own.writing = some (.clear, ownerDone)

section Lock

variable [DecidableEq Routine] [DecidableEq Token] [DecidableEq Access]
  {subject : Access → Option User} {userOf : Token → User} {tab other : Tab}
  {view next : CoreView Tab Routine Token Access User}

omit [DecidableEq Routine] in
theorem RefreshStep.orderly
    (hstep : RefreshStep subject userOf tab view next)
    (horderly : view.own.Orderly view.shared tab) :
    next.own.Orderly next.shared tab := by
  cases hstep with
  | rest => exact horderly
  | wait => exact ⟨nofun, nofun, nofun⟩
  | closeUnlocked =>
      refine ⟨nofun, nofun, ?_⟩
      rintro locked -
      exact ⟨false, rfl⟩
  | acquire => exact ⟨fun _ => rfl, nofun, nofun⟩
  | present _ hphase =>
      refine ⟨fun _ => horderly.locked ?_, nofun, nofun⟩
      rcases hphase with hreading | ⟨sent, reply, hreplied, -⟩
      · rw [hreading]
        rfl
      · rw [hreplied]
        rfl
  | closeMissing _ hphase =>
      refine ⟨fun _ => horderly.locked ?_, nofun, fun _ _ => ⟨false, rfl⟩⟩
      rcases hphase with hreading | ⟨sent, reply, hreplied⟩
      · rw [hreading]
        rfl
      · rw [hreplied]
        rfl
  | closeRefused _ hphase =>
      refine ⟨fun _ => horderly.locked ?_, nofun, fun _ _ => ⟨false, rfl⟩⟩
      rw [hphase]
      rfl
  | rotate hphase | answer hphase | giveUp _ hphase | accept _ hphase =>
      refine ⟨fun _ => horderly.locked ?_, nofun, nofun⟩
      rw [hphase]
      rfl
  | @receive _ _ sent tokens _ hphase =>
      refine ⟨fun _ => horderly.locked ?_, ?_, nofun⟩
      · rw [hphase]
        rfl
      · rintro _ -
        exact ⟨tokens, false, rfl⟩
  | unlock | settle => exact ⟨nofun, nofun, nofun⟩
  | forget hwriting =>
      refine ⟨horderly.locked, ?_, fun _ _ => ⟨false, rfl⟩⟩
      intro sent hstoring
      obtain ⟨tokens, ownerDone, hsome⟩ := horderly.storing sent hstoring
      rw [hwriting] at hsome
      contradiction
  | @writeOwner _ _ write hwriting =>
      refine ⟨horderly.locked, ?_, ?_⟩
      · intro sent hstoring
        obtain ⟨tokens, ownerDone, hsome⟩ := horderly.storing sent hstoring
        obtain ⟨rfl, -⟩ := Prod.mk.inj (Option.some.inj (hwriting ▸ hsome))
        exact ⟨tokens, true, rfl⟩
      · intro locked hclosing
        obtain ⟨ownerDone, hsome⟩ := horderly.closing locked hclosing
        obtain ⟨rfl, -⟩ := Prod.mk.inj (Option.some.inj (hwriting ▸ hsome))
        exact ⟨true, rfl⟩
  | writeToken =>
      refine ⟨fun hlocked => ?_, fun sent hstoring => ?_,
        fun locked hclosing => ?_⟩
      · exact horderly.locked (RefreshPhase.underLock_of_written hlocked)
      · exact absurd hstoring (RefreshPhase.written_ne_storing _ sent)
      · exact absurd hclosing (RefreshPhase.written_ne_closing _ locked)

theorem OtherStep.orderly
    (hstep : OtherStep subject userOf view next)
    (horderly : view.own.Orderly view.shared tab) :
    next.own.Orderly next.shared tab := by
  have hbusy : view.own.writing = none →
      (∀ sent, view.own.refresh ≠ .storing sent) ∧
        ∀ locked, view.own.refresh ≠ .closing locked := by
    intro hwriting
    constructor
    · intro sent hstoring
      obtain ⟨tokens, ownerDone, hsome⟩ := horderly.storing sent hstoring
      rw [hwriting] at hsome
      contradiction
    · intro locked hclosing
      obtain ⟨ownerDone, hsome⟩ := horderly.closing locked hclosing
      rw [hwriting] at hsome
      contradiction
  cases hstep with
  | lose _ hphase =>
      refine ⟨fun _ => horderly.locked ?_, nofun, nofun⟩
      rcases hphase with ⟨sent, h⟩ | ⟨sent, reply, h⟩ | ⟨sent, tokens, h⟩
      all_goals
        rw [h]
        rfl
  | logout hwriting | login hwriting =>
      refine ⟨horderly.locked, ?_, ?_⟩
      · intro sent hstoring
        exact absurd hstoring ((hbusy hwriting).1 sent)
      · intro locked hclosing
        exact absurd hclosing ((hbusy hwriting).2 locked)
  | authenticate | abandon =>
      exact ⟨horderly.locked, horderly.storing, horderly.closing⟩

omit [DecidableEq Routine] in
/-- Another tab does not lose the lock. -/
theorem RefreshStep.lock_eq
    (hstep : RefreshStep subject userOf tab view next)
    (horderly : view.own.Orderly view.shared tab) (hne : other ≠ tab)
    (hlock : view.shared.lock = some other) :
    next.shared.lock = some other := by
  cases hstep with
  | acquire _ hfree =>
      rw [hfree] at hlock
      contradiction
  | unlock _ hphase =>
      have hown := horderly.locked (by rw [hphase]; rfl)
      rw [hown] at hlock
      exact absurd (Option.some.inj hlock).symm hne
  | _ => exact hlock

theorem OtherStep.lock_eq (hstep : OtherStep subject userOf view next) :
    next.shared.lock = view.shared.lock := by
  cases hstep with
  | _ => rfl

variable [DecidableEq Tab] [DecidableEq Call] [DecidableEq User]

theorem BrowserState.orderly
    {state : BrowserState Tab Call Routine Token Access User}
    (hreach : (browserMachine Call Routine subject userOf).Reachable state)
    (tab : Tab) : (state.own tab).core.Orderly state.shared tab := by
  refine Machine.agents_invariant
    (fun shared tab own => own.core.Orderly shared tab) ?_ ?_ ?_ hreach tab
  · intro state hstart tab
    refine ⟨?_, ?_, ?_⟩
    · intro hlocked
      simp only [BrowserTab.core, hstart.refresh tab] at hlocked
      contradiction
    · intro sent hstoring
      simp only [BrowserTab.core, hstart.refresh tab] at hstoring
      contradiction
    · intro locked hclosing
      simp only [BrowserTab.core, hstart.refresh tab] at hclosing
      contradiction
  · intro state tab move view hinv hadvance
    rcases TabView.advance_core hadvance with hstep | ⟨-, hstep⟩
    · exact hstep.orderly (hinv tab)
    · exact hstep.orderly (hinv tab)
  · intro state tab move view other hinv hadvance hne
    refine ⟨fun hlocked => ?_, (hinv other).storing, (hinv other).closing⟩
    have hlock := (hinv other).locked hlocked
    rcases TabView.advance_core hadvance with hstep | ⟨-, hstep⟩
    · exact hstep.lock_eq (hinv tab) hne hlock
    · exact hstep.lock_eq.trans hlock

/-- At most one refresh works under the lock. -/
theorem BrowserState.holder_unique
    {state : BrowserState Tab Call Routine Token Access User}
    (hreach : (browserMachine Call Routine subject userOf).Reachable state)
    {tab other : Tab}
    (htab : (state.own tab).refresh.underLock = true)
    (hother : (state.own other).refresh.underLock = true) : other = tab := by
  have hlock := (BrowserState.orderly hreach tab).locked htab
  have hlock' := (BrowserState.orderly hreach other).locked hother
  exact Option.some.inj (hlock'.symm.trans hlock)

end Lock

end NotifyHub
