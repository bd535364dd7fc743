import NotifyHub.FreshTokens
import Mathlib.Tactic

/-!
# A refresh token is presented once

Without logins, logouts and lost responses the stored token changes only under
the lock.  A refresh therefore finds stored what it has sent, and a token that
has been rotated is stored only as long as the refresh which has presented it
has its answer in hand.
-/

namespace NotifyHub

variable {Tab Call Routine Token Access User : Type}

/-- The refresh has a new pair for the token that it has presented. -/
def RefreshPhase.Carries (phase : RefreshPhase Token Access) (sent : Token) :
    Prop :=
  (∃ tokens, phase = .replied sent (.pair tokens)) ∨
    (∃ tokens, phase = .readingBody sent tokens) ∨ phase = .storing sent

theorem RefreshPhase.Carries.underLock
    {phase : RefreshPhase Token Access} {sent : Token}
    (hcarries : phase.Carries sent) : phase.underLock = true := by
  rcases hcarries with ⟨tokens, rfl⟩ | ⟨tokens, rfl⟩ | rfl
  · rfl
  · rfl
  · rfl

theorem RefreshPhase.underLock_of_sent
    {phase : RefreshPhase Token Access} {sent : Token}
    (hsent : phase.sent = some sent) : phase.underLock = true := by
  cases phase with
  | inFlight | replied | readingBody | storing => rfl
  | _ => contradiction

/-- What a tab relies on as long as nobody logs in or out: the token which its
refresh has sent is stored, a session is stored by a refresh only, and outside
the lock there is nothing left to clear. -/
structure SessionCore.Settled
    (stored : Option Token) (own : SessionCore Routine Token Access) :
    Prop where
  sent : ∀ token, own.refresh.sent = some token → stored = some token
  stores : ∀ tokens ownerDone, own.writing = some (.store tokens, ownerDone) →
    ∃ sent, own.refresh = .storing sent
  clears : ∀ ownerDone, own.writing = some (.clear, ownerDone) →
    own.refresh ≠ .closing true → stored = none

section Steps

variable [DecidableEq Token] [DecidableEq Access]
  {subject : Access → Option User} {userOf : Token → User} {tab : Tab}
  {view next : CoreView Tab Routine Token Access User}
  {other : SessionCore Routine Token Access}

omit [DecidableEq Token] [DecidableEq Access] in
/-- A refresh which is not writing goes on, or another script starts. -/
theorem SessionCore.Settled.goto
    {own : SessionCore Routine Token Access} {stored : Option Token}
    (hsettled : own.Settled stored) {phase : RefreshPhase Token Access}
    (hstoring : ∀ sent, own.refresh ≠ .storing sent)
    (hclosing : own.refresh ≠ .closing true)
    (hsent : ∀ token, phase.sent = some token → stored = some token) :
    SessionCore.Settled stored { own with refresh := phase } := by
  refine ⟨hsent, ?_, ?_⟩
  · intro tokens ownerDone hwriting
    obtain ⟨sent, hphase⟩ := hsettled.stores tokens ownerDone hwriting
    exact absurd hphase (hstoring sent)
  · exact fun ownerDone hwriting _ =>
      hsettled.clears ownerDone hwriting hclosing

theorem RefreshStep.settled
    (hstep : RefreshStep subject userOf tab view next)
    (hsettled : view.own.Settled view.shared.storage.refreshToken) :
    next.own.Settled next.shared.storage.refreshToken := by
  cases hstep with
  | rest => exact hsettled
  | wait hphase | acquire hphase | unlock _ hphase | settle _ hphase =>
      refine hsettled.goto ?_ ?_ nofun
      · simp [hphase]
      · simp [hphase]
  | giveUp _ hphase =>
      refine hsettled.goto ?_ ?_ nofun
      · simp [hphase]
      · simp [hphase]
  | closeUnlocked _ _ hstored =>
      exact ⟨nofun, nofun, fun _ _ _ => hstored⟩
  | closeMissing | closeRefused =>
      exact ⟨nofun, nofun, fun _ _ h => absurd rfl h⟩
  | present _ hphase hstored =>
      refine hsettled.goto ?_ ?_ ?_
      · rcases hphase with h | ⟨sent, reply, h, -⟩ <;> simp [h]
      · rcases hphase with h | ⟨sent, reply, h, -⟩ <;> simp [h]
      · rintro token ⟨⟩
        exact hstored
  | rotate hphase | answer hphase =>
      refine hsettled.goto ?_ ?_ ?_
      · simp [hphase]
      · simp [hphase]
      · rintro token ⟨⟩
        exact hsettled.sent _ (by rw [hphase]; rfl)
  | accept _ hphase =>
      refine hsettled.goto ?_ ?_ ?_
      · simp [hphase]
      · simp [hphase]
      · rintro token ⟨⟩
        exact hsettled.sent _ (by rw [hphase]; rfl)
  | receive _ hphase =>
      refine ⟨?_, fun _ _ _ => ⟨_, rfl⟩, nofun⟩
      rintro token ⟨⟩
      exact hsettled.sent _ (by rw [hphase]; rfl)
  | forget _ hstored => exact ⟨hsettled.sent, nofun, fun _ _ _ => hstored⟩
  | writeOwner hwriting =>
      refine ⟨hsettled.sent, ?_, ?_⟩
      · rintro tokens ownerDone ⟨⟩
        exact hsettled.stores tokens false hwriting
      · rintro ownerDone ⟨⟩ hclosing
        exact hsettled.clears false hwriting hclosing
  | @writeToken shared own write hwriting =>
      refine ⟨?_, nofun, nofun⟩
      intro token hsent
      exfalso
      have hstored := hsettled.sent token (RefreshPhase.sent_of_written hsent)
      cases write with
      | store tokens =>
          obtain ⟨sent, hphase⟩ := hsettled.stores tokens true hwriting
          simp only [show own.refresh = .storing sent from hphase,
            RefreshPhase.written] at hsent
          contradiction
      | clear =>
          by_cases hclosing : own.refresh = .closing true
          · simp only [hclosing, RefreshPhase.written] at hsent
            contradiction
          · have hnone := hsettled.clears true hwriting hclosing
            rw [hnone] at hstored
            contradiction

/-- What a step of one tab changes in the storage does not concern another
one. -/
theorem RefreshStep.settled_other
    (hstep : RefreshStep subject userOf tab view next)
    (hsettled : view.own.Settled view.shared.storage.refreshToken)
    (hother : other.Settled view.shared.storage.refreshToken)
    (halone : view.own.refresh.underLock = true →
      other.refresh.underLock = true → False) :
    other.Settled next.shared.storage.refreshToken := by
  cases hstep with
  | @writeToken shared own write hwriting =>
      cases write with
      | store tokens =>
          obtain ⟨sent, hphase⟩ := hsettled.stores tokens true hwriting
          have hphase' : own.refresh = .storing sent := hphase
          have hstored := hsettled.sent sent (by rw [hphase]; rfl)
          refine ⟨?_, hother.stores, ?_⟩
          · intro token hsent
            refine (halone ?_ (RefreshPhase.underLock_of_sent hsent)).elim
            rw [hphase]
            rfl
          · intro ownerDone hclear hclosing
            have hnone := hother.clears ownerDone hclear hclosing
            rw [hstored] at hnone
            contradiction
      | clear =>
          refine ⟨?_, hother.stores, fun _ _ _ => rfl⟩
          intro token hsent
          by_cases hclosing : own.refresh = .closing true
          · refine (halone ?_ (RefreshPhase.underLock_of_sent hsent)).elim
            simp only [hclosing]
            rfl
          · have hstored := hother.sent token hsent
            have hnone := hsettled.clears true hwriting hclosing
            rw [hnone] at hstored
            contradiction
  | _ => exact hother

omit [DecidableEq Token] [DecidableEq Access] in
theorem RefreshPhase.not_carries
    {phase : RefreshPhase Token Access} {token : Token}
    (hpair : phase.pair = none) (hstoring : ∀ sent, phase ≠ .storing sent) :
    ¬ phase.Carries token := by
  rintro (⟨tokens, rfl⟩ | ⟨tokens, rfl⟩ | rfl)
  · contradiction
  · contradiction
  · exact hstoring token rfl

/-- A stored token that has been rotated is in the hands of the tab that
moves, or it was in the hands of another one. -/
theorem RefreshStep.rotated
    (hstep : RefreshStep subject userOf tab view next)
    (hsettled : view.own.Settled view.shared.storage.refreshToken)
    (hnew : ∀ tokens, view.own.writing = some (.store tokens, true) →
      tokens.refresh ∉ view.shared.rotated)
    {token : Token}
    (hstored : next.shared.storage.refreshToken = some token)
    (hrotated : token ∈ next.shared.rotated) :
    next.own.refresh.Carries token ∨
      view.shared.storage.refreshToken = some token ∧
        token ∈ view.shared.rotated ∧ ¬ view.own.refresh.Carries token := by
  cases hstep with
  | rest =>
      by_cases hcarries : view.own.refresh.Carries token
      · exact .inl hcarries
      · exact .inr ⟨hstored, hrotated, hcarries⟩
  | @forget shared own | @writeOwner shared own =>
      by_cases hcarries : own.refresh.Carries token
      · exact .inl hcarries
      · exact .inr ⟨hstored, hrotated, hcarries⟩
  | wait hphase | acquire hphase | unlock _ hphase | settle _ hphase
  | giveUp _ hphase | closeUnlocked _ hphase | closeRefused _ hphase
  | answer hphase =>
      refine .inr ⟨hstored, hrotated, ?_⟩
      apply RefreshPhase.not_carries
      · rw [hphase]
        rfl
      · simp [hphase]
  | closeMissing _ _ hnone =>
      rw [hnone] at hstored
      contradiction
  | @present shared own current _ hphase hread =>
      refine .inr ⟨hstored, hrotated, ?_⟩
      obtain rfl := Option.some.inj (hread.symm.trans hstored)
      rcases hphase with h | ⟨sent, reply, h, hne⟩
      · apply RefreshPhase.not_carries
        · rw [h]
          rfl
        · simp [h]
      · rw [h]
        rintro (⟨tokens, hsame⟩ | ⟨tokens, hsame⟩ | hsame)
        · exact hne (RefreshPhase.replied.inj hsame).1.symm
        · contradiction
        · contradiction
  | @rotate shared own sent tokens hphase =>
      have hsent := hsettled.sent sent (by rw [hphase]; rfl)
      obtain rfl := Option.some.inj (hsent.symm.trans hstored)
      exact .inl (.inl ⟨tokens, rfl⟩)
  | @accept shared own sent tokens _ hphase hread =>
      obtain rfl := Option.some.inj (hread.symm.trans hstored)
      exact .inl (.inr (.inl ⟨tokens, rfl⟩))
  | @receive shared own sent tokens _ hphase =>
      have hsent := hsettled.sent sent (by rw [hphase]; rfl)
      obtain rfl := Option.some.inj (hsent.symm.trans hstored)
      exact .inl (.inr (.inr rfl))
  | @writeToken shared own write hwriting =>
      cases write with
      | store tokens =>
          obtain rfl := Option.some.inj hstored
          exact absurd hrotated (hnew tokens hwriting)
      | clear => contradiction

end Steps

/-! ## Runs without logins, logouts and lost responses -/

section Browser

variable [DecidableEq Tab] [DecidableEq Call] [DecidableEq Routine]
  [DecidableEq Token] [DecidableEq Access] [DecidableEq User]
  {subject : Access → Option User} {userOf : Token → User}
  {state next : BrowserState Tab Call Routine Token Access User}

/-- The step is none of a login or a logout, and loses no response. -/
def Undisturbing (action : Tab × BrowserMove Call Routine Token Access) :
    Prop :=
  action.2.disturbs = false

instance decidableUndisturbing
    (action : Tab × BrowserMove Call Routine Token Access) :
    Decidable (Undisturbing action) :=
  inferInstanceAs (Decidable (_ = _))

structure BrowserState.Settled
    (state : BrowserState Tab Call Routine Token Access User) : Prop where
  tab : ∀ tab, (state.own tab).core.Settled state.shared.storage.refreshToken
  rotated : ∀ token, state.shared.storage.refreshToken = some token →
    token ∈ state.shared.rotated →
      ∃ tab, (state.own tab).refresh.Carries token

omit [DecidableEq Tab] [DecidableEq Call] [DecidableEq Routine]
  [DecidableEq Token] [DecidableEq Access] [DecidableEq User] in
theorem BrowserState.Start.settled (hstart : state.Start) :
    BrowserState.Settled state := by
  have hphase : ∀ tab, (state.own tab).core.refresh = .idle := hstart.refresh
  have hwriting : ∀ tab, (state.own tab).core.writing = none := by
    intro tab
    simp [BrowserTab.core, hstart.script tab]
  refine ⟨fun tab => ⟨?_, ?_, ?_⟩, ?_⟩
  · intro token hsent
    rw [hphase tab] at hsent
    contradiction
  · intro tokens ownerDone h
    rw [hwriting tab] at h
    contradiction
  · intro ownerDone h
    rw [hwriting tab] at h
    contradiction
  · exact fun token hstored hrotated =>
      absurd hrotated (hstart.stored token hstored).2

theorem BrowserState.Settled.step
    (hsettled : BrowserState.Settled state)
    (hreach : (browserMachine Call Routine subject userOf).Reachable state)
    {action : Tab × BrowserMove Call Routine Token Access}
    (hquiet : Undisturbing action)
    (hstep : (browserMachine Call Routine subject userOf).step state action =
      some next) :
    BrowserState.Settled next := by
  obtain ⟨tab, move⟩ := action
  obtain ⟨view, hadvance, rfl⟩ := Machine.agents_step hstep
  have hcore : RefreshStep subject userOf tab (TabView.core (state.view tab))
      (TabView.core view) := by
    rcases TabView.advance_core hadvance with hcore | ⟨hdisturbs, -⟩
    · exact hcore
    · rw [hquiet] at hdisturbs
      contradiction
  refine ⟨?_, ?_⟩
  · refine Agents.forall_put
      (fun _ (own : BrowserTab Call Routine Token Access) =>
        own.core.Settled view.shared.storage.refreshToken) ?_ ?_
    · exact hcore.settled (hsettled.tab tab)
    · intro other hne
      refine hcore.settled_other (hsettled.tab tab) (hsettled.tab other) ?_
      exact fun htab hother =>
        hne (BrowserState.holder_unique hreach htab hother)
  · intro token hstored hrotated
    have hnew : ∀ tokens,
        (state.own tab).core.writing = some (.store tokens, true) →
          tokens.refresh ∉ state.shared.rotated :=
      fun tokens hwriting hmem =>
        BrowserState.stored_ne_used hreach hwriting (.inl hmem)
    rcases hcore.rotated (hsettled.tab tab) hnew hstored hrotated with
      hcarries | ⟨hbefore, hold, hnone⟩
    · refine ⟨tab, ?_⟩
      rw [Agents.put_own_self]
      exact hcarries
    · obtain ⟨other, hcarries⟩ := hsettled.rotated token hbefore hold
      have hne : other ≠ tab := by
        rintro rfl
        exact hnone hcarries
      refine ⟨other, ?_⟩
      rw [Agents.put_own_of_ne _ hne]
      exact hcarries

theorem BrowserState.settled
    (hreach : (browserMachine Call Routine subject userOf).ReachableWhere
      (fun _ => Undisturbing) state) :
    BrowserState.Settled state := by
  induction hreach with
  | initial hstart => exact BrowserState.Start.settled hstart
  | step hreach hquiet hstep ih =>
      exact ih.step hreach.reachable hquiet hstep

/-- The token of a request to the refresh endpoint has not been rotated. -/
theorem BrowserState.presented_once
    (hreach : (browserMachine Call Routine subject userOf).ReachableWhere
      (fun _ => Undisturbing) state)
    {tab : Tab} {token : Token}
    (hpresented : (state.own tab).refresh = .inFlight token) :
    token ∉ state.shared.rotated := by
  have hsettled := BrowserState.settled hreach
  intro hrotated
  have hstored := (hsettled.tab tab).sent token
    (by simp [BrowserTab.core, hpresented, RefreshPhase.sent])
  obtain ⟨other, hcarries⟩ := hsettled.rotated token hstored hrotated
  have hsame : other = tab :=
    BrowserState.holder_unique hreach.reachable
      (by rw [hpresented]; rfl) hcarries.underLock
  subst hsame
  rw [hpresented] at hcarries
  exact RefreshPhase.not_carries rfl (fun _ h => by cases h) hcarries

end Browser

end NotifyHub
