import NotifyHub.FreshTokens
import Mathlib.Tactic

/-!
# Whose session a refresh overwrites

A refresh compares the stored token with the one it has sent once the response
is there, and then writes.  Before it stores a new pair it waits for the body
of the response, and clearing the session takes two accesses: in between, a
login or a logout of another tab, which takes no lock, can write the session
that the refresh is about to overwrite.

What a run remembers here is, for every tab, the last write of the token by
another tab since the refresh of the tab has read the token it presented.
-/

namespace NotifyHub

variable {Tab Call Routine Token Access User : Type}

inductive SessionChange
  | stored
  | cleared
  deriving DecidableEq, Repr

/-- Two clears leave the same behind, in any order. -/
def SessionChange.clashes : SessionChange → SessionChange → Bool
  | .cleared, .cleared => false
  | _, _ => true

def SessionWrite.kind : SessionWrite Token Access → SessionChange
  | .store _ => .stored
  | .clear => .cleared

/-- What the refresh is going to write; it does not read the token again. -/
def RefreshPhase.decided : RefreshPhase Token Access → Option SessionChange
  | .readingBody _ _ | .storing _ => some .stored
  | .closing _ => some .cleared
  | _ => none

/-- The running script is the refresh, which writes the session. -/
def RefreshPhase.finishing : RefreshPhase Token Access → Bool
  | .storing _ | .closing _ => true
  | _ => false

/-- The script has written the owner and not yet the token. -/
def SessionCore.halfWritten
    (own : SessionCore Routine Token Access) :
    Option (SessionWrite Token Access) :=
  match own.writing with
  | some (write, true) => some write
  | _ => none

inductive SessionEvent (Token Access : Type)
  | presented
  | decided (kind : SessionChange)
  | wrote (write : SessionWrite Token Access) (ownerDone : Bool)

/-- What a step of the refresh of a tab means for the stored session. -/
def RefreshPhase.event (phase next : RefreshPhase Token Access) :
    Option (SessionEvent Token Access) :=
  match phase.decided, next.decided with
  | none, some kind => some (.decided kind)
  | _, _ =>
      match phase, next with
      | .inFlight _, _ => none
      | _, .inFlight _ => some .presented
      | _, _ => none

def SessionCore.event
    (own next : SessionCore Routine Token Access) :
    Option (SessionEvent Token Access) :=
  match own.writing, next.writing with
  | some (write, false), some (_, true) => some (.wrote write false)
  | some (write, true), none => some (.wrote write true)
  | _, _ => own.refresh.event next.refresh

theorem RefreshPhase.event_self (phase : RefreshPhase Token Access) :
    phase.event phase = none := by
  cases phase with
  | _ => rfl

theorem SessionCore.event_of_writing_eq
    {own next : SessionCore Routine Token Access}
    (hwriting : next.writing = own.writing) :
    own.event next = own.refresh.event next.refresh := by
  unfold event
  rw [hwriting]
  rcases own.writing with _ | ⟨write, _ | _⟩
  · rfl
  · rfl
  · rfl

theorem SessionCore.event_of_writing_none
    {own next : SessionCore Routine Token Access}
    (hwriting : own.writing = none) :
    own.event next = own.refresh.event next.refresh := by
  unfold event
  rw [hwriting]

/-- The refresh has sent a token and will compare it with the stored one. -/
def RefreshPhase.Awaits (phase : RefreshPhase Token Access) (sent : Token) :
    Prop :=
  phase = .inFlight sent ∨ ∃ reply, phase = .replied sent reply

/-- What a step with a given event does. -/
inductive SessionEffect
    (view next : CoreView Tab Routine Token Access User) :
    Option (SessionEvent Token Access) → Prop
  | quiet
      (hstored : next.shared.storage.refreshToken =
        view.shared.storage.refreshToken)
      (hawaits : ∀ sent,
        next.own.refresh.Awaits sent → view.own.refresh.Awaits sent)
      (hdecided : ∀ kind, next.own.refresh.decided = some kind →
        view.own.refresh.decided = some kind)
      (hhalf : ∀ write, next.own.halfWritten = some write →
        view.own.halfWritten = some write) :
      SessionEffect view next none
  | presented {token : Token}
      (hstored : next.shared.storage.refreshToken =
        view.shared.storage.refreshToken)
      (hread : view.shared.storage.refreshToken = some token)
      (hphase : next.own.refresh = .inFlight token)
      (hwriting : next.own.writing = none) :
      SessionEffect view next (some .presented)
  | decided {kind : SessionChange}
      (hstored : next.shared.storage.refreshToken =
        view.shared.storage.refreshToken)
      (hbefore : view.own.refresh.decided = none)
      (hdecided : next.own.refresh.decided = some kind)
      (hcause : kind = .cleared ∧ view.shared.storage.refreshToken = none ∨
        ∃ sent, view.own.refresh.Awaits sent ∧
          view.shared.storage.refreshToken = some sent)
      (hhalf : next.own.halfWritten = none) :
      SessionEffect view next (some (.decided kind))
  | wroteOwner {write : SessionWrite Token Access}
      (hstored : next.shared.storage.refreshToken =
        view.shared.storage.refreshToken)
      (hwriting : view.own.writing = some (write, false))
      (hnext : next.own.writing = some (write, true))
      (hphase : next.own.refresh = view.own.refresh) :
      SessionEffect view next (some (.wrote write false))
  | wroteToken {write : SessionWrite Token Access}
      (hstored : next.shared.storage.refreshToken = write.refreshToken)
      (hwriting : view.own.writing = some (write, true))
      (hnext : next.own.writing = none)
      (hphase : next.own.refresh = view.own.refresh.written) :
      SessionEffect view next (some (.wrote write true))

section Effects

variable [DecidableEq Token] [DecidableEq Access]
  {subject : Access → Option User} {userOf : Token → User} {tab : Tab}
  {view next : CoreView Tab Routine Token Access User}

omit [DecidableEq Token] [DecidableEq Access] in
theorem SessionEffect.of_writing_eq
    {event : Option (SessionEvent Token Access)}
    (hwriting : next.own.writing = view.own.writing)
    (hevent : view.own.refresh.event next.own.refresh = event)
    (heffect : SessionEffect view next event) :
    SessionEffect view next (view.own.event next.own) := by
  rw [SessionCore.event_of_writing_eq hwriting, hevent]
  exact heffect

omit [DecidableEq Token] [DecidableEq Access] in
theorem SessionEffect.of_writing_none
    {event : Option (SessionEvent Token Access)}
    (hwriting : view.own.writing = none)
    (hevent : view.own.refresh.event next.own.refresh = event)
    (heffect : SessionEffect view next event) :
    SessionEffect view next (view.own.event next.own) := by
  rw [SessionCore.event_of_writing_none hwriting, hevent]
  exact heffect

theorem RefreshStep.effect
    (hstep : RefreshStep subject userOf tab view next) :
    SessionEffect view next (view.own.event next.own) := by
  cases hstep with
  | rest =>
      exact .of_writing_eq rfl (RefreshPhase.event_self _)
        (.quiet rfl (fun _ h => h) (fun _ h => h) (fun _ h => h))
  | wait hphase | acquire hphase | unlock _ hphase | settle _ hphase
  | giveUp _ hphase =>
      refine .of_writing_eq rfl (by rw [hphase]; rfl)
        (.quiet rfl ?_ nofun (fun _ h => h))
      rintro sent (h | ⟨reply, h⟩)
      · contradiction
      · contradiction
  | rotate hphase | answer hphase =>
      refine .of_writing_eq rfl (by rw [hphase]; rfl)
        (.quiet rfl ?_ nofun (fun _ h => h))
      rintro sent (h | ⟨reply, h⟩)
      · contradiction
      · obtain ⟨rfl, -⟩ := RefreshPhase.replied.inj h
        exact .inl hphase
  | receive hwriting hphase =>
      refine .of_writing_none hwriting (by rw [hphase]; rfl)
        (.quiet rfl ?_ ?_ nofun)
      · rintro sent (h | ⟨reply, h⟩)
        · contradiction
        · contradiction
      · intro kind h
        rw [hphase]
        exact h
  | forget hwriting =>
      exact .of_writing_none hwriting (RefreshPhase.event_self _)
        (.quiet rfl (fun _ h => h) (fun _ h => h) nofun)
  | present hwriting hphase hstored =>
      refine .of_writing_none hwriting ?_ (.presented rfl hstored rfl hwriting)
      rcases hphase with h | ⟨sent, reply, h, -⟩
      · rw [h]
        rfl
      · rw [h]
        rfl
  | closeUnlocked hwriting hphase hstored =>
      exact .of_writing_none hwriting (by rw [hphase]; rfl)
        (.decided rfl (by rw [hphase]; rfl) rfl (.inl ⟨rfl, hstored⟩) rfl)
  | closeMissing hwriting hphase hstored =>
      rcases hphase with h | ⟨sent, reply, h⟩
      · exact .of_writing_none hwriting (by rw [h]; rfl)
          (.decided rfl (by rw [h]; rfl) rfl (.inl ⟨rfl, hstored⟩) rfl)
      · exact .of_writing_none hwriting (by rw [h]; rfl)
          (.decided rfl (by rw [h]; rfl) rfl (.inl ⟨rfl, hstored⟩) rfl)
  | closeRefused hwriting hphase hstored =>
      exact .of_writing_none hwriting (by rw [hphase]; rfl)
        (.decided rfl (by rw [hphase]; rfl) rfl
          (.inr ⟨_, .inr ⟨_, hphase⟩, hstored⟩) rfl)
  | accept hwriting hphase hstored =>
      refine .of_writing_none hwriting (by rw [hphase]; rfl)
        (.decided rfl (by rw [hphase]; rfl) rfl
          (.inr ⟨_, .inr ⟨_, hphase⟩, hstored⟩) ?_)
      simp [SessionCore.halfWritten, hwriting]
  | @writeOwner _ own write hwriting =>
      have hevent : own.event { own with writing := some (write, true) } =
          some (.wrote write false) := by
        simp [SessionCore.event, hwriting]
      rw [hevent]
      exact .wroteOwner rfl hwriting rfl rfl
  | @writeToken _ own write hwriting =>
      have hevent :
          own.event
              { own with refresh := own.refresh.written, writing := none } =
            some (.wrote write true) := by
        simp [SessionCore.event, hwriting]
      rw [hevent]
      exact .wroteToken rfl hwriting rfl rfl

theorem OtherStep.effect [DecidableEq Routine]
    (hstep : OtherStep subject userOf view next) :
    SessionEffect view next (view.own.event next.own) := by
  cases hstep with
  | lose hwriting hphase =>
      refine .of_writing_eq rfl ?_ (.quiet rfl ?_ nofun (fun _ h => h))
      · rcases hphase with ⟨sent, h⟩ | ⟨sent, reply, h⟩ | ⟨sent, tokens, h⟩
        all_goals
          rw [h]
          rfl
      · rintro sent (h | ⟨reply, h⟩)
        · contradiction
        · contradiction
  | logout hwriting | login hwriting =>
      exact .of_writing_none hwriting (RefreshPhase.event_self _)
        (.quiet rfl (fun _ h => h) (fun _ h => h) nofun)
  | authenticate | abandon =>
      exact .of_writing_eq rfl (RefreshPhase.event_self _)
        (.quiet rfl (fun _ h => h) (fun _ h => h) (fun _ h => h))

end Effects

/-! ## What a run remembers -/

/-- What a tab remembers after a step of its own. -/
def SessionEvent.seenBySelf
    (seen : Option SessionChange) :
    Option (SessionEvent Token Access) → Option SessionChange
  | some .presented | some (.wrote _ true) => none
  | _ => seen

/-- What it remembers after a step of another tab. -/
def SessionEvent.seenByOther
    (seen : Option SessionChange) :
    Option (SessionEvent Token Access) → Option SessionChange
  | some (.wrote write true) => some write.kind
  | _ => seen

/-- What happens in another tab does not clash with a write which the refresh
of this one is going to make, nor with one which this tab has begun. -/
def SessionCore.Undisturbed (own : SessionCore Routine Token Access) :
    Option (SessionEvent Token Access) → Prop
  | some (.wrote write _) =>
      ∀ kind ∈ own.refresh.decided, kind.clashes write.kind = false
  | some (.decided kind) =>
      ∀ half ∈ own.halfWritten, kind.clashes half.kind = false
  | some .presented | none => True

instance decidableUndisturbedBy (own : SessionCore Routine Token Access) :
    (event : Option (SessionEvent Token Access)) →
      Decidable (own.Undisturbed event)
  | some (.wrote write _) =>
      inferInstanceAs (Decidable (∀ kind ∈ own.refresh.decided,
        kind.clashes write.kind = false))
  | some (.decided kind) =>
      inferInstanceAs (Decidable (∀ half ∈ own.halfWritten,
        kind.clashes half.kind = false))
  | some .presented => .isTrue trivial
  | none => .isTrue trivial

/-- The token which the refresh has sent is no longer stored once another tab
has written, and what the refresh is going to write does not clash with what
another tab has written. -/
structure SessionCore.Guarded
    (stored : Option Token) (seen : Option SessionChange)
    (own : SessionCore Routine Token Access) : Prop where
  kept : seen = some .stored → stored ≠ none
  awaits : ∀ sent, own.refresh.Awaits sent →
    seen ≠ none → stored ≠ some sent
  decided : ∀ kind ∈ own.refresh.decided, ∀ change ∈ seen,
    kind.clashes change = false

/-- What one tab is going to write does not clash with what the other one has
begun to write. -/
def SessionCore.Apart (own other : SessionCore Routine Token Access) : Prop :=
  ∀ kind ∈ own.refresh.decided, ∀ half ∈ other.halfWritten,
    kind.clashes half.kind = false

theorem RefreshPhase.decided_of_written
    {phase : RefreshPhase Token Access} {kind : SessionChange}
    (hdecided : phase.written.decided = some kind) :
    phase.decided = some kind := by
  cases phase with
  | closing locked =>
      cases locked with
      | _ => contradiction
  | storing token => contradiction
  | _ => exact hdecided

theorem RefreshPhase.Awaits.sent
    {phase : RefreshPhase Token Access} {token : Token}
    (hawaits : phase.Awaits token) : phase.sent = some token := by
  rcases hawaits with rfl | ⟨reply, rfl⟩
  · rfl
  · rfl

namespace SessionEffect

variable {view next : CoreView Tab Routine Token Access User}
  {event : Option (SessionEvent Token Access)}
  {other : SessionCore Routine Token Access} {seen : Option SessionChange}

/-- The tab that moves: it decides to write only while the stored token is the
one it has sent, or when there is none. -/
theorem guarded_self
    (heffect : SessionEffect view next event)
    (hguarded :
      view.own.Guarded view.shared.storage.refreshToken seen) :
    next.own.Guarded next.shared.storage.refreshToken
      (SessionEvent.seenBySelf seen event) := by
  cases heffect with
  | quiet hstored hawaits hdecided =>
      rw [hstored]
      refine ⟨hguarded.kept, ?_, ?_⟩
      · exact fun sent h => hguarded.awaits sent (hawaits sent h)
      · exact fun kind h => hguarded.decided kind (hdecided kind h)
  | presented => exact ⟨nofun, fun _ _ h => absurd rfl h, nofun⟩
  | @decided kind hstored hbefore hdecided hcause hhalf =>
      rw [hstored]
      refine ⟨hguarded.kept, ?_, ?_⟩
      · rintro sent (h | ⟨reply, h⟩)
        · rw [h] at hdecided
          contradiction
        · rw [h] at hdecided
          contradiction
      · intro kind' hkind change hchange
        obtain rfl : kind = kind' := Option.some.inj (hdecided.symm.trans hkind)
        rcases hcause with ⟨rfl, hnone⟩ | ⟨sent, hawaits, hsame⟩
        · cases change with
          | stored => exact absurd hnone (hguarded.kept hchange)
          | cleared => rfl
        · have hseen : seen ≠ none := Option.ne_none_iff_exists'.mpr ⟨_, hchange⟩
          exact absurd hsame (hguarded.awaits sent hawaits hseen)
  | wroteOwner hstored hwriting hnext hphase =>
      rw [hstored]
      refine ⟨hguarded.kept, ?_, ?_⟩
      · rw [hphase]
        exact hguarded.awaits
      · rw [hphase]
        exact hguarded.decided
  | wroteToken => exact ⟨nofun, fun _ _ h => absurd rfl h, nofun⟩

/-- The other tabs: a token which is stored is not one that they have sent. -/
theorem guarded_other
    (heffect : SessionEffect view next event)
    (hguarded : other.Guarded view.shared.storage.refreshToken seen)
    (hundisturbed : other.Undisturbed event)
    (hnew : ∀ tokens, view.own.writing = some (.store tokens, true) →
      ∀ sent, other.refresh.Awaits sent → tokens.refresh ≠ sent) :
    other.Guarded next.shared.storage.refreshToken
      (SessionEvent.seenByOther seen event) := by
  cases heffect with
  | quiet hstored | presented hstored | decided hstored | wroteOwner hstored =>
      rw [hstored]
      exact hguarded
  | @wroteToken write hstored hwriting hnext hphase =>
      rw [hstored]
      refine ⟨?_, ?_, ?_⟩
      · intro hseen
        cases write with
        | store tokens => nofun
        | clear => simp [SessionEvent.seenByOther, SessionWrite.kind] at hseen
      · intro sent hawaits _
        cases write with
        | store tokens =>
            intro hsame
            exact hnew tokens hwriting sent hawaits (Option.some.inj hsame)
        | clear => nofun
      · rintro kind hkind change ⟨⟩
        exact hundisturbed kind hkind

theorem apart_self
    (heffect : SessionEffect view next event)
    (hapart : view.own.Apart other)
    (hundisturbed : other.Undisturbed event) : next.own.Apart other := by
  intro kind hkind
  cases heffect with
  | quiet _ _ hdecided => exact hapart kind (hdecided kind hkind)
  | presented _ _ hphase =>
      rw [hphase] at hkind
      contradiction
  | decided _ _ hdecided =>
      obtain rfl := Option.some.inj (hdecided.symm.trans hkind)
      exact hundisturbed
  | wroteOwner _ _ _ hphase =>
      rw [hphase] at hkind
      exact hapart kind hkind
  | wroteToken _ _ _ hphase =>
      rw [hphase] at hkind
      exact hapart kind (RefreshPhase.decided_of_written hkind)

theorem apart_other
    (heffect : SessionEffect view next event)
    (hapart : other.Apart view.own)
    (hundisturbed : other.Undisturbed event) : other.Apart next.own := by
  intro kind hkind half hhalf
  cases heffect with
  | quiet _ _ _ hbefore => exact hapart kind hkind half (hbefore half hhalf)
  | presented _ _ _ hwriting =>
      simp [SessionCore.halfWritten, hwriting] at hhalf
  | decided _ _ _ _ hnone =>
      rw [hnone] at hhalf
      contradiction
  | wroteOwner _ _ hnext =>
      simp only [SessionCore.halfWritten, hnext, Option.mem_def,
        Option.some.injEq] at hhalf
      exact hhalf ▸ hundisturbed kind hkind
  | wroteToken _ _ hnext =>
      simp [SessionCore.halfWritten, hnext] at hhalf

end SessionEffect

section Browser

variable [DecidableEq Tab] [DecidableEq Call] [DecidableEq Routine]
  [DecidableEq Token] [DecidableEq Access] [DecidableEq User]

def BrowserState.event
    (subject : Access → Option User) (userOf : Token → User)
    (state : BrowserState Tab Call Routine Token Access User)
    (action : Tab × BrowserMove Call Routine Token Access) :
    Option (SessionEvent Token Access) :=
  (TabView.advance subject userOf action.1 (state.view action.1)
    action.2).bind fun next => (state.own action.1).core.event next.own.core

/-- The last write of the token by another tab, since the refresh of a tab has
read the token which it presented. -/
def rememberWrites
    (subject : Access → Option User) (userOf : Token → User)
    (state : BrowserState Tab Call Routine Token Access User)
    (action : Tab × BrowserMove Call Routine Token Access)
    (seen : Tab → Option SessionChange) (tab : Tab) : Option SessionChange :=
  let event := BrowserState.event subject userOf state action
  if tab = action.1 then SessionEvent.seenBySelf (seen tab) event
  else SessionEvent.seenByOther (seen tab) event

/-- The browser together with what its tabs remember. -/
abbrev watchedBrowser
    (Tab Call Routine : Type) [DecidableEq Tab] [DecidableEq Call]
    [DecidableEq Routine]
    (subject : Access → Option User) (userOf : Token → User) :
    Machine
      (BrowserState Tab Call Routine Token Access User ×
        (Tab → Option SessionChange))
      (Tab × BrowserMove Call Routine Token Access) :=
  (browserMachine Call Routine subject userOf).observed
    (fun _ _ => none) (rememberWrites subject userOf)

/-- While the refresh of a tab is going to write the session, no other tab
makes a write that clashes with it, and it does not decide to while another
tab is between two such writes.  Two refreshes under the lock are left out. -/
def BrowserState.Calm
    (subject : Access → Option User) (userOf : Token → User)
    (state : BrowserState Tab Call Routine Token Access User)
    (action : Tab × BrowserMove Call Routine Token Access) : Prop :=
  ∀ other, other ≠ action.1 →
    ((state.own action.1).refresh.underLock &&
        (state.own other).refresh.underLock) = false →
      (state.own other).core.Undisturbed
        (BrowserState.event subject userOf state action)

instance decidableCalm [Fintype Tab]
    (subject : Access → Option User) (userOf : Token → User)
    (state : BrowserState Tab Call Routine Token Access User)
    (action : Tab × BrowserMove Call Routine Token Access) :
    Decidable (BrowserState.Calm subject userOf state action) :=
  inferInstanceAs (Decidable (∀ other, other ≠ action.1 →
    ((state.own action.1).refresh.underLock &&
        (state.own other).refresh.underLock) = false →
      (state.own other).core.Undisturbed
        (BrowserState.event subject userOf state action)))

/-- Whenever a refresh is about to write the session, it overwrites or deletes
nothing that another tab has stored, and brings nothing back that another tab
has cleared, since it read the token which it presented; nor is another tab
between the two writes of a session. -/
def BrowserState.Respects
    (state : BrowserState Tab Call Routine Token Access User)
    (seen : Tab → Option SessionChange) : Prop :=
  ∀ tab write ownerDone,
    (state.own tab).core.writing = some (write, ownerDone) →
      (state.own tab).refresh.finishing = true →
        (∀ change ∈ seen tab, write.kind.clashes change = false) ∧
          ∀ other, other ≠ tab →
            ∀ half ∈ (state.own other).core.halfWritten,
              write.kind.clashes half.kind = false

/-- What carries `Respects` through a run. -/
structure BrowserState.Guarded
    (state : BrowserState Tab Call Routine Token Access User)
    (seen : Tab → Option SessionChange) : Prop where
  tab : ∀ tab, (state.own tab).core.Guarded
    state.shared.storage.refreshToken (seen tab)
  apart : ∀ tab other, other ≠ tab →
    (state.own tab).core.Apart (state.own other).core

variable {subject : Access → Option User} {userOf : Token → User}
  {state next : BrowserState Tab Call Routine Token Access User}
  {seen : Tab → Option SessionChange}

omit [DecidableEq Tab] [DecidableEq Call] [DecidableEq Routine]
  [DecidableEq Token] [DecidableEq Access] [DecidableEq User] in
theorem BrowserState.Start.guarded (hstart : state.Start) :
    BrowserState.Guarded state fun _ => none := by
  have hphase : ∀ tab, (state.own tab).core.refresh = .idle :=
    hstart.refresh
  refine ⟨fun tab => ⟨nofun, fun _ _ h => absurd rfl h, ?_⟩, ?_⟩
  · intro kind hkind
    rw [hphase tab] at hkind
    contradiction
  · intro tab other _ kind hkind
    rw [hphase tab] at hkind
    contradiction

/-- The lock takes care of the refreshes which work under it. -/
theorem BrowserState.Calm.undisturbed
    (hreach : (browserMachine Call Routine subject userOf).Reachable state)
    {action : Tab × BrowserMove Call Routine Token Access}
    (hcalm : BrowserState.Calm subject userOf state action)
    {other : Tab} (hne : other ≠ action.1) :
    (state.own other).core.Undisturbed
      (BrowserState.event subject userOf state action) := by
  refine hcalm other hne (Bool.eq_false_iff.mpr fun hboth => ?_)
  obtain ⟨htab, hother⟩ := Bool.and_eq_true_iff.mp hboth
  exact hne (BrowserState.holder_unique hreach htab hother)

theorem BrowserState.Guarded.step
    (hguarded : BrowserState.Guarded state seen)
    (hreach : (browserMachine Call Routine subject userOf).Reachable state)
    {action : Tab × BrowserMove Call Routine Token Access}
    (hcalm : BrowserState.Calm subject userOf state action)
    (hstep : (browserMachine Call Routine subject userOf).step state action =
      some next) :
    BrowserState.Guarded next
      (rememberWrites subject userOf state action seen) := by
  have hundisturbed : ∀ other, other ≠ action.1 →
      (state.own other).core.Undisturbed
        (BrowserState.event subject userOf state action) :=
    fun _ => hcalm.undisturbed hreach
  obtain ⟨tab, move⟩ := action
  obtain ⟨view, hadvance, rfl⟩ := Machine.agents_step hstep
  have hevent : BrowserState.event subject userOf state (tab, move) =
      (state.own tab).core.event view.own.core := by
    simp [BrowserState.event, hadvance]
  have heffect : SessionEffect (TabView.core (state.view tab))
      (TabView.core view)
      (BrowserState.event subject userOf state (tab, move)) := by
    rw [hevent]
    rcases TabView.advance_core hadvance with hcore | ⟨-, hcore⟩
    · exact hcore.effect
    · exact hcore.effect
  have hnew : ∀ other tokens,
      (state.own tab).core.writing = some (.store tokens, true) →
        ∀ sent, (state.own other).core.refresh.Awaits sent →
          tokens.refresh ≠ sent := by
    rintro other tokens hwriting sent hawaits rfl
    refine BrowserState.stored_ne_used hreach hwriting ?_
    exact .inr (.inr ⟨other, hawaits.sent⟩)
  refine ⟨?_, ?_⟩
  · refine Agents.forall_put
      (fun any (own : BrowserTab Call Routine Token Access) =>
        own.core.Guarded view.shared.storage.refreshToken
          (rememberWrites subject userOf state (tab, move) seen any)) ?_ ?_
    · simp only [rememberWrites, if_true]
      exact heffect.guarded_self (hguarded.tab tab)
    · intro other hne
      simp only [rememberWrites, if_neg hne]
      exact heffect.guarded_other (hguarded.tab other)
        (hundisturbed other hne) (hnew other)
  · intro any other hne
    by_cases hany : any = tab
    · subst hany
      rw [Agents.put_own_self, Agents.put_own_of_ne _ hne]
      exact heffect.apart_self (hguarded.apart any other hne)
        (hundisturbed other hne)
    · rw [Agents.put_own_of_ne _ hany]
      by_cases hother : other = tab
      · subst hother
        rw [Agents.put_own_self]
        exact heffect.apart_other (hguarded.apart any other hne)
          (hundisturbed any hany)
      · rw [Agents.put_own_of_ne _ hother]
        exact hguarded.apart any other hne

theorem BrowserState.guarded
    (hreach : (watchedBrowser Tab Call Routine subject userOf).ReachableWhere
      (fun state => BrowserState.Calm subject userOf state.1) (state, seen)) :
    BrowserState.Guarded state seen := by
  refine Machine.observed_invariant ?_ ?_ hreach
  · exact fun state hstart => BrowserState.Start.guarded hstart
  · intro state seen action next hreach hguarded hcalm hstep
    exact hguarded.step hreach hcalm hstep

/-- A refresh that finishes leaves alone what another tab has written since
the refresh has read the token it presented, in every run in which no other
tab writes between the comparison of the tokens and the write. -/
theorem refresh_respects_other_tabs
    (subject : Access → Option User) (userOf : Token → User)
    {state : BrowserState Tab Call Routine Token Access User}
    {seen : Tab → Option SessionChange}
    (hreach : (watchedBrowser Tab Call Routine subject userOf).ReachableWhere
      (fun state => BrowserState.Calm subject userOf state.1) (state, seen)) :
    state.Respects seen := by
  have hguarded := BrowserState.guarded hreach
  intro tab write ownerDone hwriting hfinishing
  have horderly := BrowserState.orderly hreach.forget.reachable tab
  have hdecided : (state.own tab).core.refresh.decided = some write.kind := by
    change (state.own tab).refresh.decided = some write.kind
    cases hphase : (state.own tab).refresh with
    | storing sent =>
        obtain ⟨tokens, done, hsome⟩ := horderly.storing sent hphase
        obtain ⟨rfl, -⟩ := Prod.mk.inj (Option.some.inj (hwriting ▸ hsome))
        rfl
    | closing locked =>
        obtain ⟨done, hsome⟩ := horderly.closing locked hphase
        obtain ⟨rfl, -⟩ := Prod.mk.inj (Option.some.inj (hwriting ▸ hsome))
        rfl
    | _ =>
        rw [hphase] at hfinishing
        contradiction
  refine ⟨?_, ?_⟩
  · exact (hguarded.tab tab).decided write.kind hdecided
  · exact fun other hne => hguarded.apart tab other hne write.kind hdecided

end Browser

/-! ## Two tabs -/

/-- Every token names its user; both tabs belong to user 0. -/
def signedIn : BrowserState Bool Unit Unit ℕ ℕ ℕ where
  shared :=
    { storage := ⟨some 0, some 0⟩
      lock := none
      tokens := {0}
      accesses := {0}
      rotated := ∅ }
  own _ :=
    { accessToken := some 0
      script := none
      refresh := .idle
      calls := fun _ => .idle
      routines := fun _ => .idle }

def userOfToken (token : ℕ) : ℕ := token / 10

def userOfAccess (access : ℕ) : Option ℕ := some (access / 10)

theorem signedIn_start : signedIn.Start := by
  refine ⟨rfl, fun _ => rfl, fun _ => rfl, fun _ _ => rfl, fun _ _ => rfl,
    ?_, ?_, ?_⟩
  · rintro token ⟨⟩
    decide
  · decide
  · rintro tab access ⟨⟩
    decide

theorem signedIn_initial :
    (watchedBrowser Bool Unit Unit userOfAccess userOfToken).Initial
      (signedIn, fun _ => none) :=
  ⟨signedIn_start, rfl⟩

abbrev TwoTabMove := Bool × BrowserMove Unit Unit ℕ ℕ

/-- A refresh up to the response of the server. -/
def refreshing (tab : Bool) (serial : ℕ) : List TwoTabMove :=
  [(tab, .turn .refreshSession), (tab, .acquire), (tab, .turn .present),
    (tab, .rotate ⟨serial, serial⟩)]

def loggingIn (tab : Bool) (serial : ℕ) : List TwoTabMove :=
  [(tab, .turn (.login ())), (tab, .authenticate () ⟨serial, serial⟩),
    (tab, .turn (.enter ())), (tab, .proceed), (tab, .proceed)]

def loggingOut (tab : Bool) : List TwoTabMove :=
  [(tab, .turn (.logout ())), (tab, .turn (.leave ())), (tab, .proceed),
    (tab, .proceed)]

/-- The other tab logs in while the response travels: the refresh tries again
with the new token. -/
theorem refresh_respects_other_tabs_login :
    ∃ state seen,
      (watchedBrowser Bool Unit Unit userOfAccess userOfToken).run
        (signedIn, fun _ => none)
        (refreshing false 1 ++ loggingIn true 10 ++
          [(false, .turn .check), (false, .rotate ⟨11, 11⟩),
            (false, .turn .check), (false, .turn .receive)]) =
          some (state, seen) ∧
      (state.own false).refresh = .storing 10 ∧ state.Respects seen := by
  have hallowed : (watchedBrowser Bool Unit Unit userOfAccess
      userOfToken).AllowedAlong
      (fun state => BrowserState.Calm userOfAccess userOfToken state.1)
      (signedIn, fun _ => none)
      (refreshing false 1 ++ loggingIn true 10 ++
          [(false, .turn .check), (false, .rotate ⟨11, 11⟩),
            (false, .turn .check), (false, .turn .receive)]) := by
    decide +kernel
  obtain ⟨⟨state, seen⟩, hrun, hphase⟩ : ∃ state,
      (watchedBrowser Bool Unit Unit userOfAccess userOfToken).run
        (signedIn, fun _ => none)
        (refreshing false 1 ++ loggingIn true 10 ++
          [(false, .turn .check), (false, .rotate ⟨11, 11⟩),
            (false, .turn .check), (false, .turn .receive)]) =
          some state ∧ (state.1.own false).refresh = .storing 10 :=
    ⟨_, rfl, rfl⟩
  exact ⟨state, seen, hrun, hphase,
    refresh_respects_other_tabs userOfAccess userOfToken
      (Machine.ReachableWhere.run (.initial signedIn_initial) hallowed hrun)⟩

/-- The other tab logs in, or logs out, while the refresh waits for the body
of the response. -/
theorem refresh_overwrites_other_tab :
    (∃ state seen,
      (watchedBrowser Bool Unit Unit userOfAccess userOfToken).Reachable
        (state, seen) ∧
      (state.own false).refresh = .storing 0 ∧
      state.shared.storage = ⟨some 1, some 10⟩ ∧
      seen false = some .stored ∧ ¬ state.Respects seen) ∧
    ∃ state seen,
      (watchedBrowser Bool Unit Unit userOfAccess userOfToken).Reachable
        (state, seen) ∧
      (state.own false).refresh = .storing 0 ∧
      state.shared.storage = ⟨none, none⟩ ∧
      seen false = some .cleared ∧ ¬ state.Respects seen := by
  have hstart : (watchedBrowser Bool Unit Unit userOfAccess
      userOfToken).Reachable (signedIn, fun _ => none) :=
    .initial signedIn_initial
  constructor
  · have hrun : (watchedBrowser Bool Unit Unit userOfAccess userOfToken).run
        (signedIn, fun _ => none)
        (refreshing false 1 ++ [(false, .turn .check)] ++ loggingIn true 10 ++
          [(false, .turn .receive)]) = some _ := rfl
    refine ⟨_, _, hstart.run hrun, rfl, rfl, rfl, fun hrespects => ?_⟩
    have hclashes := (hrespects false _ _ rfl rfl).1 .stored rfl
    contradiction
  · have hrun : (watchedBrowser Bool Unit Unit userOfAccess userOfToken).run
        (signedIn, fun _ => none)
        (refreshing false 1 ++ [(false, .turn .check)] ++ loggingOut true ++
          [(false, .turn .receive)]) = some _ := rfl
    refine ⟨_, _, hstart.run hrun, rfl, rfl, rfl, fun hrespects => ?_⟩
    have hclashes := (hrespects false _ _ rfl rfl).1 .cleared rfl
    contradiction

end NotifyHub
