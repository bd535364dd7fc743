import NotifyHub.SingleRotation
import Mathlib.Tactic

/-!
# How often a tab rotates for one access token

Every rotation of a tab is put down to the access token which the tab has had
last, and to those with which the requests were sent that wait for it.
-/

namespace NotifyHub

variable {Tab Call Routine Token Access User : Type}

/-- The access token with which a request was sent for the first time, as long
as it has not been sent again. -/
def CallPhase.firstToken : CallPhase Access → Option Access
  | .sent token .first => token
  | .unauthorized token | .refreshed token _ => token
  | _ => none

@[simp] theorem CallPhase.firstToken_settle
    (phase : CallPhase Access) (renewal : Renewal) :
    (phase.settle renewal).firstToken = phase.firstToken := by
  cases phase with
  | _ => rfl

theorem CallPhase.eq_sent_of_settle
    {phase : CallPhase Access} {renewal : Renewal} {token : Option Access}
    {attempt : Attempt Access}
    (hsettle : phase.settle renewal = .sent token attempt) :
    phase = .sent token attempt := by
  cases phase with
  | bootstrapping | unauthorized => contradiction
  | _ => exact hsettle

theorem CallPhase.settle_ne_unauthorized
    (phase : CallPhase Access) (renewal : Renewal) (token : Option Access) :
    phase.settle renewal ≠ .unauthorized token := by
  cases phase with
  | _ => nofun

/-- A request of the tab waits for the refresh after a 401 to this access
token. -/
def BrowserTab.AwaitsFor
    (own : BrowserTab Call Routine Token Access) (access : Access) : Prop :=
  ∃ call, own.calls call = .unauthorized (some access)

/-- The access token which each tab has had last, and the rotations put down
to each access token of a tab. -/
structure Rotations (Tab Access : Type) where
  last : Tab → Option Access
  count : Tab → Access → ℕ

open Classical in
/-- A rotation happens at the server; the tab has the new access token once it
stores the pair. -/
noncomputable def countRotations [DecidableEq Call] [DecidableEq Routine]
    [DecidableEq Token] [DecidableEq Access] [DecidableEq User]
    (subject : Access → Option User) (userOf : Token → User)
    (state : BrowserState Tab Call Routine Token Access User)
    (action : Tab × BrowserMove Call Routine Token Access)
    (seen : Rotations Tab Access) : Rotations Tab Access where
  last tab :=
    if tab = action.1 then
      ((TabView.advance subject userOf tab (state.view tab)
        action.2).bind fun next => next.own.accessToken).or (seen.last tab)
    else seen.last tab
  count tab access :=
    match action.2 with
    | .rotate _ =>
        if tab = action.1 ∧ (seen.last tab = some access ∨
            (state.own tab).AwaitsFor access) then
          seen.count tab access + 1
        else seen.count tab access
    | _ => seen.count tab access

/-- The refresh has not stored a new pair yet. -/
def RefreshPhase.pending : RefreshPhase Token Access → Bool
  | .waiting | .reading | .inFlight _ | .replied _ _ | .readingBody _ _ => true
  | _ => false

/-- What is known of the access tokens of a tab. -/
structure BrowserTab.Counted
    (subject : Access → Option User) (userOf : Token → User)
    (shared : BrowserShared Tab Token Access User)
    (last : Option Access) (count : Access → ℕ)
    (own : BrowserTab Call Routine Token Access) : Prop where
  current : ∀ access, own.accessToken = some access → last = some access
  issued : ∀ access, last = some access ∨ count access ≠ 0 →
    access ∈ shared.accesses
  le_one : ∀ access, count access ≤ 1
  last_count : ∀ access, last = some access →
    count access = if own.refresh.pair.isSome then 1 else 0
  fresh : ∀ tokens, own.refresh.pair = some tokens →
    count tokens.access = 0 ∧ last ≠ some tokens.access ∧
      tokens.access ∈ shared.accesses
  first : ∀ call access, (own.calls call).firstToken = some access →
    last = some access ∨ count access = 1
  again : ∀ call access sent,
    own.calls call = .sent (some access) (.after (some sent)) →
      access ≠ sent → count sent = 1
  waits : ∀ call sent, own.calls call = .unauthorized sent →
    own.refresh ≠ .idle
  awaits : ∀ access, own.AwaitsFor access → own.refresh.pending = true →
    last = some access ∨ shared.storage.refreshToken = none
  emptied : own.accessToken = none → own.core.writing = none →
    ∀ access, count access ≠ 0 → last ≠ some access →
      shared.storage.refreshToken = none
  storing : ∀ tokens ownerDone,
    own.core.writing = some (.store tokens, ownerDone) →
      own.accessToken = some tokens.access
  owner : ∀ token, shared.storage.refreshToken = some token →
    (∀ tokens, own.core.writing ≠ some (.store tokens, false)) →
      ∀ access, count access ≠ 0 → last ≠ some access →
        ∀ latest, last = some latest →
          subject latest = some (userOf token) ∧
            (shared.storage.user = none ∨
              shared.storage.user = some (userOf token))

theorem RefreshPhase.written_eq_of_pair
    {phase : RefreshPhase Token Access} (hpair : phase.written.pair ≠ none) :
    phase.written = phase := by
  cases phase with
  | closing locked =>
      cases locked with
      | _ => exact absurd rfl hpair
  | storing sent => exact absurd rfl hpair
  | _ => rfl

theorem RefreshPhase.idle_of_written
    {phase : RefreshPhase Token Access} (hidle : phase.written = .idle) :
    phase = .idle := by
  cases phase with
  | closing locked =>
      cases locked with
      | _ => contradiction
  | storing sent => contradiction
  | _ => exact hidle

theorem RefreshPhase.pending_of_written
    {phase : RefreshPhase Token Access}
    (hpending : phase.written.pending = true) : phase.pending = true := by
  cases phase with
  | closing locked =>
      cases locked with
      | _ => contradiction
  | storing sent => contradiction
  | _ => exact hpending

/-! ## One user -/

/-- A new pair belongs to the user of the token that it replaces. -/
structure SessionCore.SameUser
    (subject : Access → Option User) (userOf : Token → User)
    (own : SessionCore Routine Token Access) : Prop where
  answered : ∀ sent tokens,
    own.refresh = .replied sent (.pair tokens) ∨
      own.refresh = .readingBody sent tokens →
    userOf tokens.refresh = userOf sent ∧
      subject tokens.access = some (userOf sent)
  storing : ∀ sent tokens ownerDone, own.refresh = .storing sent →
    own.writing = some (.store tokens, ownerDone) →
    userOf tokens.refresh = userOf sent ∧
      subject tokens.access = some (userOf sent)

/-- What the others see of a step: the session is renewed for the same user,
or cleared for good. -/
structure BrowserShared.Follows
    (userOf : Token → User)
    (shared next : BrowserShared Tab Token Access User) : Prop where
  accesses : shared.accesses ⊆ next.accesses
  emptied : shared.storage.refreshToken = none →
    next.storage.refreshToken = none
  renewed : ∀ token, next.storage.refreshToken = some token →
    ∃ before, shared.storage.refreshToken = some before ∧
      userOf token = userOf before
  owner : ∀ token, shared.storage.refreshToken = some token →
    next.storage.user = shared.storage.user ∨ next.storage.user = none ∨
      next.storage.user = some (userOf token)

theorem BrowserShared.Follows.of_storage
    {userOf : Token → User}
    {shared next : BrowserShared Tab Token Access User}
    (haccesses : shared.accesses ⊆ next.accesses)
    (hstorage : next.storage = shared.storage) :
    shared.Follows userOf next := by
  refine ⟨haccesses, ?_, ?_, ?_⟩
  · intro hnone
    rw [hstorage]
    exact hnone
  · intro token hsome
    rw [hstorage] at hsome
    exact ⟨token, hsome, rfl⟩
  · intro token _
    rw [hstorage]
    exact .inl rfl

section Steps

variable [DecidableEq Token] [DecidableEq Access]
  {subject : Access → Option User} {userOf : Token → User} {tab : Tab}
  {view next : CoreView Tab Routine Token Access User}

omit [DecidableEq Token] [DecidableEq Access] in
/-- The refresh has no pair, or goes on with the one it has. -/
theorem SessionCore.SameUser.goto
    {own : SessionCore Routine Token Access}
    (hsame : own.SameUser subject userOf) {phase : RefreshPhase Token Access}
    (hpair : phase.pair = none)
    (hstoring : ∀ sent, phase = .storing sent → own.refresh = phase) :
    SessionCore.SameUser subject userOf { own with refresh := phase } := by
  refine ⟨?_, ?_⟩
  · rintro sent tokens (h | h)
    · simp only at h
      rw [h] at hpair
      contradiction
    · simp only at h
      rw [h] at hpair
      contradiction
  · intro sent tokens ownerDone h hwriting
    exact hsame.storing sent tokens ownerDone ((hstoring sent h).trans h)
      hwriting

theorem RefreshStep.sameUser
    (hstep : RefreshStep subject userOf tab view next)
    (hsame : view.own.SameUser subject userOf) :
    next.own.SameUser subject userOf := by
  cases hstep with
  | rest => exact hsame
  | wait | acquire | unlock | settle | giveUp | present =>
      exact hsame.goto rfl nofun
  | closeUnlocked | closeMissing | closeRefused => exact ⟨nofun, nofun⟩
  | @answer _ _ _ reply _ hreply =>
      refine hsame.goto ?_ nofun
      cases reply with
      | pair tokens => exact absurd rfl (hreply tokens)
      | refused => rfl
      | failed => rfl
  | @rotate _ _ sent tokens _ _ hissues huser =>
      refine ⟨?_, nofun⟩
      rintro sent' tokens' (h | h)
      · obtain ⟨rfl, hreply⟩ := RefreshPhase.replied.inj h
        obtain rfl := RefreshReply.pair.inj hreply
        exact ⟨huser, huser ▸ hissues.2.2⟩
      · contradiction
  | @accept _ _ sent tokens _ hphase =>
      refine ⟨?_, nofun⟩
      rintro sent' tokens' (h | h)
      · contradiction
      · obtain ⟨rfl, rfl⟩ := RefreshPhase.readingBody.inj h
        exact hsame.answered _ _ (.inl hphase)
  | @receive _ _ sent tokens _ hphase =>
      refine ⟨nofun, ?_⟩
      rintro _ _ _ ⟨⟩ ⟨⟩
      exact hsame.answered sent tokens (.inr hphase)
  | forget => exact ⟨hsame.answered, nofun⟩
  | writeOwner hwriting =>
      refine ⟨hsame.answered, ?_⟩
      rintro sent tokens _ hphase ⟨⟩
      exact hsame.storing sent tokens false hphase hwriting
  | writeToken =>
      refine ⟨?_, nofun⟩
      intro sent tokens h
      refine hsame.answered sent tokens ?_
      rw [RefreshPhase.written_eq_of_pair] at h
      · exact h
      · rcases h with h | h
        · simp only at h
          rw [h]
          nofun
        · simp only at h
          rw [h]
          nofun

theorem RefreshStep.follows
    (hstep : RefreshStep subject userOf tab view next)
    (hsettled : view.own.Settled view.shared.storage.refreshToken)
    (hsame : view.own.SameUser subject userOf) :
    view.shared.Follows userOf next.shared := by
  cases hstep with
  | @writeOwner shared own write hwriting =>
      refine ⟨Finset.Subset.refl _, fun h => h, fun token h => ⟨token, h, rfl⟩,
        ?_⟩
      intro token hstored
      cases write with
      | clear => exact .inr (.inl rfl)
      | store tokens =>
          obtain ⟨sent, hphase⟩ := hsettled.stores tokens false hwriting
          have hsent := hsettled.sent sent (by rw [hphase]; rfl)
          obtain rfl := Option.some.inj (hsent.symm.trans hstored)
          exact .inr (.inr
            (hsame.storing sent tokens false hphase hwriting).2)
  | @writeToken shared own write hwriting =>
      cases write with
      | clear =>
          exact ⟨Finset.Subset.refl _, fun _ => rfl, nofun, fun _ _ => .inl rfl⟩
      | store tokens =>
          obtain ⟨sent, hphase⟩ := hsettled.stores tokens true hwriting
          have hsent := hsettled.sent sent (by rw [hphase]; rfl)
          refine ⟨Finset.Subset.refl _, ?_, ?_, fun _ _ => .inl rfl⟩
          · intro hnone
            rw [hsent] at hnone
            contradiction
          · rintro token ⟨⟩
            exact ⟨sent, hsent,
              (hsame.storing sent tokens true hphase hwriting).1⟩
  | rotate => exact .of_storage (Finset.subset_insert _ _) rfl
  | _ => exact .of_storage (Finset.Subset.refl _) rfl

end Steps

/-! ## What the access tokens of a tab survive -/

namespace BrowserTab.Counted

variable {subject : Access → Option User} {userOf : Token → User}
  {shared next : BrowserShared Tab Token Access User} {last : Option Access}
  {count : Access → ℕ} {own : BrowserTab Call Routine Token Access}

theorem latest (hcounted : own.Counted subject userOf shared last count) :
    own.accessToken.or last = last := by
  cases haccess : own.accessToken with
  | none => rfl
  | some access => exact (hcounted.current access haccess).symm

/-- The shared memory has been changed. -/
theorem of_follows
    (hcounted : own.Counted subject userOf shared last count)
    (hfollows : shared.Follows userOf next) :
    own.Counted subject userOf next last count := by
  refine { hcounted with
    issued := fun access h => hfollows.accesses (hcounted.issued access h)
    fresh := fun tokens h =>
      (hcounted.fresh tokens h).imp_right (.imp_right (hfollows.accesses ·))
    awaits := ?_, emptied := ?_, owner := ?_ }
  · intro access hawaits hpending
    rcases hcounted.awaits access hawaits hpending with hlast | hnone
    · exact .inl hlast
    · exact .inr (hfollows.emptied hnone)
  · exact fun hnone hwriting access hcount hlast =>
      hfollows.emptied (hcounted.emptied hnone hwriting access hcount hlast)
  · intro token hstored hwriting access hcount hlast latest hlatest
    obtain ⟨before, hbefore, huser⟩ := hfollows.renewed token hstored
    obtain ⟨hsubject, howner⟩ := hcounted.owner before hbefore hwriting access
      hcount hlast latest hlatest
    rw [huser]
    refine ⟨hsubject, ?_⟩
    rcases hfollows.owner before hbefore with h | h | h
    · rw [h]
      exact howner
    · exact .inl h
    · exact .inr h

/-- The refresh goes on without touching a pair. -/
theorem setRefresh
    (hcounted : own.Counted subject userOf shared last count)
    {phase : RefreshPhase Token Access}
    (hpair : phase.pair = own.refresh.pair) (hidle : phase ≠ .idle)
    (hpending : phase.pending = true →
      own.refresh.pending = true ∨ own.refresh = .idle) :
    BrowserTab.Counted subject userOf shared last count
      { own with refresh := phase } := by
  refine { hcounted with
    last_count := hpair ▸ hcounted.last_count
    fresh := hpair ▸ hcounted.fresh
    waits := fun _ _ _ => hidle
    awaits := ?_ }
  intro access hawaits hphase
  rcases hpending hphase with hbefore | hbefore
  · exact hcounted.awaits access hawaits hbefore
  · obtain ⟨call, hcall⟩ := hawaits
    exact absurd hbefore (hcounted.waits call _ hcall)

/-- The script goes on without touching the session. -/
theorem setScript
    (hcounted : own.Counted subject userOf shared last count)
    {script : Option (Script Token Access)}
    (hscript : script.bind Script.writing? = own.script.bind Script.writing?) :
    BrowserTab.Counted subject userOf shared last count
      { own with script } := by
  have hcore : BrowserTab.core { own with script } = own.core := by
    simp only [BrowserTab.core, hscript]
  refine { hcounted with emptied := ?_, storing := ?_, owner := ?_ }
  · rw [hcore]
    exact hcounted.emptied
  · rw [hcore]
    exact hcounted.storing
  · rw [hcore]
    exact hcounted.owner

/-- The access token is forgotten, and the session is going to be. -/
theorem clearTokens
    (hcounted : own.Counted subject userOf shared last count)
    (hscript : own.script = none) :
    BrowserTab.Counted subject userOf shared last count
      { own with
        accessToken := none
        script := some (.writing .clear false) } := by
  refine { hcounted with
    current := nofun, emptied := nofun, storing := nofun, owner := ?_ }
  intro token hstored _
  refine hcounted.owner token hstored ?_
  simp [BrowserTab.core, hscript]

/-- One request goes on. -/
theorem setCall [DecidableEq Call]
    (hcounted : own.Counted subject userOf shared last count)
    {call : Call} {phase : CallPhase Access}
    (hfirst : ∀ access, phase.firstToken = some access →
      last = some access ∨ count access = 1)
    (hagain : ∀ access sent,
      phase = .sent (some access) (.after (some sent)) →
        access ≠ sent → count sent = 1)
    (hwaits : ∀ sent, phase = .unauthorized sent → own.refresh ≠ .idle)
    (hawaits : ∀ access, phase = .unauthorized (some access) →
      own.refresh.pending = true →
        last = some access ∨ shared.storage.refreshToken = none) :
    BrowserTab.Counted subject userOf shared last count
      { own with calls := Function.update own.calls call phase } := by
  have hcases : ∀ other, Function.update own.calls call phase other = phase ∨
      Function.update own.calls call phase other = own.calls other := by
    intro other
    by_cases heq : other = call
    · subst heq
      exact .inl (Function.update_self ..)
    · exact .inr (Function.update_of_ne heq ..)
  refine { hcounted with first := ?_, again := ?_, waits := ?_, awaits := ?_ }
  · intro other access h
    rcases hcases other with hnew | hold
    · exact hfirst access (hnew ▸ h)
    · exact hcounted.first other access (hold ▸ h)
  · intro other access sent h
    rcases hcases other with hnew | hold
    · exact hagain access sent (hnew.symm.trans h)
    · exact hcounted.again other access sent (hold.symm.trans h)
  · intro other sent h
    rcases hcases other with hnew | hold
    · exact hwaits sent (hnew.symm.trans h)
    · exact hcounted.waits other sent (hold.symm.trans h)
  · rintro access ⟨other, h⟩ hpending
    rcases hcases other with hnew | hold
    · exact hawaits access (hnew.symm.trans h) hpending
    · exact hcounted.awaits access ⟨other, hold.symm.trans h⟩ hpending

/-- A request whose phase says nothing about access tokens. -/
theorem setCall_plain [DecidableEq Call]
    (hcounted : own.Counted subject userOf shared last count)
    (call : Call) {phase : CallPhase Access} (hfirst : phase.firstToken = none)
    (hagain : ∀ token sent, phase ≠ .sent token (.after sent))
    (hwaits : ∀ sent, phase ≠ .unauthorized sent) :
    BrowserTab.Counted subject userOf shared last count
      { own with calls := Function.update own.calls call phase } := by
  refine hcounted.setCall ?_ ?_ ?_ ?_
  · intro access h
    rw [hfirst] at h
    contradiction
  · exact fun access sent h => absurd h (hagain _ _)
  · exact fun sent h => absurd h (hwaits _)
  · exact fun access h => absurd h (hwaits _)

/-- A request is sent with the access token of the tab. -/
theorem send [DecidableEq Call]
    (hcounted : own.Counted subject userOf shared last count)
    (call : Call) {attempt : Attempt Access}
    (hagain : ∀ access sent, own.accessToken = some access →
      attempt = .after (some sent) → access ≠ sent → count sent = 1) :
    BrowserTab.Counted subject userOf shared last count
      { own with
        calls :=
          Function.update own.calls call
            (.sent own.accessToken attempt) } := by
  refine hcounted.setCall ?_ ?_ nofun nofun
  · intro access h
    cases attempt with
    | first => exact .inl (hcounted.current access h)
    | _ => contradiction
  · intro access sent h
    obtain ⟨haccess, hattempt⟩ := CallPhase.sent.inj h
    exact hagain access sent haccess hattempt

/-- A request which has received a 401 is sent again with another access
token. -/
theorem count_eq_one
    (hcounted : own.Counted subject userOf shared last count)
    {call : Call} {access sent : Access}
    (hfirst : (own.calls call).firstToken = some sent)
    (haccess : own.accessToken = some access) (hne : access ≠ sent) :
    count sent = 1 := by
  rcases hcounted.first call sent hfirst with hlast | hcount
  · rw [hcounted.current access haccess] at hlast
    exact absurd (Option.some.inj hlast) hne
  · exact hcount

/-- The body of the response has arrived. -/
theorem receive
    (hcounted : own.Counted subject userOf shared last count)
    {sent : Token} {tokens : TokenPair Token Access}
    (hphase : own.refresh = .readingBody sent tokens) :
    BrowserTab.Counted subject userOf shared (some tokens.access) count
      { own with
        accessToken := some tokens.access
        script := some (.writing (.store tokens) false)
        refresh := .storing sent } := by
  have hpair : own.refresh.pair = some tokens := by rw [hphase]; rfl
  obtain ⟨hzero, -, hissued⟩ := hcounted.fresh tokens hpair
  refine { hcounted with
    current := fun access h => h
    issued := ?_, last_count := ?_, fresh := nofun, first := ?_
    waits := nofun, awaits := nofun, emptied := nofun
    storing := ?_, owner := ?_ }
  · rintro access (h | h)
    · obtain rfl := Option.some.inj h
      exact hissued
    · exact hcounted.issued access (.inr h)
  · rintro access ⟨⟩
    exact hzero
  · intro call access h
    refine .inr ?_
    rcases hcounted.first call access h with hlast | hcount
    · rw [hcounted.last_count access hlast, hpair]
      rfl
    · exact hcount
  · rintro tokens' ownerDone ⟨⟩
    rfl
  · exact fun token _ hwriting => absurd rfl (hwriting tokens)

/-- The refresh has ended, and the requests which wait for it know. -/
theorem settle
    (hcounted : own.Counted subject userOf shared last count)
    {renewal : Renewal} (hpair : own.refresh.pair = none) :
    BrowserTab.Counted subject userOf shared last count
      { own with
        refresh := .idle
        calls := fun call => (own.calls call).settle renewal } := by
  refine { hcounted with
    last_count := ?_, fresh := nofun, first := ?_, again := ?_, waits := ?_
    awaits := nofun }
  · intro access h
    rw [hcounted.last_count access h, hpair]
    rfl
  · intro call access h
    rw [CallPhase.firstToken_settle] at h
    exact hcounted.first call access h
  · intro call access sent h
    exact hcounted.again call access sent (CallPhase.eq_sent_of_settle h)
  · intro call sent h
    exact absurd h (CallPhase.settle_ne_unauthorized _ _ _)

/-- The server rotates: nobody has counted this rotation before. -/
theorem rotate
    (hcounted : own.Counted subject userOf shared last count)
    {sent : Token} {tokens : TokenPair Token Access} {count' : Access → ℕ}
    (hphase : own.refresh = .inFlight sent)
    (hstored : shared.storage.refreshToken = some sent)
    (hfresh : tokens.access ∉ shared.accesses)
    (hfollows : shared.Follows userOf next)
    (hissued : tokens.access ∈ next.accesses)
    (hcount : ∀ access,
      (last = some access ∨ own.AwaitsFor access) ∧
          count' access = count access + 1 ∨
        last ≠ some access ∧ count' access = count access) :
    BrowserTab.Counted subject userOf next last count'
      { own with refresh := .replied sent (.pair tokens) } := by
  have hawaits : ∀ access, own.AwaitsFor access → last = some access := by
    intro access h
    rcases hcounted.awaits access h (by rw [hphase]; rfl) with hlast | hnone
    · exact hlast
    · rw [hstored] at hnone
      contradiction
  have hlast : ∀ access, last = some access → count' access = 1 := by
    intro access h
    rcases hcount access with ⟨-, hsucc⟩ | ⟨hne, -⟩
    · rw [hsucc, hcounted.last_count access h, hphase]
      rfl
    · exact absurd h hne
  have hother : ∀ access, last ≠ some access →
      count' access = count access := by
    intro access h
    rcases hcount access with ⟨hcause, -⟩ | ⟨-, hsame⟩
    · exact absurd (hcause.elim id (hawaits access)) h
    · exact hsame
  have hone : ∀ access, count access = 1 → count' access = 1 := by
    intro access h
    by_cases heq : last = some access
    · exact hlast access heq
    · rw [hother access heq, h]
  have hafter := (hcounted.of_follows hfollows)
  refine { hafter with
    issued := ?_, le_one := ?_, last_count := ?_, fresh := ?_, first := ?_
    again := ?_, waits := nofun, awaits := ?_, emptied := ?_, owner := ?_ }
  · rintro access (h | h)
    · exact hafter.issued access (.inl h)
    · by_cases heq : last = some access
      · exact hafter.issued access (.inl heq)
      · rw [hother access heq] at h
        exact hafter.issued access (.inr h)
  · intro access
    by_cases heq : last = some access
    · exact (hlast access heq).le
    · rw [hother access heq]
      exact hcounted.le_one access
  · exact hlast
  · rintro _ ⟨⟩
    have hne : last ≠ some tokens.access := fun h =>
      hfresh (hcounted.issued _ (.inl h))
    have hzero : count tokens.access = 0 := by
      by_contra h
      exact hfresh (hcounted.issued _ (.inr h))
    exact ⟨(hother _ hne).trans hzero, hne, hissued⟩
  · intro call access h
    exact (hcounted.first call access h).imp_right (hone access)
  · intro call access old h hne
    exact hone old (hcounted.again call access old h hne)
  · intro access h _
    exact .inl (hawaits access h)
  · intro hnone hwriting access h hne
    rw [hother access hne] at h
    exact hafter.emptied hnone hwriting access h hne
  · intro token hsome hwriting access h hne
    rw [hother access hne] at h
    exact hafter.owner token hsome hwriting access h hne

/-- A tab that has rotated once is not mistaken for one of another user. -/
theorem matchOwner
    (hcounted : own.Counted subject userOf shared last count)
    (hwriting : own.core.writing = none)
    (howner : shared.storage.user ≠ none)
    (hmine : own.accessToken.bind subject ≠ none)
    (hne : shared.storage.user ≠ own.accessToken.bind subject) :
    BrowserTab.Counted subject userOf shared last count
      { own with accessToken := none, script := none } := by
  have hcore : BrowserTab.core { own with accessToken := none, script := none } =
      own.core := by
    have hnone : own.script.bind Script.writing? = none := hwriting
    simp only [BrowserTab.core, hnone, Option.bind_none]
  have hemptied : ∀ access, count access ≠ 0 → last ≠ some access →
      shared.storage.refreshToken = none := by
    intro access hcount hlast
    cases hstored : shared.storage.refreshToken with
    | none => rfl
    | some token =>
        cases haccess : own.accessToken with
        | none =>
            rw [haccess] at hmine
            contradiction
        | some latest =>
            obtain ⟨hsubject, hstorage⟩ := hcounted.owner token hstored
              (by simp [hwriting]) access hcount hlast latest
              (hcounted.current latest haccess)
            rcases hstorage with h | h
            · exact absurd h howner
            · rw [h, haccess] at hne
              exact absurd hsubject.symm hne
  refine { hcounted with
    current := ?_, emptied := ?_, storing := ?_, owner := ?_ }
  · rintro access ⟨⟩
  · exact fun _ _ => hemptied
  · rw [hcore, hwriting]
    rintro tokens ownerDone ⟨⟩
  · rw [hcore]
    exact hcounted.owner

/-- The owner of the session has been written. -/
theorem writeOwner
    (hcounted : own.Counted subject userOf shared last count)
    {write : SessionWrite Token Access}
    (hscript : own.script = some (.writing write false))
    (hsubject : ∀ tokens, write = .store tokens →
      ∀ token, shared.storage.refreshToken = some token →
        subject tokens.access = some (userOf token))
    (howner : shared.storage.user = write.user subject) :
    BrowserTab.Counted subject userOf shared last count
      { own with script := some (.writing write true) } := by
  have hwriting : own.core.writing = some (write, false) := by
    simp [BrowserTab.core, hscript, Script.writing?]
  refine { hcounted with emptied := ?_, storing := ?_, owner := ?_ }
  · rintro _ ⟨⟩
  · rintro tokens ownerDone ⟨⟩
    exact hcounted.storing tokens false hwriting
  · intro token hstored _ access hcount hlast latest hlatest
    cases write with
    | clear =>
        refine hcounted.owner token hstored ?_ access hcount hlast latest
          hlatest
        simp [hwriting]
    | store tokens =>
        have hcurrent := hcounted.current _
          (hcounted.storing tokens false hwriting)
        obtain rfl := Option.some.inj (hlatest.symm.trans hcurrent)
        have htoken := hsubject tokens rfl token hstored
        exact ⟨htoken, .inr (howner.trans htoken)⟩

/-- The session has been written. -/
theorem writeToken
    (hcounted : own.Counted subject userOf shared last count)
    {write : SessionWrite Token Access}
    (hscript : own.script = some (.writing write true))
    (hstored : shared.storage.refreshToken = write.refreshToken) :
    BrowserTab.Counted subject userOf shared last count
      { own with script := none, refresh := own.refresh.written } := by
  have hwriting : own.core.writing = some (write, true) := by
    simp [BrowserTab.core, hscript, Script.writing?]
  refine { hcounted with
    last_count := ?_, fresh := ?_, waits := ?_, awaits := ?_, emptied := ?_
    storing := ?_, owner := ?_ }
  · simp only [RefreshPhase.pair_written]
    exact hcounted.last_count
  · simp only [RefreshPhase.pair_written]
    exact hcounted.fresh
  · intro call sent h hidle
    exact hcounted.waits call sent h (RefreshPhase.idle_of_written hidle)
  · intro access h hpending
    exact hcounted.awaits access h (RefreshPhase.pending_of_written hpending)
  · intro hnone _ access _ _
    cases write with
    | clear => exact hstored
    | store tokens =>
        have hsome := hcounted.storing tokens true hwriting
        simp only at hnone
        rw [hnone] at hsome
        contradiction
  · rintro tokens ownerDone ⟨⟩
  · intro token hsome _
    refine hcounted.owner token hsome ?_
    simp [hwriting]

end BrowserTab.Counted

/-! ## The turns of a tab -/

namespace TabView

variable [DecidableEq Call] [DecidableEq Token] [DecidableEq Access]
  {subject : Access → Option User} {userOf : Token → User}
  {view next : TabView Tab Call Routine Token Access User}
  {last : Option Access} {count : Access → ℕ}

/-- What is known of the access tokens of a tab which is about to move. -/
def Counted
    (subject : Access → Option User) (userOf : Token → User)
    (view : TabView Tab Call Routine Token Access User)
    (last : Option Access) (count : Access → ℕ) : Prop :=
  view.own.Counted subject userOf view.shared last count

omit [DecidableEq Call] [DecidableEq Token] [DecidableEq Access] in
theorem Counted.close
    (hcounted : view.Counted subject userOf last count)
    (hscript : view.own.script = none) (hpair : view.own.refresh.pair = none)
    (locked : Bool) :
    (view.emitLogout.setRefresh (.closing locked)).Counted subject userOf
      last count := by
  have hcleared := BrowserTab.Counted.clearTokens hcounted hscript
  exact BrowserTab.Counted.setRefresh hcleared hpair.symm nofun nofun

omit [DecidableEq Call] [DecidableEq Token] [DecidableEq Access] in
theorem Counted.refreshOnce
    (hcounted : view.Counted subject userOf last count)
    (hscript : view.own.script = none) :
    view.refreshOnce.Counted subject userOf last count := by
  unfold TabView.refreshOnce
  cases hphase : view.own.refresh with
  | idle =>
      simp only
      unfold refreshAccessToken
      have hpair : view.own.refresh.pair = none := by rw [hphase]; rfl
      cases view.storedToken with
      | none => exact hcounted.close hscript hpair false
      | some token =>
          exact BrowserTab.Counted.setRefresh hcounted hpair.symm nofun
            (fun _ => .inr hphase)
  | _ => exact hcounted

omit [DecidableEq Call] [DecidableEq Token] [DecidableEq Access] in
theorem Counted.present
    (hcounted : view.Counted subject userOf last count)
    (hscript : view.own.script = none)
    (hphase : view.own.refresh = .reading) :
    (view.present view.storedToken).Counted subject userOf last count := by
  have hpair : view.own.refresh.pair = none := by rw [hphase]; rfl
  cases view.storedToken with
  | none => exact hcounted.close hscript hpair true
  | some token =>
      refine BrowserTab.Counted.setRefresh hcounted hpair.symm nofun ?_
      exact fun _ => .inl (by rw [hphase]; rfl)

omit [DecidableEq Call] [DecidableEq Access] in
theorem Counted.check
    (hcounted : view.Counted subject userOf last count)
    (hscript : view.own.script = none)
    {sent : Token} {reply : RefreshReply Token Access}
    (hphase : view.own.refresh = .replied sent reply)
    (hstored : view.storedToken = some sent) :
    (view.check sent reply).Counted subject userOf last count := by
  unfold TabView.check
  simp only [hstored, ne_eq, not_true_eq_false, if_false]
  cases reply with
  | refused =>
      exact hcounted.close hscript (by rw [hphase]; rfl) true
  | failed =>
      exact BrowserTab.Counted.setRefresh hcounted (by rw [hphase]; rfl)
        nofun nofun
  | pair tokens =>
      refine BrowserTab.Counted.setRefresh hcounted (by rw [hphase]; rfl)
        nofun ?_
      exact fun _ => .inl (by rw [hphase]; rfl)

omit [DecidableEq Token] [DecidableEq Access] in
theorem Counted.rawRequest
    (hcounted : view.Counted subject userOf last count)
    (hscript : view.own.script = none) (call : Call) (withoutSession : Bool) :
    (view.rawRequest call withoutSession).Counted subject userOf last
      count := by
  unfold TabView.rawRequest
  split
  · exact BrowserTab.Counted.setCall_plain hcounted call rfl nofun nofun
  split
  · have hcalled : (view.setCall call .bootstrapping).Counted subject userOf
        last count :=
      BrowserTab.Counted.setCall_plain hcounted call rfl nofun nofun
    have hstill : (view.setCall call .bootstrapping).own.script = none :=
      hscript
    refine BrowserTab.Counted.setScript hcalled ?_
    rw [hstill]
    rfl
  · exact BrowserTab.Counted.send hcounted call nofun

omit [DecidableEq Token] [DecidableEq Access] in
theorem refreshOnce_setCall (call : Call) (phase : CallPhase Access) :
    (view.setCall call phase).refreshOnce =
      view.refreshOnce.setCall call phase := by
  unfold TabView.refreshOnce refreshAccessToken
  cases hphase : view.own.refresh with
  | idle =>
      simp only [setCall, hphase, storedToken]
      cases view.shared.storage.refreshToken with
      | _ => rfl
  | _ => simp only [setCall, hphase]

omit [DecidableEq Call] [DecidableEq Token] [DecidableEq Access] in
theorem refreshOnce_ne_idle : view.refreshOnce.own.refresh ≠ .idle := by
  unfold TabView.refreshOnce
  cases hphase : view.own.refresh with
  | idle =>
      simp only
      unfold refreshAccessToken
      cases view.storedToken with
      | none => nofun
      | some token => nofun
  | _ =>
      rw [hphase]
      nofun

omit [DecidableEq Call] [DecidableEq Token] [DecidableEq Access] in
theorem refreshOnce_shared : view.refreshOnce.shared = view.shared := by
  unfold TabView.refreshOnce
  cases view.own.refresh with
  | idle =>
      simp only
      unfold refreshAccessToken
      cases view.storedToken with
      | _ => rfl
  | _ => rfl

omit [DecidableEq Call] [DecidableEq Token] [DecidableEq Access] in
/-- A request waits for the refresh only if the tab still has its access
token, or has none. -/
theorem Counted.joins
    (hcounted : view.Counted subject userOf last count)
    (hscript : view.own.script = none) {call : Call} {access : Access}
    (hcall : view.own.calls call = .sent (some access) .first)
    (hold : ¬ (view.own.accessToken ≠ none ∧
      view.own.accessToken ≠ some access)) :
    last = some access ∨ view.shared.storage.refreshToken = none := by
  by_cases hlast : last = some access
  · exact .inl hlast
  · by_cases haccess : view.own.accessToken = none
    · refine .inr (hcounted.emptied haccess
        (core_writing_of_script hscript) access ?_ hlast)
      have hcount : count access = 1 :=
        (hcounted.first call access (by rw [hcall]; rfl)).resolve_left hlast
      rw [hcount]
      decide
    · by_cases hsame : view.own.accessToken = some access
      · exact absurd (hcounted.current access hsame) hlast
      · exact absurd ⟨haccess, hsame⟩ hold

omit [DecidableEq Token] in
/-- A 401: the request takes the token which another refresh has brought, or
waits for the one that replaces its own. -/
theorem Counted.respond
    (hcounted : view.Counted subject userOf last count)
    (hscript : view.own.script = none)
    {call : Call} {sent : Option Access} {attempt : Attempt Access}
    (hcall : view.own.calls call = .sent sent attempt) (answer : CallAnswer) :
    (view.respond call sent attempt answer).Counted subject userOf last
      count := by
  cases answer with
  | ok | error | lost =>
      exact BrowserTab.Counted.setCall_plain hcounted call rfl nofun nofun
  | unauthorized =>
      unfold TabView.respond
      simp only
      split
      · exact BrowserTab.Counted.setCall_plain hcounted call rfl nofun nofun
      rename_i hretry
      have hfirst : attempt = .first := by
        cases attempt with
        | first => rfl
        | _ => exact absurd rfl hretry
      subst hfirst
      split
      · rename_i hnew
        refine BrowserTab.Counted.send hcounted call ?_
        rintro access old haccess hattempt hne
        obtain rfl := Attempt.after.inj hattempt
        exact BrowserTab.Counted.count_eq_one hcounted
          (by rw [hcall]; rfl) haccess hne
      · rename_i hold
        rw [refreshOnce_setCall]
        refine BrowserTab.Counted.setCall (hcounted.refreshOnce hscript)
          ?_ nofun ?_ ?_
        · rintro access rfl
          exact hcounted.first call access (by rw [hcall]; rfl)
        · exact fun _ _ => refreshOnce_ne_idle
        · rintro access hsame -
          obtain rfl := CallPhase.unauthorized.inj hsame
          rw [refreshOnce_shared]
          exact hcounted.joins hscript hcall hold

omit [DecidableEq Token] [DecidableEq Access] in
theorem Counted.resume
    (hcounted : view.Counted subject userOf last count) {call : Call}
    (hresume : view.resume call = some next) :
    next.Counted subject userOf last count := by
  unfold TabView.resume at hresume
  split at hresume
  · obtain rfl := Option.some.inj hresume
    exact BrowserTab.Counted.setCall_plain hcounted call rfl nofun nofun
  · obtain rfl := Option.some.inj hresume
    exact BrowserTab.Counted.setCall_plain hcounted call rfl nofun nofun
  · obtain rfl := Option.some.inj hresume
    exact BrowserTab.Counted.setCall_plain hcounted call rfl nofun nofun
  · obtain rfl := Option.some.inj hresume
    exact BrowserTab.Counted.send hcounted call nofun
  · rename_i sent hcall
    obtain rfl := Option.some.inj hresume
    refine BrowserTab.Counted.send hcounted call ?_
    rintro access old haccess hattempt hne
    obtain rfl := Attempt.after.inj hattempt
    exact BrowserTab.Counted.count_eq_one hcounted
      (by rw [hcall]; rfl) haccess hne
  · contradiction

/-- Every turn outside logins and logouts, but for the one which brings a new
pair. -/
theorem Counted.turn [DecidableEq Routine]
    (hcounted : view.Counted subject userOf last count)
    (hscript : view.own.script = none)
    (hsettled : view.core.own.Settled view.storedToken)
    {turn : Turn Call Routine} (hquiet : turn.disturbs = false)
    (hreceive : turn ≠ .receive) (hturn : view.turn turn = some next) :
    next.Counted subject userOf last count := by
  cases turn with
  | lose | login | enter | abandon | logout | leave => contradiction
  | receive => exact absurd rfl hreceive
  | present =>
      simp only [TabView.turn] at hturn
      split at hturn
      · rename_i hphase
        obtain rfl := Option.some.inj hturn
        exact hcounted.present hscript hphase
      · contradiction
  | check =>
      simp only [TabView.turn] at hturn
      split at hturn
      · rename_i sent reply hphase
        obtain rfl := Option.some.inj hturn
        refine hcounted.check hscript hphase (hsettled.sent sent ?_)
        simp [core, BrowserTab.core, hphase, RefreshPhase.sent]
      · contradiction
  | unlock =>
      simp only [TabView.turn] at hturn
      split at hturn
      · rename_i renewal hphase
        obtain rfl := Option.some.inj hturn
        have hunlocked : (view.setRefresh (.settled renewal)).Counted subject
            userOf last count := by
          refine BrowserTab.Counted.setRefresh hcounted (by rw [hphase]; rfl)
            ?_ ?_
          · rintro ⟨⟩
          · rintro ⟨⟩
        exact BrowserTab.Counted.of_follows hunlocked (.of_storage (Finset.Subset.refl _) rfl)
      · contradiction
  | settle =>
      simp only [TabView.turn] at hturn
      split at hturn
      · rename_i renewal hphase
        obtain rfl := Option.some.inj hturn
        exact BrowserTab.Counted.settle hcounted (by rw [hphase]; rfl)
      · contradiction
  | refreshSession =>
      obtain rfl := Option.some.inj hturn
      exact hcounted.refreshOnce hscript
  | request call withoutSession =>
      simp only [TabView.turn] at hturn
      split at hturn
      · obtain rfl := Option.some.inj hturn
        exact hcounted.rawRequest hscript call withoutSession
      · contradiction
  | respond call answer =>
      simp only [TabView.turn] at hturn
      split at hturn
      · rename_i sent attempt hcall
        obtain rfl := Option.some.inj hturn
        exact hcounted.respond hscript hcall answer
      · obtain rfl := Option.some.inj hturn
        refine BrowserTab.Counted.setCall_plain hcounted call rfl ?_ ?_
        · rintro token sent ⟨⟩
        · rintro sent ⟨⟩
      · contradiction
  | resume call => exact hcounted.resume hturn
  | storageEvent =>
      simp only [TabView.turn] at hturn
      split at hturn
      · obtain rfl := Option.some.inj hturn
        have hcleared := BrowserTab.Counted.clearTokens hcounted hscript
        exact hcleared
      · obtain rfl := Option.some.inj hturn
        refine BrowserTab.Counted.setScript hcounted ?_
        rw [hscript]
        rfl

omit [DecidableEq Call] [DecidableEq Token] [DecidableEq Access] in
/-- The running script goes on. -/
theorem Counted.proceed [DecidableEq User]
    (hcounted : view.Counted subject userOf last count)
    (hsettled : view.core.own.Settled view.storedToken)
    (hsame : view.core.own.SameUser subject userOf)
    {script : Script Token Access} (hscript : view.own.script = some script)
    (hfollows : view.shared.Follows userOf
      (view.proceed subject script).shared) :
    (view.proceed subject script).Counted subject userOf last count := by
  cases script with
  | refreshing =>
      have hstopped :
          (view.setScript none).Counted subject userOf last count :=
        BrowserTab.Counted.setScript hcounted (by rw [hscript]; rfl)
      exact hstopped.refreshOnce rfl
  | matching =>
      change (view.matchOwner subject).Counted subject userOf last count
      unfold TabView.matchOwner
      simp only
      split
      · rename_i hother
        have hwriting : view.own.core.writing = none := by
          simp [BrowserTab.core, hscript, Script.writing?]
        have hforgotten := BrowserTab.Counted.matchOwner hcounted hwriting
          hother.1 hother.2.1 hother.2.2
        exact hforgotten
      · refine BrowserTab.Counted.setScript hcounted ?_
        rw [hscript]
        rfl
  | writing write ownerDone =>
      have hwriting : view.core.own.writing = some (write, ownerDone) := by
        simp [core, BrowserTab.core, hscript, Script.writing?]
      have hafter := BrowserTab.Counted.of_follows hcounted hfollows
      cases ownerDone with
      | true =>
          have hwritten := BrowserTab.Counted.writeToken hafter hscript rfl
          exact hwritten
      | false =>
          refine BrowserTab.Counted.writeOwner hafter hscript ?_ rfl
          rintro tokens rfl token hstored
          obtain ⟨sent, hphase⟩ := hsettled.stores tokens false hwriting
          have hsent := hsettled.sent sent (by rw [hphase]; rfl)
          obtain rfl := Option.some.inj (hsent.symm.trans hstored)
          exact (hsame.storing sent tokens false hphase hwriting).2

end TabView

/-! ## Runs -/

section Browser

variable [DecidableEq Tab] [DecidableEq Call] [DecidableEq Routine]
  [DecidableEq Token] [DecidableEq Access] [DecidableEq User]

/-- The browser together with the rotations of its tabs. -/
noncomputable abbrev countedBrowser
    (Tab Call Routine : Type) [DecidableEq Tab] [DecidableEq Call]
    [DecidableEq Routine]
    (subject : Access → Option User) (userOf : Token → User) :
    Machine
      (BrowserState Tab Call Routine Token Access User ×
        Rotations Tab Access)
      (Tab × BrowserMove Call Routine Token Access) :=
  (browserMachine Call Routine subject userOf).observed
    (fun state => ⟨fun tab => (state.own tab).accessToken, fun _ _ => 0⟩)
    (countRotations subject userOf)

structure BrowserState.Counted
    (subject : Access → Option User) (userOf : Token → User)
    (state : BrowserState Tab Call Routine Token Access User)
    (seen : Rotations Tab Access) : Prop where
  settled : BrowserState.Settled state
  sameUser : ∀ tab, (state.own tab).core.SameUser subject userOf
  tab : ∀ tab, (state.own tab).Counted subject userOf state.shared
    (seen.last tab) (seen.count tab)

variable {subject : Access → Option User} {userOf : Token → User}
  {state next : BrowserState Tab Call Routine Token Access User}
  {seen : Rotations Tab Access}

omit [DecidableEq Tab] [DecidableEq Call] [DecidableEq Routine]
  [DecidableEq Token] [DecidableEq Access] [DecidableEq User] in
theorem BrowserState.Start.counted (hstart : state.Start) :
    BrowserState.Counted subject userOf state
      ⟨fun tab => (state.own tab).accessToken, fun _ _ => 0⟩ := by
  have hphase : ∀ tab, (state.own tab).core.refresh = .idle := hstart.refresh
  refine ⟨BrowserState.Start.settled hstart, fun tab => ⟨?_, ?_⟩, ?_⟩
  · intro sent tokens h
    rw [hphase tab] at h
    rcases h with h | h
    · contradiction
    · contradiction
  · intro sent tokens ownerDone h
    rw [hphase tab] at h
    contradiction
  · intro tab
    have hzero : ∀ access : Access, (0 : ℕ) ≠ 0 → False := fun _ h => h rfl
    have hcalls : ∀ call, (state.own tab).calls call = .idle :=
      hstart.calls tab
    refine
      { current := fun access h => h
        issued := ?_, le_one := fun _ => Nat.zero_le 1, last_count := ?_
        fresh := ?_, first := ?_, again := ?_, waits := ?_, awaits := ?_
        emptied := fun _ _ access h => (hzero access h).elim
        storing := ?_
        owner := fun _ _ _ access h => (hzero access h).elim }
    · rintro access (h | h)
      · exact hstart.held tab access h
      · exact (hzero access h).elim
    · intro access _
      rw [hstart.refresh tab]
      rfl
    · intro tokens h
      rw [hstart.refresh tab] at h
      contradiction
    · intro call access h
      rw [hcalls call] at h
      contradiction
    · intro call access sent h
      rw [hcalls call] at h
      contradiction
    · intro call sent h
      rw [hcalls call] at h
      contradiction
    · rintro access ⟨call, h⟩
      rw [hcalls call] at h
      contradiction
    · intro tokens ownerDone h
      simp [BrowserTab.core, hstart.script tab] at h

omit [DecidableEq Tab] in
theorem TabView.advance_refreshStep
    {tab : Tab} {view next : TabView Tab Call Routine Token Access User}
    {move : BrowserMove Call Routine Token Access}
    (hquiet : move.disturbs = false)
    (hadvance : TabView.advance subject userOf tab view move = some next) :
    RefreshStep subject userOf tab view.core next.core := by
  rcases TabView.advance_core hadvance with hcore | ⟨hdisturbs, -⟩
  · exact hcore
  · rw [hquiet] at hdisturbs
    contradiction

omit [DecidableEq Tab] in
/-- Every move but a rotation: no rotation is counted. -/
theorem TabView.Counted.advance
    {tab : Tab} {view next : TabView Tab Call Routine Token Access User}
    {last : Option Access} {count : Access → ℕ}
    {move : BrowserMove Call Routine Token Access}
    (hcounted : view.Counted subject userOf last count)
    (hsettled : view.core.own.Settled view.storedToken)
    (hsame : view.core.own.SameUser subject userOf)
    (hquiet : move.disturbs = false)
    (hrotate : ∀ tokens, move ≠ .rotate tokens)
    (hadvance : view.advance subject userOf tab move = some next) :
    next.Counted subject userOf (next.own.accessToken.or last) count := by
  have hstep := TabView.advance_refreshStep hquiet hadvance
  have hkeeps : next.Counted subject userOf last count →
      next.Counted subject userOf (next.own.accessToken.or last) count := by
    intro hnext
    rw [BrowserTab.Counted.latest hnext]
    exact hnext
  cases move with
  | authenticate => contradiction
  | rotate tokens => exact absurd rfl (hrotate tokens)
  | turn turn =>
      simp only [TabView.advance] at hadvance
      split at hadvance
      · rename_i hscript
        by_cases hreceive : turn = .receive
        · subst hreceive
          simp only [TabView.turn] at hadvance
          split at hadvance
          · rename_i sent tokens hphase
            obtain rfl := Option.some.inj hadvance
            exact BrowserTab.Counted.receive hcounted hphase
          · contradiction
        · exact hkeeps (hcounted.turn hscript hsettled hquiet hreceive
            hadvance)
      · contradiction
  | proceed =>
      obtain ⟨script, hscript, rfl⟩ := Option.map_eq_some_iff.mp hadvance
      exact hkeeps (hcounted.proceed hsettled hsame hscript
        (hstep.follows hsettled hsame))
  | acquire =>
      simp only [TabView.advance] at hadvance
      split at hadvance
      · rename_i hphase _
        obtain rfl := Option.some.inj hadvance
        have hreading : (view.setRefresh .reading).Counted subject userOf last
            count :=
          BrowserTab.Counted.setRefresh hcounted (by rw [hphase]; rfl)
            (by rintro ⟨⟩) (fun _ => .inl (by rw [hphase]; rfl))
        exact hkeeps (BrowserTab.Counted.of_follows hreading
          (.of_storage (Finset.Subset.refl _) rfl))
      · contradiction
  | refuse | fail =>
      simp only [TabView.advance] at hadvance
      split at hadvance
      · rename_i sent hphase
        obtain rfl := Option.some.inj hadvance
        exact hkeeps (BrowserTab.Counted.setRefresh hcounted
          (by rw [hphase]; rfl) (by rintro ⟨⟩)
          (fun _ => .inl (by rw [hphase]; rfl)))
      · contradiction

omit [DecidableEq Tab] in
theorem countRotations_count_of_ne
    {action : Tab × BrowserMove Call Routine Token Access}
    (hrotate : ∀ tokens, action.2 ≠ .rotate tokens) (tab : Tab) :
    (countRotations subject userOf state action seen).count tab =
      seen.count tab := by
  obtain ⟨mover, move⟩ := action
  cases move with
  | rotate tokens => exact absurd rfl (hrotate tokens)
  | _ => rfl

omit [DecidableEq Tab] in
theorem countRotations_count_of_other
    {action : Tab × BrowserMove Call Routine Token Access} {tab : Tab}
    (hne : tab ≠ action.1) :
    (countRotations subject userOf state action seen).count tab =
      seen.count tab := by
  obtain ⟨mover, move⟩ := action
  cases move with
  | rotate tokens =>
      funext access
      exact if_neg fun h => hne h.1
  | _ => rfl

omit [DecidableEq Tab] in
theorem countRotations_count_rotate
    (tab : Tab) (tokens : TokenPair Token Access) (access : Access) :
    (seen.last tab = some access ∨ (state.own tab).AwaitsFor access) ∧
        (countRotations subject userOf state (tab, .rotate tokens) seen).count
          tab access = seen.count tab access + 1 ∨
      seen.last tab ≠ some access ∧
        (countRotations subject userOf state (tab, .rotate tokens) seen).count
          tab access = seen.count tab access := by
  by_cases hcause :
      seen.last tab = some access ∨ (state.own tab).AwaitsFor access
  · exact .inl ⟨hcause, if_pos ⟨rfl, hcause⟩⟩
  · exact .inr ⟨fun h => hcause (.inl h), if_neg fun h => hcause h.2⟩

omit [DecidableEq Tab] in
/-- What a move means for the access tokens of the tab that makes it. -/
theorem BrowserState.Counted.advance
    {tab : Tab} {view : TabView Tab Call Routine Token Access User}
    {move : BrowserMove Call Routine Token Access}
    (hcounted : BrowserState.Counted subject userOf state seen)
    (hquiet : move.disturbs = false)
    (hadvance : TabView.advance subject userOf tab (state.view tab) move =
      some view) :
    view.own.Counted subject userOf view.shared
      (view.own.accessToken.or (seen.last tab))
      ((countRotations subject userOf state (tab, move) seen).count tab) := by
  have hstep := TabView.advance_refreshStep hquiet hadvance
  have hfollows := hstep.follows (hcounted.settled.tab tab)
    (hcounted.sameUser tab)
  by_cases hrotate : ∃ tokens, move = .rotate tokens
  · obtain ⟨tokens, rfl⟩ := hrotate
    simp only [TabView.advance] at hadvance
    split at hadvance
    · rename_i sent hphase
      split at hadvance
      · rename_i hguard
        obtain rfl := Option.some.inj hadvance
        have hstored : state.shared.storage.refreshToken = some sent := by
          refine (hcounted.settled.tab tab).sent sent ?_
          rw [show (state.own tab).core.refresh = .inFlight sent from hphase]
          rfl
        have hnext : BrowserTab.Counted subject userOf _ (seen.last tab)
            ((countRotations subject userOf state (tab, .rotate tokens)
              seen).count tab) _ :=
          (hcounted.tab tab).rotate hphase hstored hguard.2.1.2.1 hfollows
            (Finset.mem_insert_self _ _)
            (countRotations_count_rotate tab tokens)
        rw [← hnext.latest] at hnext
        exact hnext
      · contradiction
    · contradiction
  · have hne : ∀ tokens, move ≠ .rotate tokens :=
      fun tokens h => hrotate ⟨tokens, h⟩
    have htab : TabView.Counted subject userOf (state.view tab)
        (seen.last tab) (seen.count tab) := hcounted.tab tab
    rw [countRotations_count_of_ne hne]
    exact htab.advance (hcounted.settled.tab tab) (hcounted.sameUser tab)
      hquiet hne hadvance

theorem BrowserState.Counted.step
    (hcounted : BrowserState.Counted subject userOf state seen)
    (hreach : (browserMachine Call Routine subject userOf).Reachable state)
    {action : Tab × BrowserMove Call Routine Token Access}
    (hquiet : Undisturbing action)
    (hstep : (browserMachine Call Routine subject userOf).step state action =
      some next) :
    BrowserState.Counted subject userOf next
      (countRotations subject userOf state action seen) := by
  have hsettled := hcounted.settled.step hreach hquiet hstep
  obtain ⟨tab, move⟩ := action
  obtain ⟨view, hadvance, rfl⟩ := Machine.agents_step hstep
  have hcore := TabView.advance_refreshStep hquiet hadvance
  have hfollows := hcore.follows (hcounted.settled.tab tab)
    (hcounted.sameUser tab)
  have hlast : ∀ other,
      (countRotations subject userOf state (tab, move) seen).last other =
        if other = tab then view.own.accessToken.or (seen.last tab)
        else seen.last other := by
    intro other
    by_cases heq : other = tab
    · subst heq
      simp [countRotations, hadvance]
    · simp [countRotations, heq]
  refine ⟨hsettled, ?_, ?_⟩
  · exact Agents.forall_put
      (fun _ (own : BrowserTab Call Routine Token Access) =>
        own.core.SameUser subject userOf)
      (hcore.sameUser (hcounted.sameUser tab))
      (fun other _ => hcounted.sameUser other)
  · refine Agents.forall_put
      (fun other (own : BrowserTab Call Routine Token Access) =>
        own.Counted subject userOf view.shared
          ((countRotations subject userOf state (tab, move) seen).last other)
          ((countRotations subject userOf state (tab, move) seen).count
            other)) ?_ ?_
    · rw [hlast, if_pos rfl]
      exact hcounted.advance hquiet hadvance
    · intro other hne
      rw [hlast, if_neg hne, countRotations_count_of_other hne]
      exact (hcounted.tab other).of_follows hfollows

theorem BrowserState.counted
    (hreach : (countedBrowser Tab Call Routine subject userOf).ReachableWhere
      (fun _ => Undisturbing) (state, seen)) :
    BrowserState.Counted subject userOf state seen := by
  refine @Machine.observed_invariant _ _ _ _ _ _ (fun _ => Undisturbing)
    (BrowserState.Counted subject userOf) ?_ ?_ _ hreach
  · exact fun state hstart => BrowserState.Start.counted hstart
  · intro state seen action next hreach hcounted hquiet hstep
    exact hcounted.step hreach hquiet hstep

/-- No request presents a token that has been rotated.  The requests of a tab
that were sent with one access token cause at most one rotation, and exactly
one once one of them is sent again with another access token. -/
theorem refresh_token_presented_once
    (subject : Access → Option User) (userOf : Token → User)
    {state : BrowserState Tab Call Routine Token Access User}
    {seen : Rotations Tab Access}
    (hreach : (countedBrowser Tab Call Routine subject userOf).ReachableWhere
      (fun _ => Undisturbing) (state, seen)) :
    (∀ tab token, (state.own tab).refresh = .inFlight token →
      token ∉ state.shared.rotated) ∧
    (∀ tab access, seen.count tab access ≤ 1) ∧
    ∀ tab call access sent,
      (state.own tab).calls call = .sent (some access) (.after (some sent)) →
        access ≠ sent → seen.count tab sent = 1 := by
  have hcounted := BrowserState.counted hreach
  refine ⟨?_, ?_, ?_⟩
  · exact fun tab token h => BrowserState.presented_once hreach.forget h
  · exact fun tab => (hcounted.tab tab).le_one
  · exact fun tab => (hcounted.tab tab).again

end Browser

/-! ## Two requests of one tab -/

/-- One tab of a browser in which every token belongs to user 0. -/
def oneTab : BrowserState Unit Bool Unit ℕ ℕ ℕ where
  shared :=
    { storage := ⟨some 0, some 0⟩
      lock := none
      tokens := {0}
      accesses := {0}
      rotated := ∅ }
  own _ :=
    { accessToken := some 0
      script := none
      refresh := .idle
      calls := fun _ => .idle
      routines := fun _ => .idle }

theorem oneTab_start : oneTab.Start := by
  refine ⟨rfl, fun _ => rfl, fun _ => rfl, fun _ _ => rfl, fun _ _ => rfl,
    ?_, ?_, ?_⟩
  · rintro token ⟨⟩
    decide
  · decide
  · rintro tab access ⟨⟩
    decide

noncomputable abbrev oneTabMachine :=
  countedBrowser Unit Bool Unit (fun _ : ℕ => some 0) (fun _ : ℕ => 0)

noncomputable def oneTabRotations : Rotations Unit ℕ :=
  ⟨fun _ => some 0, fun _ _ => 0⟩

theorem oneTab_initial : oneTabMachine.Initial (oneTab, oneTabRotations) :=
  ⟨oneTab_start, rfl⟩

/-- Two requests are sent with the same access token, and both receive a 401;
the second one joins the refresh which the first one has started. -/
def twoUnauthorized : List (Unit × BrowserMove Bool Unit ℕ ℕ) :=
  [((), .turn (.request false false)), ((), .turn (.request true false)),
    ((), .turn (.respond false .unauthorized)),
    ((), .turn (.respond true .unauthorized)), ((), .acquire),
    ((), .turn .present)]

/-- The server is down: the requests fail. -/
def refreshFails : List (Unit × BrowserMove Bool Unit ℕ ℕ) :=
  [((), .fail), ((), .turn .check), ((), .turn .unlock), ((), .turn .settle),
    ((), .turn (.resume false)), ((), .turn (.resume true))]

def refreshSucceeds : List (Unit × BrowserMove Bool Unit ℕ ℕ) :=
  [((), .rotate ⟨1, 1⟩), ((), .turn .check), ((), .turn .receive),
    ((), .proceed), ((), .proceed), ((), .turn .unlock), ((), .turn .settle),
    ((), .turn (.resume false)), ((), .turn (.resume true))]

theorem refresh_token_presented_once_twoCalls :
    ∃ state seen,
      oneTabMachine.run (oneTab, oneTabRotations)
        (twoUnauthorized ++ refreshSucceeds) = some (state, seen) ∧
      (∀ call, (state.own ()).calls call = .sent (some 1) (.after (some 0))) ∧
      seen.count () 0 = 1 := by
  have hallowed : oneTabMachine.AllowedAlong (fun _ => Undisturbing)
      (oneTab, oneTabRotations) (twoUnauthorized ++ refreshSucceeds) :=
    oneTabMachine.allowedAlong_of_forall
      (fun action hmem _ => (by decide :
        ∀ action ∈ twoUnauthorized ++ refreshSucceeds,
          Undisturbing action) action hmem) _
  obtain ⟨⟨state, seen⟩, hrun, hcalls⟩ : ∃ state,
      oneTabMachine.run (oneTab, oneTabRotations)
        (twoUnauthorized ++ refreshSucceeds) = some state ∧
      ∀ call, (state.1.own ()).calls call =
        .sent (some 1) (.after (some 0)) := by
    refine ⟨_, rfl, ?_⟩
    rintro (_ | _)
    · rfl
    · rfl
  refine ⟨state, seen, hrun, hcalls, ?_⟩
  exact (refresh_token_presented_once _ _
    (Machine.ReachableWhere.run (.initial oneTab_initial) hallowed hrun)).2.2
      () true 1 0 (hcalls true) (by decide)

/-- The claimed rotation does not take place. -/
theorem no_rotation_when_refresh_fails :
    ∃ state seen,
      oneTabMachine.run (oneTab, oneTabRotations)
        (twoUnauthorized ++ refreshFails) = some (state, seen) ∧
      (∀ action ∈ twoUnauthorized ++ refreshFails, Undisturbing action) ∧
      (∀ call, (state.own ()).calls call = .ended .threw) ∧
      seen.count () 0 = 0 := by
  refine ⟨_, _, rfl, by decide, ?_, rfl⟩
  rintro (_ | _)
  · rfl
  · rfl

end NotifyHub
