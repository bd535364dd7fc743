import NotifyHub.SessionCore
import Mathlib.Tactic

/-!
# Where a refresh token comes from

A pair which the server issues travels from the response into the script that
stores it, and no other place has it meanwhile.  A token that is stored is
therefore none of those which have been stored, presented or rotated before.
-/

namespace NotifyHub

variable {Tab Call Routine Token Access User : Type}

/-- The places of a tab where a pair waits to be stored. -/
inductive SessionPlace (Routine : Type)
  | refresh
  | script
  | routine (routine : Routine)
  deriving DecidableEq

def RefreshPhase.pair : RefreshPhase Token Access → Option (TokenPair Token Access)
  | .replied _ (.pair tokens) | .readingBody _ tokens => some tokens
  | _ => none

/-- The token which the refresh has sent. -/
def RefreshPhase.sent : RefreshPhase Token Access → Option Token
  | .inFlight sent | .replied sent _ | .readingBody sent _ | .storing sent =>
      some sent
  | _ => none

def SessionWrite.pair : SessionWrite Token Access → Option (TokenPair Token Access)
  | .store tokens => some tokens
  | .clear => none

def SessionCore.held
    (own : SessionCore Routine Token Access) :
    SessionPlace Routine → Option Token
  | .refresh => own.refresh.pair.map TokenPair.refresh
  | .script =>
      (own.writing.bind fun entry => entry.1.pair).map TokenPair.refresh
  | .routine routine => (own.entering routine).map TokenPair.refresh

/-- The tokens which have been in the storage or at the server. -/
def BrowserShared.used
    (shared : BrowserShared Tab Token Access User)
    (sent : Tab → Option Token) : Set Token :=
  {token | token ∈ shared.rotated ∨
    shared.storage.refreshToken = some token ∨ ∃ tab, sent tab = some token}

@[simp] theorem RefreshPhase.pair_written (phase : RefreshPhase Token Access) :
    phase.written.pair = phase.pair := by
  cases phase with
  | closing locked => cases locked <;> rfl
  | _ => rfl

theorem RefreshPhase.sent_of_written
    {phase : RefreshPhase Token Access} {token : Token}
    (hsent : phase.written.sent = some token) : phase.sent = some token := by
  cases phase with
  | closing locked => cases locked <;> contradiction
  | storing sent => contradiction
  | _ => exact hsent

section Steps

variable [DecidableEq Tab] {shared shared' : BrowserShared Tab Token Access User}
  {sent : Tab → Option Token} {sent' : Option Token} {tab : Tab}

theorem BrowserShared.used_subset
    {bound : Set Token} (hused : shared.used sent ⊆ bound)
    (hrotated : ∀ token ∈ shared'.rotated, token ∈ bound)
    (hstored : ∀ token,
      shared'.storage.refreshToken = some token → token ∈ bound)
    (hsent : ∀ token, sent' = some token → token ∈ bound) :
    shared'.used (Function.update sent tab sent') ⊆ bound := by
  rintro token (hmem | hmem | ⟨other, hmem⟩)
  · exact hrotated token hmem
  · exact hstored token hmem
  · by_cases heq : other = tab
    · subst heq
      rw [Function.update_self] at hmem
      exact hsent token hmem
    · rw [Function.update_of_ne heq] at hmem
      exact hused (.inr (.inr ⟨other, hmem⟩))

/-- The storage and the server are as before. -/
theorem BrowserShared.used_subset_of_eq
    (hrotated : shared'.rotated = shared.rotated)
    (hstored : shared'.storage.refreshToken = shared.storage.refreshToken)
    (hsent : ∀ token, sent' = some token → token ∈ shared.used sent) :
    shared'.used (Function.update sent tab sent') ⊆ shared.used sent := by
  refine BrowserShared.used_subset (Set.Subset.refl _) ?_ ?_ hsent
  · intro token hmem
    exact .inl (hrotated ▸ hmem)
  · intro token hmem
    exact .inr (.inl (hstored ▸ hmem))

end Steps

section Travel

variable [DecidableEq Tab] [DecidableEq Routine] [DecidableEq Token]
  [DecidableEq Access]
  {subject : Access → Option User} {userOf : Token → User} {tab : Tab}
  {view next : CoreView Tab Routine Token Access User}
  {held : Tab → SessionPlace Routine → Option Token}
  {sent : Tab → Option Token}

omit [DecidableEq Routine] [DecidableEq Token] [DecidableEq Access] in
/-- What a step needs when it issues nothing, moves nothing and leaves the
storage and the server as they are. -/
theorem issuedOnce_of_kept
    (honce : IssuedOnce held (view.shared.used sent) view.shared.tokens)
    (hheld : held tab = view.own.held) (hsent : sent tab = view.own.refresh.sent)
    (hkept : ∀ place token,
      next.own.held place = some token → view.own.held place = some token)
    (hrotated : next.shared.rotated = view.shared.rotated)
    (hstored : next.shared.storage.refreshToken =
      view.shared.storage.refreshToken)
    (htokens : next.shared.tokens = view.shared.tokens)
    (hpresented : ∀ token, next.own.refresh.sent = some token →
      view.own.refresh.sent = some token ∨
        view.shared.storage.refreshToken = some token) :
    IssuedOnce (Function.update held tab next.own.held)
      (next.shared.used (Function.update sent tab next.own.refresh.sent))
      next.shared.tokens := by
  rw [htokens]
  refine honce.keep (hheld ▸ hkept) ?_
  refine BrowserShared.used_subset_of_eq hrotated hstored ?_
  intro token hmem
  rcases hpresented token hmem with hbefore | hread
  · exact .inr (.inr ⟨tab, hsent ▸ hbefore⟩)
  · exact .inr (.inl hread)

theorem RefreshStep.issuedOnce
    (hstep : RefreshStep subject userOf tab view next)
    (honce : IssuedOnce held (view.shared.used sent) view.shared.tokens)
    (hheld : held tab = view.own.held)
    (hsent : sent tab = view.own.refresh.sent) :
    IssuedOnce (Function.update held tab next.own.held)
      (next.shared.used (Function.update sent tab next.own.refresh.sent))
      next.shared.tokens := by
  cases hstep with
  | rest =>
      exact issuedOnce_of_kept honce hheld hsent (fun _ _ h => h) rfl rfl rfl
        (fun _ h => .inl h)
  | wait hidle | unlock hidle | settle hidle | acquire hidle =>
      refine issuedOnce_of_kept honce hheld hsent ?_ rfl rfl rfl nofun
      rintro (_ | _ | routine) token h
      · contradiction
      · exact h
      · exact h
  | closeUnlocked | closeMissing | closeRefused =>
      refine issuedOnce_of_kept honce hheld hsent ?_ rfl rfl rfl nofun
      rintro (_ | _ | routine) token h
      · contradiction
      · contradiction
      · exact h
  | forget =>
      refine issuedOnce_of_kept honce hheld hsent ?_ rfl rfl rfl
        (fun _ h => .inl h)
      rintro (_ | _ | routine) token h
      · exact h
      · contradiction
      · exact h
  | present _ _ hstored =>
      refine issuedOnce_of_kept honce hheld hsent ?_ rfl rfl rfl ?_
      · rintro (_ | _ | routine) token h
        · contradiction
        · exact h
        · exact h
      · intro token h
        exact .inr (hstored.trans h)
  | giveUp =>
      refine issuedOnce_of_kept honce hheld hsent ?_ rfl rfl rfl nofun
      rintro (_ | _ | routine) token h
      · contradiction
      · exact h
      · exact h
  | @answer _ _ _ reply hphase hreply =>
      refine issuedOnce_of_kept honce hheld hsent ?_ rfl rfl rfl ?_
      · rintro (_ | _ | routine) token h
        · cases reply with
          | pair tokens => exact absurd rfl (hreply tokens)
          | _ => contradiction
        · exact h
        · exact h
      · intro token h
        rw [hphase]
        exact .inl h
  | accept _ hphase =>
      refine issuedOnce_of_kept honce hheld hsent ?_ rfl rfl rfl ?_
      · rintro (_ | _ | routine) token h
        · simp only [SessionCore.held, hphase]
          exact h
        · exact h
        · exact h
      · intro token h
        rw [hphase]
        exact .inl h
  | writeOwner hwriting =>
      refine issuedOnce_of_kept honce hheld hsent ?_ rfl rfl rfl
        (fun _ h => .inl h)
      rintro (_ | _ | routine) token h
      · exact h
      · simp only [SessionCore.held, hwriting]
        exact h
      · exact h
  | @rotate shared own presented tokens hphase hrotated hissues huser =>
      have hsome : sent tab = some presented := by rw [hsent, hphase]; rfl
      have hissued : IssuedOnce
          (Function.update held tab
            (Function.update (held tab) .refresh (some tokens.refresh)))
          ((BrowserShared.used
            { shared.issue tokens with
              rotated := insert presented shared.rotated })
            (Function.update sent tab (some presented)))
          (insert tokens.refresh (shared.tokens : Set Token)) := by
        refine honce.issue hissues.1 rfl ?_
        refine BrowserShared.used_subset (Set.Subset.refl _) ?_
          (fun _ h => .inr (.inl h)) ?_
        · intro token hmem
          rcases Finset.mem_insert.mp hmem with rfl | hold
          · exact .inr (.inr ⟨tab, hsome⟩)
          · exact .inl hold
        · rintro token h
          exact .inr (.inr ⟨tab, hsome.trans h⟩)
      have hown : Function.update (held tab) .refresh (some tokens.refresh) =
          SessionCore.held
            { own with refresh := .replied presented (.pair tokens) } := by
        funext place
        rw [hheld]
        cases place with
        | refresh => rfl
        | script => rfl
        | routine routine => rfl
      rw [hown] at hissued
      simpa only [BrowserShared.issue, Finset.coe_insert,
        RefreshPhase.sent] using hissued
  | @receive shared own presented tokens hwriting hphase =>
      refine honce.handOn
        (fun place => if place = .script then .refresh else place)
        ?_ ?_ ?_ (Set.Subset.refl _)
      · rw [hheld]
        rintro (_ | _ | routine) token h
        · contradiction
        · simp only [SessionCore.held, hphase, if_true]
          exact h
        · exact h
      · rintro (_ | _ | routine) (_ | _ | routine') token h h' hsame
        all_goals
          first
            | rfl
            | contradiction
            | simpa using hsame
      · intro token hmem
        refine .inl (BrowserShared.used_subset_of_eq rfl rfl ?_ hmem)
        rintro token h
        refine .inr (.inr ⟨tab, ?_⟩)
        rw [hsent, hphase]
        exact h
  | @writeToken shared own write hwriting =>
      have hpresented : ∀ token, own.refresh.written.sent = some token →
          token ∈ shared.used sent := fun token h =>
        .inr (.inr ⟨tab, hsent.trans (RefreshPhase.sent_of_written h)⟩)
      have hkept : ∀ place token,
          SessionCore.held
            { own with refresh := own.refresh.written, writing := none }
            place = some token → held tab place = some token := by
        rw [hheld]
        rintro (_ | _ | routine) token h
        · simpa only [SessionCore.held, RefreshPhase.pair_written] using h
        · contradiction
        · exact h
      cases write with
      | clear =>
          refine honce.keep hkept ?_
          exact BrowserShared.used_subset (Set.Subset.refl _)
            (fun _ h => .inl h) nofun hpresented
      | store tokens =>
          have hscript : held tab .script = some tokens.refresh := by
            rw [hheld]
            simp [SessionCore.held, hwriting, SessionWrite.pair]
          refine honce.handOn id hkept (fun _ _ _ _ _ h => h) ?_
            (Set.Subset.refl _)
          have hbound :
              BrowserShared.used
                  { shared with
                    storage := ⟨shared.storage.user, some tokens.refresh⟩ }
                  (Function.update sent tab own.refresh.written.sent) ⊆
                insert tokens.refresh (shared.used sent) := by
            refine BrowserShared.used_subset (Set.subset_insert _ _) ?_ ?_ ?_
            · exact fun _ h => .inr (.inl h)
            · exact fun _ h => .inl (Option.some.inj h).symm
            · exact fun token h => .inr (hpresented token h)
          intro token hmem
          rcases hbound hmem with rfl | hold
          · refine .inr ⟨⟨.script, hscript⟩, fun place h => ?_⟩
            obtain ⟨-, rfl⟩ :=
              honce.unique _ _ _ _ _ (hkept place _ h) hscript
            contradiction
          · exact .inl hold

/-- The pair of a login is issued to its routine. -/
theorem OtherStep.issuedOnce
    (hstep : OtherStep subject userOf view next)
    (honce : IssuedOnce held (view.shared.used sent) view.shared.tokens)
    (hheld : held tab = view.own.held)
    (hsent : sent tab = view.own.refresh.sent) :
    IssuedOnce (Function.update held tab next.own.held)
      (next.shared.used (Function.update sent tab next.own.refresh.sent))
      next.shared.tokens := by
  cases hstep with
  | lose =>
      refine issuedOnce_of_kept honce hheld hsent ?_ rfl rfl rfl nofun
      rintro (_ | _ | routine) token h
      · contradiction
      · exact h
      · exact h
  | logout =>
      refine issuedOnce_of_kept honce hheld hsent ?_ rfl rfl rfl
        (fun _ h => .inl h)
      rintro (_ | _ | routine) token h
      · exact h
      · contradiction
      · exact h
  | @abandon shared own routine =>
      refine issuedOnce_of_kept honce hheld hsent ?_ rfl rfl rfl
        (fun _ h => .inl h)
      rintro (_ | _ | other) token h
      · exact h
      · exact h
      · simp only [SessionCore.held, Function.update_apply] at h
        split at h
        · contradiction
        · exact h
  | @authenticate shared own routine tokens hissues =>
      have hissued : IssuedOnce
          (Function.update held tab
            (Function.update (held tab) (.routine routine)
              (some tokens.refresh)))
          ((shared.issue tokens).used
            (Function.update sent tab own.refresh.sent))
          (insert tokens.refresh (shared.tokens : Set Token)) := by
        refine honce.issue hissues.1 rfl ?_
        refine BrowserShared.used_subset_of_eq rfl rfl ?_
        exact fun token h => .inr (.inr ⟨tab, hsent.trans h⟩)
      have hown :
          Function.update (held tab) (.routine routine)
              (some tokens.refresh) =
            SessionCore.held
              { own with
                entering :=
                  Function.update own.entering routine (some tokens) } := by
        funext place
        rw [hheld]
        cases place with
        | refresh => rfl
        | script => rfl
        | routine other =>
            by_cases heq : other = routine
            · subst heq
              simp [SessionCore.held]
            · simp [SessionCore.held, heq]
      rw [hown] at hissued
      simpa only [BrowserShared.issue, Finset.coe_insert] using hissued
  | @login shared own routine tokens hwriting hentering =>
      refine honce.handOn
        (fun place => if place = .script then .routine routine else place)
        ?_ ?_ ?_ (Set.Subset.refl _)
      · rw [hheld]
        rintro (_ | _ | other) token h
        · exact h
        · simp only [SessionCore.held, hentering, if_true]
          exact h
        · simp only [SessionCore.held, Function.update_apply] at h
          split at h
          · contradiction
          · exact h
      · rintro (_ | _ | other) (_ | _ | other') token h h' hsame
        · rfl
        · contradiction
        · contradiction
        · contradiction
        · rfl
        · obtain rfl := SessionPlace.routine.inj hsame
          simp [SessionCore.held] at h'
        · contradiction
        · obtain rfl := SessionPlace.routine.inj hsame
          simp [SessionCore.held] at h
        · exact hsame
      · intro token hmem
        refine .inl (BrowserShared.used_subset_of_eq rfl rfl ?_ hmem)
        exact fun token h => .inr (.inr ⟨tab, hsent.trans h⟩)

end Travel

section Reachable

/-! ## Every state of the browser -/

def BrowserState.held
    (state : BrowserState Tab Call Routine Token Access User) (tab : Tab) :
    SessionPlace Routine → Option Token :=
  (state.own tab).core.held

def BrowserState.sent
    (state : BrowserState Tab Call Routine Token Access User) (tab : Tab) :
    Option Token :=
  (state.own tab).refresh.sent

def BrowserState.used
    (state : BrowserState Tab Call Routine Token Access User) : Set Token :=
  state.shared.used state.sent

theorem BrowserState.Start.issuedOnce
    {state : BrowserState Tab Call Routine Token Access User}
    (hstart : state.Start) :
    IssuedOnce state.held state.used state.shared.tokens := by
  have hheld : ∀ tab place token, state.held tab place ≠ some token := by
    rintro tab (_ | _ | routine) token
    · simp [BrowserState.held, SessionCore.held, BrowserTab.core,
        hstart.refresh tab, RefreshPhase.pair]
    · simp [BrowserState.held, SessionCore.held, BrowserTab.core,
        hstart.script tab]
    · simp [BrowserState.held, SessionCore.held, BrowserTab.core,
        hstart.routines tab routine, RoutinePhase.entering]
  refine ⟨?_, ?_, ?_, ?_⟩
  · exact fun tab place token h => absurd h (hheld tab place token)
  · rintro token (hrotated | hstored | ⟨tab, hsent⟩)
    · exact hstart.rotated hrotated
    · exact (hstart.stored token hstored).1
    · simp [BrowserState.sent, hstart.refresh tab, RefreshPhase.sent] at hsent
  · exact fun tab place token h => absurd h (hheld tab place token)
  · exact fun tab place _ _ token h => absurd h (hheld tab place token)

variable [DecidableEq Tab] [DecidableEq Call] [DecidableEq Routine]
  [DecidableEq Token] [DecidableEq Access] [DecidableEq User]
  {subject : Access → Option User} {userOf : Token → User}

theorem BrowserState.issuedOnce
    {state : BrowserState Tab Call Routine Token Access User}
    (hreach : (browserMachine Call Routine subject userOf).Reachable state) :
    IssuedOnce state.held state.used state.shared.tokens := by
  refine hreach.invariant (fun state => BrowserState.Start.issuedOnce) ?_
  rintro state ⟨tab, move⟩ next honce hstep
  obtain ⟨view, hadvance, rfl⟩ := Machine.agents_step hstep
  have hheld : BrowserState.held (state.put tab view) =
      Function.update state.held tab view.own.core.held := by
    funext other
    by_cases heq : other = tab
    · subst heq
      simp [BrowserState.held]
    · simp [BrowserState.held, heq]
  have hsent : BrowserState.sent (state.put tab view) =
      Function.update state.sent tab view.own.core.refresh.sent := by
    funext other
    by_cases heq : other = tab
    · subst heq
      simp [BrowserState.sent, BrowserTab.core]
    · simp [BrowserState.sent, heq]
  unfold BrowserState.used
  rw [hheld, hsent]
  rcases TabView.advance_core hadvance with hcore | ⟨-, hcore⟩
  · exact hcore.issuedOnce honce rfl rfl
  · exact hcore.issuedOnce honce rfl rfl

/-- The token which a script is about to store is in nobody else's hands. -/
theorem BrowserState.stored_ne_used
    {state : BrowserState Tab Call Routine Token Access User}
    (hreach : (browserMachine Call Routine subject userOf).Reachable state)
    {tab : Tab} {tokens : TokenPair Token Access} {ownerDone : Bool}
    (hscript : (state.own tab).core.writing =
      some (.store tokens, ownerDone)) :
    tokens.refresh ∉ state.used := by
  refine (BrowserState.issuedOnce hreach).unused tab .script _ ?_
  simp [BrowserState.held, SessionCore.held, hscript, SessionWrite.pair]

end Reachable

end NotifyHub
