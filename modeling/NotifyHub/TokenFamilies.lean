import NotifyHub.SessionLocks
import Mathlib.Tactic

/-!
# Families of refresh tokens

A login opens a family, and every rotation hands the family on from the
presented token to its successor: a family never has two tokens which are not
revoked.  Reuse detection, a logout by refresh token, a logout from
everywhere and a disable close it for good.  That a rotation cannot bring a
closed family back to life comes from the lock of the user, under which the
rotation has found the presented token not revoked.  The same lock keeps a
disabled user without a session.
-/

namespace NotifyHub

variable {Process : Type*} {Id : Type}

namespace SessionState

variable [DecidableEq Process] [DecidableEq Id]

/-! ## Where live tokens come from -/

omit [DecidableEq Process] [DecidableEq Id] in
/-- The committed rows are the same. -/
structure SameRows (state next : SessionState Process Id) : Prop where
  store : next.users.store = state.users.store
  tokens : next.tokens = state.tokens
  token : next.token = state.token

omit [DecidableEq Id] in
theorem goto_sameRows
    (state : SessionState Process Id) (process : Process)
    (phase : SessionPhase Id) : state.SameRows (state.goto process phase) :=
  ⟨rfl, rfl, rfl⟩

omit [DecidableEq Id] in
theorem finish_sameRows
    (state : SessionState Process Id) (process : Process)
    (outcome : Outcome) : state.SameRows (state.finish process outcome) :=
  ⟨rfl, rfl, rfl⟩

theorem start_sameRows
    {state next : SessionState Process Id} {process : Process}
    {request : SessionRequest Id}
    (hstart : state.start process request = some next) :
    state.SameRows next := by
  cases request with
  | login userId =>
      simp only [SessionState.start] at hstart
      split at hstart
      · contradiction
      split at hstart
      · exact Option.some.inj hstart ▸ state.finish_sameRows _ _
      · exact Option.some.inj hstart ▸ state.goto_sameRows _ _
  | refresh tokenId =>
      simp only [SessionState.start] at hstart
      split at hstart
      · exact Option.some.inj hstart ▸ state.finish_sameRows _ _
      · exact Option.some.inj hstart ▸ state.goto_sameRows _ _
  | logout claims body =>
      simp only [SessionState.start] at hstart
      split at hstart
      · contradiction
      · exact Option.some.inj hstart ▸ state.goto_sameRows _ _

theorem readLogout_sameRows
    (state : SessionState Process Id) (process : Process) (userId : Id)
    (body : LogoutIn Id) :
    state.SameRows (state.readLogout process userId body) := by
  unfold readLogout
  split
  · exact state.goto_sameRows _ _
  split
  · split
    · exact state.goto_sameRows _ _
    · exact state.goto_sameRows _ _
  · split
    · dsimp only
      split
      · exact state.finish_sameRows _ _
      · exact state.goto_sameRows _ _
    · exact state.goto_sameRows _ _

theorem readRefresh_sameRows
    (state : SessionState Process Id) (process : Process)
    (userId tokenId : Id) (now : Instant) :
    state.SameRows (state.readRefresh process userId tokenId now) := by
  unfold readRefresh
  split
  · exact state.finish_sameRows _ _
  split
  · exact state.goto_sameRows _ _
  split
  · exact state.finish_sameRows _ _
  · exact state.goto_sameRows _ _

theorem read_sameRows
    {state next : SessionState Process Id} {process : Process}
    {now : Instant} (hread : state.read process now = some next) :
    state.SameRows next := by
  unfold SessionState.read at hread
  split at hread
  · split at hread
    · exact Option.some.inj hread ▸ state.finish_sameRows _ _
    · exact Option.some.inj hread ▸ state.goto_sameRows _ _
  · exact Option.some.inj hread ▸ state.readRefresh_sameRows _ _ _ _
  · exact Option.some.inj hread ▸ state.readLogout_sameRows _ _ _
  · split at hread
    · exact Option.some.inj hread ▸ state.finish_sameRows _ _
    · exact Option.some.inj hread ▸ state.goto_sameRows _ _
  · exact Option.some.inj hread ▸ state.goto_sameRows _ _
  · contradiction

variable [ToString Id]

/-- Only the commits of the requests write. -/
theorem step_rows
    {ttlDays : ℤ} {state next : SessionState Process Id}
    {action : SessionAction Process Id}
    (hstep : state.step ttlDays action = some next) :
    (∃ change users, action = .users change ∧
      state.users.step change = some users ∧
      next = { state with users := users }) ∨
    (∃ process drawn now, action = .commit process drawn now ∧
      state.commit ttlDays process drawn now = some next) ∨
    state.SameRows next := by
  cases action with
  | users change =>
      simp only [SessionState.step] at hstep
      split at hstep
      · obtain ⟨users, husers, rfl⟩ := Option.map_eq_some_iff.mp hstep
        exact .inl ⟨change, users, rfl, husers, rfl⟩
      · contradiction
  | start process request =>
      simp only [SessionState.step] at hstep
      split at hstep
      · exact .inr (.inr (start_sameRows hstep))
      · contradiction
  | shareTenant process =>
      simp only [SessionState.step] at hstep
      split at hstep
      · obtain ⟨users, hlock, rfl⟩ := Option.map_eq_some_iff.mp hstep
        exact .inr (.inr
          ⟨(UserState.lockTenant_eq_some hlock).1, rfl, rfl⟩)
      · contradiction
  | lockUser process =>
      simp only [SessionState.step] at hstep
      split at hstep
      · obtain ⟨users, hlock, rfl⟩ := Option.map_eq_some_iff.mp hstep
        exact .inr (.inr ⟨(UserState.lockUser_eq_some hlock).1, rfl, rfl⟩)
      · contradiction
  | read process now => exact .inr (.inr (read_sameRows hstep))
  | commit process drawn now =>
      exact .inr (.inl ⟨process, drawn, now, rfl, hstep⟩)
  | rollback process =>
      simp only [SessionState.step] at hstep
      split at hstep
      · exact .inr (.inr (Option.some.inj hstep ▸ state.finish_sameRows _ _))
      · contradiction

/-- A token which is not revoked was so before the step, or is the first of
its family, or the successor of one which was not revoked. -/
theorem Guarded.step_live
    {ttlDays : ℤ} {state next : SessionState Process Id}
    (hguarded : state.Guarded) {action : SessionAction Process Id}
    (hstep : state.step ttlDays action = some next) :
    state.KeepsRows next ∧
      ∀ id, next.Live id →
        state.Live id ∨ state.family (next.token id).family = ∅ ∨
          ∃ old ∈ state.family (next.token id).family, state.Live old := by
  rcases step_rows hstep with
    ⟨change, users, rfl, husers, rfl⟩ | ⟨process, drawn, now, rfl, hcommit⟩ |
    ⟨hstore, htokens, htoken⟩
  · exact ⟨fun _ hmem => ⟨hmem, rfl⟩, fun id hlive =>
      .inl (UserState.step_liveTokens husers _ hlive)⟩
  · have hself := hguarded.sound process
    rcases commit_cases hcommit with
      ⟨userId, row, hsession, -, hfree, hfamily, rfl⟩ |
      ⟨userId, tokenId, row, hsession, -, hfree, hfamily, rfl⟩ |
      ⟨userId, revocation, revoked, hsession, rfl⟩
    · refine ⟨fun id hmem => (insertToken_writes hfree).rows id hmem,
        fun id hlive => ?_⟩
      rcases insertToken_live.mp hlive with rfl | hlive
      · refine .inr (.inl ?_)
        simpa [SessionState.insertToken, SessionState.finish,
          SessionState.goto] using hfamily
      · exact .inl hlive
    · rw [hsession] at hself
      obtain ⟨-, ⟨hmem, -, hpresented⟩, -⟩ := hself
      refine ⟨fun id hmem => (insertToken_writes hfree).rows id hmem,
        fun id hlive => ?_⟩
      rcases insertToken_live.mp hlive with rfl | hlive
      · refine .inr (.inr ⟨tokenId, mem_family.mpr ⟨hmem, ?_⟩, hpresented⟩)
        simp [SessionState.insertToken, SessionState.finish,
          SessionState.goto, hfamily]
      · exact .inl (revokeTokens_live.mp hlive).1
    · exact ⟨fun _ hmem => ⟨hmem, rfl⟩, fun id hlive =>
        .inl (revokeTokens_live.mp hlive).1⟩
  · refine ⟨fun id hmem => ?_, fun id hlive => .inl ?_⟩
    · rw [htokens, htoken]
      exact ⟨hmem, rfl⟩
    · rw [Live, hstore, htoken] at hlive
      exact hlive

/-! ## Closed families -/

omit [DecidableEq Process] [ToString Id] in
/-- A family which has had tokens and has none left which is not revoked. -/
structure Closed (state : SessionState Process Id) (family : Id) : Prop where
  used : (state.family family).Nonempty
  revoked : ∀ id ∈ state.family family, ¬state.Live id

omit [DecidableEq Process] [ToString Id] in
theorem KeepsRows.family_subset
    {state next : SessionState Process Id} (hrows : state.KeepsRows next)
    (family : Id) : state.family family ⊆ next.family family := by
  intro id hmem
  obtain ⟨htoken, hfamily⟩ := mem_family.mp hmem
  obtain ⟨hnext, hrow⟩ := hrows id htoken
  exact mem_family.mpr ⟨hnext, by rw [hrow, hfamily]⟩

/-- A closed family stays closed. -/
theorem Closed.step
    {ttlDays : ℤ} {state next : SessionState Process Id} {family : Id}
    (hclosed : state.Closed family) (hguarded : state.Guarded)
    {action : SessionAction Process Id}
    (hstep : state.step ttlDays action = some next) : next.Closed family := by
  obtain ⟨hrows, hlive⟩ := hguarded.step_live hstep
  refine ⟨hclosed.used.mono (hrows.family_subset family),
    fun id hmem hafter => ?_⟩
  obtain ⟨-, rfl⟩ := mem_family.mp hmem
  rcases hlive id hafter with hbefore | hempty | ⟨old, hold, hbefore⟩
  · have htoken := hguarded.coherent.mem_tokens hbefore
    exact hclosed.revoked id
      (mem_family.mpr ⟨htoken, by rw [(hrows id htoken).2]⟩) hbefore
  · exact hclosed.used.ne_empty hempty
  · exact hclosed.revoked old hold hbefore

/-- The commits which close a family: of a refresh which has found a revoked
token of the family, of a logout with a token of the family, of a logout from
everywhere and of a PATCH or DELETE which disables the user or ends the
sessions of the user the family belongs to. -/
def Closes
    (state next : SessionState Process Id) (family : Id) :
    SessionAction Process Id → Prop
  | .commit process _ _ =>
      match state.session process with
      | .revoking _ (.reuse closed) _ | .revoking _ (.presented closed) _ =>
          family = closed
      | .revoking userId .everything _ => state.Owns userId family
      | _ => False
  | .users (.commit process) =>
      match state.users.phase process with
      | .writing (.edit change _) _ =>
          state.Owns change.target family ∧
            (change.endsSessions = true ∨
              (next.users.store.user change.target).status = .disabled)
      | _ => False
  | _ => False

omit [DecidableEq Process] [ToString Id] in
theorem Coherent.closed_of_owns
    {state : SessionState Process Id} (hcoherent : state.Coherent)
    {userId family : Id} (howns : state.Owns userId family)
    (hnone : state.users.store.liveTokens userId = ∅) :
    state.Closed family := by
  refine ⟨?_, fun id hmem hlive => ?_⟩
  · obtain ⟨id, hmem, -⟩ := howns
    exact ⟨id, hmem⟩
  · rw [Live, (hcoherent.user_of_owns howns hmem).2, hnone] at hlive
    simp at hlive

omit [ToString Id] in
theorem Guarded.closed_of_revoking
    {state : SessionState Process Id} (hguarded : state.Guarded)
    {process : Process} {userId : Id} {revocation : Revocation Id}
    {revoked : Finset Id}
    (hsession : state.session process = .revoking userId revocation revoked)
    {family : Id} (hfamily : revocation.family = some family) :
    ((state.revokeTokens revoked).finish process revocation.outcome).Closed
      family := by
  have hself := hguarded.sound process
  rw [hsession] at hself
  obtain ⟨-, hcovers, -⟩ := hself
  obtain ⟨id, hmem, -⟩ := hcovers.owns family hfamily
  refine ⟨⟨id, hmem⟩, fun id hmem hlive => ?_⟩
  obtain ⟨hbefore, hkept⟩ := revokeTokens_live.mp hlive
  exact hkept (hcovers.family family hfamily id hmem hbefore)

theorem Guarded.closes
    {ttlDays : ℤ} {state next : SessionState Process Id}
    (hguarded : state.Guarded) {action : SessionAction Process Id}
    (hstep : state.step ttlDays action = some next) {family : Id}
    (hcloses : state.Closes next family action) : next.Closed family := by
  have hafter := hguarded.step hstep
  cases action with
  | commit process drawn now =>
      simp only [Closes] at hcloses
      simp only [SessionState.step, SessionState.commit] at hstep
      split at hcloses
      next userId closed revoked hsession =>
        subst hcloses
        simp only [hsession] at hstep
        exact Option.some.inj hstep ▸ hguarded.closed_of_revoking hsession rfl
      next userId closed revoked hsession =>
        subst hcloses
        simp only [hsession] at hstep
        exact Option.some.inj hstep ▸ hguarded.closed_of_revoking hsession rfl
      next userId revoked hsession =>
        simp only [hsession] at hstep
        have hself := hguarded.sound process
        rw [hsession] at hself
        obtain rfl := Option.some.inj hstep
        obtain ⟨-, hcovers, -⟩ := hself
        obtain ⟨id, hmem, huser⟩ := hcloses
        exact hafter.coherent.closed_of_owns ⟨id, hmem, huser⟩
          (Finset.sdiff_eq_empty_iff_subset.mpr (hcovers.everything rfl))
      next => contradiction
  | users change =>
      cases change with
      | commit process =>
          simp only [Closes] at hcloses
          split at hcloses
          next change progress rest hphase =>
            obtain ⟨howns, hends⟩ := hcloses
            simp only [SessionState.step] at hstep
            split at hstep
            next =>
              obtain ⟨users, hcommit, rfl⟩ := Option.map_eq_some_iff.mp hstep
              obtain ⟨id, hmem, huser⟩ := howns
              refine hafter.coherent.closed_of_owns ⟨id, hmem, huser⟩ ?_
              rcases hends with hends | hdisabled
              · obtain ⟨work, store, hwriting, happly, rfl⟩ :=
                  UserState.commit_eq_some hcommit
                rw [hphase] at hwriting
                obtain ⟨rfl, rfl⟩ := UserPhase.writing.inj hwriting
                have hexecuted := hguarded.tracks.executed_of_nil hphase
                refine (UserStore.commitEdit_liveTokens happly).trans ?_
                exact Finset.sdiff_eq_empty_iff_subset.mpr
                  (hexecuted.liveTokens_subset hends)
              · refine hafter.disabled _ ?_ hdisabled
                have hold := hguarded.coherent.member id (mem_family.mp hmem).1
                rw [huser] at hold
                exact UserState.step_users hcommit hold
            · contradiction
          next => contradiction
      | _ => contradiction
  | _ => contradiction

theorem Closed.run
    {ttlDays : ℤ} {state later : SessionState Process Id} {family : Id}
    (hclosed : state.Closed family) (hguarded : state.Guarded)
    {actions : List (SessionAction Process Id)}
    (hrun : (sessionMachine ttlDays Process Id).run state actions =
      some later) : later.Closed family := by
  have hkept := @Machine.run_preserves _ _ _
    (fun current : SessionState Process Id =>
      current.Guarded ∧ current.Closed family)
    (fun _ _ _ hcurrent hstep =>
      ⟨hcurrent.1.step hstep, hcurrent.2.step hcurrent.1 hstep⟩)
    _ _ _ ⟨hguarded, hclosed⟩ hrun
  exact hkept.2

/-- In every state which the requests can reach, a family has at most one
token which is not revoked, and once a commit has closed a family no later
state has one. -/
theorem families_stay_closed
    {ttlDays : ℤ} {state : SessionState Process Id}
    (hreach : (sessionMachine ttlDays Process Id).Reachable state) :
    (∀ family,
      ((state.family family).filter fun id => state.Live id).card ≤ 1) ∧
    ∀ action next family, state.step ttlDays action = some next →
      state.Closes next family action →
        ∀ actions later,
          (sessionMachine ttlDays Process Id).run next actions = some later →
            ∀ id ∈ later.family family, ¬later.Live id := by
  have hguarded := guarded_of_reachable hreach
  constructor
  · intro family
    rw [Finset.card_le_one]
    intro first hfirst second hsecond
    obtain ⟨hfirst, hlive⟩ := Finset.mem_filter.mp hfirst
    obtain ⟨hsecond, hother⟩ := Finset.mem_filter.mp hsecond
    exact hguarded.coherent.single first second hlive hother
      ((mem_family.mp hfirst).2.trans (mem_family.mp hsecond).2.symm)
  · intro action next family hstep hcloses actions later hrun
    exact ((hguarded.closes hstep hcloses).run (hguarded.step hstep)
      hrun).revoked

end SessionState

/-! ## Reuse of a rotated token -/

/-- Nobody has ever logged in. -/
def beforeLogin (store : UserStore ℕ) : SessionState ℕ ℕ where
  users := .atRest store
  tokens := ∅
  token _ := ⟨0, 0, 0, 0⟩
  session _ := .idle

/-- A login up to its commit. -/
def openSession (process userId : ℕ) : List (SessionAction ℕ ℕ) :=
  [.start process (.login userId), .shareTenant process, .lockUser process,
    .read process 0]

/-- A refresh up to its commit; it finds its token not revoked, or revokes
the family. -/
def presentToken (process tokenId : ℕ) : List (SessionAction ℕ ℕ) :=
  [.start process (.refresh tokenId), .shareTenant process,
    .lockUser process, .read process 0, .read process 0]

/-- User 1 logs in, rotates token 10 into token 11, and presents token 10
again. -/
def reuseToken : List (SessionAction ℕ ℕ) :=
  openSession 0 1 ++ [.commit 0 ⟨10, 100, 0⟩ 0] ++
    presentToken 1 10 ++ [.commit 1 ⟨11, 0, 1⟩ 0] ++ presentToken 2 10

theorem families_stay_closed_reuse :
    ∃ state next later : SessionState ℕ ℕ,
      (sessionMachine 30 ℕ ℕ).Reachable state ∧
      state.Live 11 ∧ (state.token 11).family = 100 ∧
      state.step 30 (.commit 2 ⟨12, 0, 2⟩ 0) = some next ∧
      (sessionMachine 30 ℕ ℕ).run next (presentToken 3 11) = some later ∧
      ∀ id ∈ later.family 100, ¬later.Live id := by
  have hfresh : (beforeLogin ownerAndMember).Fresh :=
    ⟨UserState.atRest_quiet _, fun _ => rfl, rfl, fun _ => rfl⟩
  obtain ⟨state, hrun, hlive, next, hstep, hcloses, later, hlater⟩ :
      ∃ state : SessionState ℕ ℕ,
        (sessionMachine 30 ℕ ℕ).run (beforeLogin ownerAndMember) reuseToken =
          some state ∧
        (state.Live 11 ∧ (state.token 11).family = 100) ∧
        ∃ next, state.step 30 (.commit 2 ⟨12, 0, 2⟩ 0) = some next ∧
          state.Closes next 100 (.commit 2 ⟨12, 0, 2⟩ 0) ∧
          ∃ later, (sessionMachine 30 ℕ ℕ).run next (presentToken 3 11) =
            some later :=
    ⟨_, rfl, by decide +kernel, _, rfl, rfl, _, rfl⟩
  have hreach := (Machine.ReachableWhere.initial hfresh).run
    (Machine.allowedAlong_of_forall _ (fun _ _ _ => trivial) _) hrun
  exact ⟨state, next, later, hreach, hlive.1, hlive.2, hstep, hlater,
    (SessionState.families_stay_closed hreach).2 _ _ _ hstep hcloses _ _
      hlater⟩

/-! ## Disabled users -/

/-- In every state which the requests can reach, all refresh tokens of a
disabled user are revoked, whether they have expired or not. -/
theorem disabled_user_has_no_session
    [DecidableEq Process] [DecidableEq Id] [ToString Id]
    {ttlDays : ℤ} {state : SessionState Process Id}
    (hreach : (sessionMachine ttlDays Process Id).Reachable state)
    {userId : Id} (hmem : userId ∈ state.users.store.users)
    (hdisabled : (state.users.store.user userId).status = .disabled) :
    ∀ id ∈ state.tokens, (state.token id).user = userId →
      ¬state.Live id := by
  intro id _ huser
  have hnone :=
    (SessionState.guarded_of_reachable hreach).disabled userId hmem hdisabled
  rw [SessionState.Live, huser, hnone]
  simp

/-- User 1 logs in, and a DELETE of user 1 reads the tokens and commits. -/
def removeAfterLogin : List (SessionAction ℕ ℕ) :=
  openSession 0 1 ++ [.commit 0 ⟨10, 100, 0⟩ 0] ++
    [.users (.start 1 (.removeUser ownerClaims 1)), .users (.execute 1),
      .users (.execute 1), .users (.execute 1), .users (.execute 1),
      .users (.commit 1)]

theorem disabled_user_has_no_session_removed :
    ∃ state : SessionState ℕ ℕ,
      (sessionMachine 30 ℕ ℕ).Reachable state ∧ 10 ∈ state.tokens ∧
      (state.users.store.user 1).status = .disabled ∧ ¬state.Live 10 := by
  have hfresh : (beforeLogin ownerAndMember).Fresh :=
    ⟨UserState.atRest_quiet _, fun _ => rfl, rfl, fun _ => rfl⟩
  obtain ⟨state, hrun, hmem, hstatus, htoken, huser⟩ :
      ∃ state : SessionState ℕ ℕ,
        (sessionMachine 30 ℕ ℕ).run (beforeLogin ownerAndMember)
          removeAfterLogin = some state ∧
        1 ∈ state.users.store.users ∧
        (state.users.store.user 1).status = .disabled ∧
        10 ∈ state.tokens ∧ (state.token 10).user = 1 :=
    ⟨_, rfl, by decide +kernel⟩
  have hreach := (Machine.ReachableWhere.initial hfresh).run
    (Machine.allowedAlong_of_forall _ (fun _ _ _ => trivial) _) hrun
  exact ⟨state, hreach, htoken, hstatus,
    disabled_user_has_no_session hreach hmem hstatus 10 htoken huser⟩

end NotifyHub
