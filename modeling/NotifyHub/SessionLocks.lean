import NotifyHub.SessionMachine
import NotifyHub.UserStatements
import Mathlib.Tactic

/-!
# What a session request may rely on under its locks

Every request which opens, rotates or revokes refresh tokens of a user holds
the row of the user for update from before its first read until its commit.
Meanwhile nobody else touches the tokens of that user or changes the user, so
what the request has read still stands when it commits.
-/

namespace NotifyHub

variable {Process : Type*} {Id : Type}

/-! ## The rows of one user -/

/-- No refresh token goes away or changes its row. -/
def SessionState.KeepsRows (state next : SessionState Process Id) : Prop :=
  ∀ id ∈ state.tokens, id ∈ next.tokens ∧ next.token id = state.token id

/-- The session of a user as the requests see it: the status, the refresh
tokens of the user, and which of them are not revoked. -/
structure SessionState.SameSession
    (state next : SessionState Process Id) (userId : Id) : Prop where
  user : next.users.store.user userId = state.users.store.user userId
  liveTokens : next.users.store.liveTokens userId =
    state.users.store.liveTokens userId
  old : state.KeepsRows next
  new : ∀ id ∈ next.tokens, (next.token id).user = userId → id ∈ state.tokens

/-- The rows of the refresh tokens fit together. -/
structure SessionState.Coherent (state : SessionState Process Id) : Prop where
  member : ∀ id ∈ state.tokens, (state.token id).user ∈ state.users.store.users
  owned : ∀ userId, ∀ id ∈ state.users.store.liveTokens userId,
    id ∈ state.tokens ∧ (state.token id).user = userId
  family : ∀ first ∈ state.tokens, ∀ second ∈ state.tokens,
    (state.token first).family = (state.token second).family →
      (state.token first).user = (state.token second).user
  single : ∀ first second, state.Live first → state.Live second →
    (state.token first).family = (state.token second).family →
      first = second

theorem SessionState.Coherent.mem_tokens
    {state : SessionState Process Id} (hcoherent : state.Coherent) {id : Id}
    (hlive : state.Live id) : id ∈ state.tokens :=
  (hcoherent.owned _ id hlive).1

/-- A request holds the row of its user. -/
structure SessionState.Holding
    (state : SessionState Process Id) (process : Process) (userId : Id) :
    Prop where
  member : userId ∈ state.users.store.users
  idle : state.users.phase process = .idle
  holds : (state.users.userLock userId).Holds process .forUpdate

/-- The token a refresh presents is not revoked and belongs to its user. -/
structure SessionState.Presents
    (state : SessionState Process Id) (userId tokenId : Id) : Prop where
  mem : tokenId ∈ state.tokens
  user : (state.token tokenId).user = userId
  live : state.Live tokenId

variable [DecidableEq Id]

theorem SessionState.mem_family
    {state : SessionState Process Id} {family id : Id} :
    id ∈ state.family family ↔
      id ∈ state.tokens ∧ (state.token id).family = family := by
  simp [SessionState.family]

/-- A refresh is about a token of the user whose row it locks. -/
def SessionRequest.Concerns
    (state : SessionState Process Id) (userId : Id) :
    SessionRequest Id → Prop
  | .refresh tokenId =>
      tokenId ∈ state.tokens ∧ (state.token tokenId).user = userId
  | .login _ | .logout _ _ => True

/-- The family which a revocation closes. -/
def Revocation.family : Revocation Id → Option Id
  | .reuse family | .presented family => some family
  | .everything | .row => none

def SessionState.Owns
    (state : SessionState Process Id) (userId family : Id) : Prop :=
  ∃ id ∈ state.family family, (state.token id).user = userId

/-- A revocation which has found every token it must not leave alive. -/
structure Revocation.Covers
    (state : SessionState Process Id) (userId : Id) (revoked : Finset Id)
    (revocation : Revocation Id) : Prop where
  owns : ∀ family ∈ revocation.family, state.Owns userId family
  family : ∀ family ∈ revocation.family,
    ∀ id ∈ state.family family, state.Live id → id ∈ revoked
  everything : revocation = .everything →
    state.users.store.liveTokens userId ⊆ revoked

/-- What a process relies on in each phase. -/
def SessionPhase.Sound
    (state : SessionState Process Id) (process : Process) :
    SessionPhase Id → Prop
  | .idle | .ended _ => True
  | .sharing userId request | .locking userId request =>
      userId ∈ state.users.store.users ∧
        state.users.phase process = .idle ∧ request.Concerns state userId
  | .inScope userId request =>
      state.Holding process userId ∧ request.Concerns state userId
  | .presenting userId tokenId =>
      state.Holding process userId ∧ state.Presents userId tokenId
  | .scanning userId revocation =>
      state.Holding process userId ∧
        ∃ family, revocation.family = some family ∧ state.Owns userId family
  | .signing userId =>
      state.Holding process userId ∧
        (state.users.store.user userId).status = .active
  | .rotating userId tokenId =>
      state.Holding process userId ∧ state.Presents userId tokenId ∧
        (state.users.store.user userId).status = .active
  | .revoking userId revocation revoked =>
      state.Holding process userId ∧
        revocation.Covers state userId revoked ∧
        ∀ id ∈ revoked, id ∈ state.tokens ∧ (state.token id).user = userId

/-! ## Stability -/

namespace SessionState.SameSession

variable {state next : SessionState Process Id} {userId : Id}

omit [DecidableEq Id] in
theorem live_iff
    (hsame : state.SameSession next userId) {id : Id}
    (hmem : id ∈ state.tokens) (huser : (state.token id).user = userId) :
    next.Live id ↔ state.Live id := by
  rw [Live, Live, (hsame.old id hmem).2, huser, hsame.liveTokens]

omit [DecidableEq Id] in
theorem presents
    (hsame : state.SameSession next userId) {tokenId : Id}
    (hpresents : state.Presents userId tokenId) :
    next.Presents userId tokenId := by
  obtain ⟨hmem, huser, hlive⟩ := hpresents
  obtain ⟨hnext, hrow⟩ := hsame.old tokenId hmem
  exact ⟨hnext, by rw [hrow, huser], (hsame.live_iff hmem huser).mpr hlive⟩

theorem owns
    (hsame : state.SameSession next userId) {family : Id}
    (howns : state.Owns userId family) : next.Owns userId family := by
  obtain ⟨id, hmem, huser⟩ := howns
  obtain ⟨htoken, hfamily⟩ := mem_family.mp hmem
  obtain ⟨hnext, hrow⟩ := hsame.old id htoken
  refine ⟨id, mem_family.mpr ⟨hnext, ?_⟩, ?_⟩
  · rw [hrow, hfamily]
  · rw [hrow, huser]

/-- No token joins a family of the user. -/
theorem mem_family_of_owns
    (hsame : state.SameSession next userId) (hcoherent : next.Coherent)
    {family : Id} (howns : state.Owns userId family) {id : Id}
    (hmem : id ∈ next.family family) :
    id ∈ state.family family ∧ (state.token id).user = userId := by
  obtain ⟨named, hnamed, huser⟩ := howns
  obtain ⟨hold, hfamily⟩ := mem_family.mp hnamed
  obtain ⟨hnext, hrow⟩ := hsame.old named hold
  obtain ⟨htoken, hsamefamily⟩ := mem_family.mp hmem
  have hidUser : (next.token id).user = userId := by
    rw [hcoherent.family id htoken named hnext
      (by rw [hsamefamily, hrow, hfamily]), hrow, huser]
  have hidOld := hsame.new id htoken hidUser
  have hidRow := (hsame.old id hidOld).2
  rw [hidRow] at hsamefamily hidUser
  exact ⟨mem_family.mpr ⟨hidOld, hsamefamily⟩, hidUser⟩

theorem covers
    (hsame : state.SameSession next userId) (hcoherent : next.Coherent)
    {revocation : Revocation Id} {revoked : Finset Id}
    (hcovers : revocation.Covers state userId revoked) :
    revocation.Covers next userId revoked where
  owns family hfamily := hsame.owns (hcovers.owns family hfamily)
  family family hfamily id hmem hlive := by
    obtain ⟨hold, huser⟩ :=
      hsame.mem_family_of_owns hcoherent (hcovers.owns family hfamily) hmem
    exact hcovers.family family hfamily id hold
      ((hsame.live_iff (mem_family.mp hold).1 huser).mp hlive)
  everything heverything := by
    rw [hsame.liveTokens]
    exact hcovers.everything heverything

/-- What a process relies on survives the step of another one. -/
theorem sound
    {process : Process} {phase : SessionPhase Id}
    (hsound : phase.Sound state process)
    (husers : state.users.store.users ⊆ next.users.store.users)
    (hidle : next.users.phase process = state.users.phase process)
    (hkeeps : state.users.KeepsLocks next.users process)
    (hcoherent : next.Coherent) (hrows : state.KeepsRows next)
    (hsame : ∀ userId, phase.scope = some userId →
      state.SameSession next userId) : phase.Sound next process := by
  have hholding : ∀ userId, state.Holding process userId →
      next.Holding process userId := fun userId hholding =>
    ⟨husers hholding.member, hidle.trans hholding.idle,
      hkeeps.user _ _ hholding.holds⟩
  have hconcerns : ∀ userId {request : SessionRequest Id},
      request.Concerns state userId → request.Concerns next userId := by
    intro userId request hconcerns
    cases request with
    | refresh tokenId =>
        obtain ⟨hnext, hrow⟩ := hrows tokenId hconcerns.1
        exact ⟨hnext, by rw [hrow, hconcerns.2]⟩
    | _ => trivial
  cases phase with
  | idle => trivial
  | ended outcome => trivial
  | sharing userId request =>
      exact ⟨husers hsound.1, hidle.trans hsound.2.1,
        hconcerns userId hsound.2.2⟩
  | locking userId request =>
      exact ⟨husers hsound.1, hidle.trans hsound.2.1,
        hconcerns userId hsound.2.2⟩
  | inScope userId request =>
      exact ⟨hholding userId hsound.1, hconcerns userId hsound.2⟩
  | presenting userId tokenId =>
      exact ⟨hholding userId hsound.1,
        (hsame userId rfl).presents hsound.2⟩
  | scanning userId revocation =>
      obtain ⟨hheld, family, hfamily, howns⟩ := hsound
      exact ⟨hholding userId hheld, family, hfamily,
        (hsame userId rfl).owns howns⟩
  | signing userId =>
      refine ⟨hholding userId hsound.1, ?_⟩
      rw [(hsame userId rfl).user]
      exact hsound.2
  | rotating userId tokenId =>
      obtain ⟨hheld, hpresents, hactive⟩ := hsound
      refine ⟨hholding userId hheld, (hsame userId rfl).presents hpresents, ?_⟩
      rw [(hsame userId rfl).user]
      exact hactive
  | revoking userId revocation revoked =>
      obtain ⟨hheld, hcovers, howned⟩ := hsound
      have hkeep := hsame userId rfl
      refine ⟨hholding userId hheld, hkeep.covers hcoherent hcovers,
        fun id hmem => ?_⟩
      obtain ⟨htoken, huser⟩ := howned id hmem
      obtain ⟨hnext, hrow⟩ := hkeep.old id htoken
      exact ⟨hnext, by rw [hrow, huser]⟩

end SessionState.SameSession

/-! ## Steps which commit nothing -/

/-- One session request goes on; the committed rows stay as they are. -/
structure SessionState.Moves
    (state : SessionState Process Id) (process : Process)
    (phase : SessionPhase Id) (next : SessionState Process Id) : Prop where
  store : next.users.store = state.users.store
  tokens : next.tokens = state.tokens
  token : next.token = state.token
  self : next.session process = phase
  others : ∀ other, other ≠ process →
    next.session other = state.session other ∧
      next.users.phase other = state.users.phase other ∧
      state.users.KeepsLocks next.users other
  user : next.users.phase process = .idle ∨
    ∃ outcome, next.users.phase process = .ended outcome

namespace SessionState.Moves

variable {state next : SessionState Process Id} {process : Process}
  {phase : SessionPhase Id}

omit [DecidableEq Id] in
theorem keepsRows (hmoves : state.Moves process phase next) :
    state.KeepsRows next := by
  intro id hmem
  rw [hmoves.tokens, hmoves.token]
  exact ⟨hmem, rfl⟩

omit [DecidableEq Id] in
theorem sameSession (hmoves : state.Moves process phase next) (userId : Id) :
    state.SameSession next userId where
  user := by rw [hmoves.store]
  liveTokens := by rw [hmoves.store]
  old := hmoves.keepsRows
  new id hmem _ := hmoves.tokens ▸ hmem

omit [DecidableEq Id] in
theorem coherent
    (hmoves : state.Moves process phase next) (hcoherent : state.Coherent) :
    next.Coherent := by
  have hlive : ∀ id, next.Live id ↔ state.Live id := by
    intro id
    rw [Live, Live, hmoves.store, hmoves.token]
  constructor
  · rw [hmoves.tokens, hmoves.token, hmoves.store]
    exact hcoherent.member
  · rw [hmoves.tokens, hmoves.token, hmoves.store]
    exact hcoherent.owned
  · rw [hmoves.tokens, hmoves.token]
    exact hcoherent.family
  · intro first second hfirst hsecond
    rw [hmoves.token]
    exact hcoherent.single first second ((hlive first).mp hfirst)
      ((hlive second).mp hsecond)

end SessionState.Moves

namespace SessionState

variable [DecidableEq Process]

omit [DecidableEq Id] in
theorem goto_moves
    {state : SessionState Process Id} {process : Process}
    (hidle : state.users.phase process = .idle) (phase : SessionPhase Id) :
    state.Moves process phase (state.goto process phase) where
  store := rfl
  tokens := rfl
  token := rfl
  self := Function.update_self ..
  others _ hne :=
    ⟨Function.update_of_ne hne .., rfl, .refl state.users _⟩
  user := .inl hidle

omit [DecidableEq Id] in
theorem finish_moves
    (state : SessionState Process Id) (process : Process)
    (outcome : Outcome) :
    state.Moves process (.ended outcome) (state.finish process outcome) where
  store := rfl
  tokens := rfl
  token := rfl
  self := Function.update_self ..
  others _ hne :=
    ⟨Function.update_of_ne hne .., Function.update_of_ne hne ..,
      UserState.keepsLocks_finish state.users outcome hne⟩
  user := .inr ⟨outcome, Function.update_self ..⟩

omit [DecidableEq Id] in
theorem locked_moves
    {state : SessionState Process Id} {process : Process}
    (hidle : state.users.phase process = .idle) (phase : SessionPhase Id)
    {users : UserState Process Id} (hstore : users.store = state.users.store)
    (hphase : users.phase = state.users.phase)
    (hkeeps : ∀ other, state.users.KeepsLocks users other) :
    state.Moves process phase
      ({ state with users := users }.goto process phase) where
  store := hstore
  tokens := rfl
  token := rfl
  self := Function.update_self ..
  others other hne :=
    ⟨Function.update_of_ne hne .., congrFun hphase other, hkeeps other⟩
  user := .inl ((congrFun hphase process).trans hidle)

/-! ## The invariant -/

structure Guarded (state : SessionState Process Id) : Prop where
  tracks : state.users.Tracks
  ends : ∀ process, ∀ edit ∈ (state.users.phase process).edit,
    edit.EndsWhenDisabling
  coherent : state.Coherent
  sound : ∀ process, (state.session process).Sound state process
  disabled : ∀ userId ∈ state.users.store.users,
    (state.users.store.user userId).status = .disabled →
      state.users.store.liveTokens userId = ∅

omit [DecidableEq Process] in
theorem Fresh.guarded {state : SessionState Process Id}
    (hfresh : state.Fresh) : state.Guarded where
  tracks := .quiet hfresh.users
  ends process edit hedit := by
    rw [hfresh.users.phase process] at hedit
    contradiction
  coherent := by
    have hnone : ∀ id, ¬state.Live id := by
      intro id hlive
      rw [Live, hfresh.liveTokens] at hlive
      simp at hlive
    constructor
    · simp [hfresh.tokens]
    · simp [hfresh.liveTokens]
    · simp [hfresh.tokens]
    · exact fun first _ hlive => absurd hlive (hnone first)
  sound process := by
    rw [hfresh.session process]
    trivial
  disabled userId _ _ := hfresh.liveTokens userId

omit [DecidableEq Process] in
theorem Guarded.move
    {state next : SessionState Process Id} (hguarded : state.Guarded)
    {process : Process} {phase : SessionPhase Id}
    (hmoves : state.Moves process phase next)
    (hsound : phase.Sound next process) : next.Guarded := by
  have hcoherent := hmoves.coherent hguarded.coherent
  refine ⟨?_, ?_, hcoherent, fun other => ?_, ?_⟩
  · intro other change progress rest hwriting
    by_cases heq : other = process
    · subst heq
      rcases hmoves.user with hidle | ⟨outcome, hended⟩
      · rw [hidle] at hwriting
        contradiction
      · rw [hended] at hwriting
        contradiction
    · obtain ⟨-, hphase, hkeeps⟩ := hmoves.others other heq
      rw [hphase] at hwriting
      obtain ⟨done, hsplit, hexecuted⟩ :=
        hguarded.tracks other change progress rest hwriting
      exact ⟨done, hsplit, hexecuted.mono hkeeps fun _ => by
        rw [hmoves.store]⟩
  · intro other edit hedit
    by_cases heq : other = process
    · subst heq
      rcases hmoves.user with hidle | ⟨outcome, hended⟩
      · rw [hidle] at hedit
        contradiction
      · rw [hended] at hedit
        contradiction
    · rw [(hmoves.others other heq).2.1] at hedit
      exact hguarded.ends other edit hedit
  · by_cases heq : other = process
    · subst heq
      rw [hmoves.self]
      exact hsound
    · obtain ⟨hsession, hphase, hkeeps⟩ := hmoves.others other heq
      rw [hsession]
      exact SameSession.sound (hguarded.sound other)
        (by rw [hmoves.store]) hphase hkeeps hcoherent hmoves.keepsRows
        fun userId _ => hmoves.sameSession userId
  · rw [hmoves.store]
    exact hguarded.disabled

/-- A process which goes on without a lock relies on what it relied on. -/
theorem sound_goto
    {state : SessionState Process Id} (hcoherent : state.Coherent)
    {process : Process} {phase : SessionPhase Id}
    (hsound : phase.Sound state process) (after : SessionPhase Id) :
    phase.Sound (state.goto process after) process := by
  have hmoves : (state.goto process after).Coherent := by
    obtain ⟨hmember, howned, hfamily, hsingle⟩ := hcoherent
    exact ⟨hmember, howned, hfamily, hsingle⟩
  have hrows : state.KeepsRows (state.goto process after) :=
    fun _ hmem => ⟨hmem, rfl⟩
  exact SameSession.sound hsound subset_rfl rfl (.refl state.users process)
    hmoves hrows fun userId _ => ⟨rfl, rfl, hrows, fun _ hmem _ => hmem⟩

theorem Guarded.goto
    {state : SessionState Process Id} (hguarded : state.Guarded)
    {process : Process} {phase : SessionPhase Id}
    (hidle : state.users.phase process = .idle)
    (hsound : phase.Sound state process) :
    (state.goto process phase).Guarded :=
  hguarded.move (goto_moves hidle phase)
    (sound_goto hguarded.coherent hsound phase)

theorem Guarded.finish
    {state : SessionState Process Id} (hguarded : state.Guarded)
    (process : Process) (outcome : Outcome) :
    (state.finish process outcome).Guarded :=
  hguarded.move (finish_moves state process outcome) trivial

theorem Guarded.start
    {state next : SessionState Process Id} (hguarded : state.Guarded)
    {process : Process} {request : SessionRequest Id}
    (hidle : state.users.phase process = .idle)
    (hstart : state.start process request = some next) : next.Guarded := by
  cases request with
  | login userId =>
      simp only [SessionState.start] at hstart
      split at hstart
      · contradiction
      next hmem =>
        split at hstart
        · exact Option.some.inj hstart ▸ hguarded.finish _ _
        · exact Option.some.inj hstart ▸
            hguarded.goto hidle ⟨not_not.mp hmem, hidle, trivial⟩
  | refresh tokenId =>
      simp only [SessionState.start] at hstart
      split at hstart
      · exact Option.some.inj hstart ▸ hguarded.finish _ _
      next hmem =>
        exact Option.some.inj hstart ▸ hguarded.goto hidle
          ⟨hguarded.coherent.member tokenId (not_not.mp hmem), hidle,
            not_not.mp hmem, rfl⟩
  | logout claims body =>
      simp only [SessionState.start] at hstart
      split at hstart
      · contradiction
      next hmem =>
        exact Option.some.inj hstart ▸
          hguarded.goto hidle ⟨not_not.mp hmem, hidle, trivial⟩

theorem Guarded.shareTenant
    {state : SessionState Process Id} (hguarded : state.Guarded)
    {process : Process} {userId : Id} {request : SessionRequest Id}
    (hsession : state.session process = .sharing userId request)
    {users : UserState Process Id}
    (hlock : state.users.lockTenant process .keyShare = some users) :
    ({ state with users := users }.goto process
      (.locking userId request)).Guarded := by
  have hself := hguarded.sound process
  rw [hsession] at hself
  obtain ⟨hmember, hidle, hconcerns⟩ := hself
  obtain ⟨hstore, hphase, -, hkeeps⟩ := UserState.lockTenant_eq_some hlock
  refine hguarded.move (locked_moves hidle _ hstore hphase hkeeps)
    ⟨?_, ?_, ?_⟩
  · exact hstore ▸ hmember
  · exact (congrFun hphase process).trans hidle
  · cases request with
    | refresh tokenId => exact hconcerns
    | _ => trivial

theorem Guarded.lockUser
    {state : SessionState Process Id} (hguarded : state.Guarded)
    {process : Process} {userId : Id} {request : SessionRequest Id}
    (hsession : state.session process = .locking userId request)
    {users : UserState Process Id}
    (hlock : state.users.lockUser process userId .forUpdate = some users) :
    ({ state with users := users }.goto process
      (.inScope userId request)).Guarded := by
  have hself := hguarded.sound process
  rw [hsession] at hself
  obtain ⟨hmember, hidle, hconcerns⟩ := hself
  obtain ⟨hstore, hphase, hholds, hkeeps⟩ := UserState.lockUser_eq_some hlock
  refine hguarded.move (locked_moves hidle _ hstore hphase hkeeps)
    ⟨⟨?_, ?_, hholds⟩, ?_⟩
  · exact hstore ▸ hmember
  · exact (congrFun hphase process).trans hidle
  · cases request with
    | refresh tokenId => exact hconcerns
    | _ => trivial

omit [DecidableEq Process] in
/-- The tokens a revocation finds belong to the user it has locked. -/
theorem Coherent.user_of_owns
    {state : SessionState Process Id} (hcoherent : state.Coherent)
    {userId family : Id} (howns : state.Owns userId family) {id : Id}
    (hmem : id ∈ state.family family) :
    id ∈ state.tokens ∧ (state.token id).user = userId := by
  obtain ⟨named, hnamed, huser⟩ := howns
  obtain ⟨hold, hfamily⟩ := mem_family.mp hnamed
  obtain ⟨htoken, hsame⟩ := mem_family.mp hmem
  refine ⟨htoken, ?_⟩
  rw [hcoherent.family id htoken named hold (hsame.trans hfamily.symm), huser]

theorem Guarded.readLogout
    {state : SessionState Process Id} (hguarded : state.Guarded)
    {process : Process} {userId : Id} (body : LogoutIn Id)
    (hholding : state.Holding process userId) :
    (state.readLogout process userId body).Guarded := by
  have hrow : ∀ revoked : Finset Id,
      Revocation.Covers state userId revoked .row := fun revoked =>
    ⟨nofun, nofun, nofun⟩
  have hnothing :
      (SessionPhase.revoking userId .row ∅).Sound state process :=
    ⟨hholding, hrow ∅, fun _ hmem => by simp at hmem⟩
  unfold SessionState.readLogout
  split
  · exact hguarded.goto hholding.idle
      ⟨hholding, ⟨nofun, nofun, fun _ => subset_rfl⟩,
        fun id hmem => hguarded.coherent.owned userId id hmem⟩
  split
  next tokenId _ =>
    split
    next hfound =>
      exact hguarded.goto hholding.idle ⟨hholding, _, rfl, tokenId,
        mem_family.mpr ⟨hfound.1, rfl⟩, hfound.2⟩
    · exact hguarded.goto hholding.idle hnothing
  · split
    · dsimp only
      split
      · exact hguarded.finish _ _
      · refine hguarded.goto hholding.idle
          ⟨hholding, hrow _, fun id hmem => ?_⟩
        obtain ⟨htoken, huser, -⟩ := Finset.mem_filter.mp hmem
        exact ⟨htoken, huser⟩
    · exact hguarded.goto hholding.idle hnothing

theorem Guarded.readRefresh
    {state : SessionState Process Id} (hguarded : state.Guarded)
    {process : Process} {userId tokenId : Id} (now : Instant)
    (hholding : state.Holding process userId)
    (huser : (state.token tokenId).user = userId) :
    (state.readRefresh process userId tokenId now).Guarded := by
  unfold SessionState.readRefresh
  split
  · exact hguarded.finish _ _
  next hmem =>
    have htoken : tokenId ∈ state.tokens := not_not.mp hmem
    split
    · exact hguarded.goto hholding.idle ⟨hholding, _, rfl, tokenId,
        mem_family.mpr ⟨htoken, rfl⟩, huser⟩
    next hlive =>
      split
      · exact hguarded.finish _ _
      · exact hguarded.goto hholding.idle
          ⟨hholding, htoken, huser, not_not.mp hlive⟩

theorem Guarded.scan
    {state : SessionState Process Id} (hguarded : state.Guarded)
    {process : Process} {userId family : Id} {revocation : Revocation Id}
    (hholding : state.Holding process userId)
    (hfamily : revocation.family = some family)
    (howns : state.Owns userId family) :
    (state.goto process
      (.revoking userId revocation (state.scan userId revocation))).Guarded := by
  have huser := fun {id : Id} (hmem : id ∈ state.family family) =>
    hguarded.coherent.user_of_owns howns hmem
  refine hguarded.goto hholding.idle ⟨hholding, ?_, ?_⟩
  · cases revocation with
    | reuse found =>
        obtain rfl := Option.some.inj hfamily
        refine ⟨fun _ h => ?_, fun _ h id hmem _ => ?_, nofun⟩
        · exact Option.some.inj h ▸ howns
        · exact Option.some.inj h ▸ hmem
    | presented found =>
        obtain rfl := Option.some.inj hfamily
        refine ⟨fun _ h => ?_, fun _ h id hmem hlive => ?_, nofun⟩
        · exact Option.some.inj h ▸ howns
        · obtain rfl := Option.some.inj h
          exact Finset.mem_filter.mpr ⟨hmem, (huser hmem).2, hlive⟩
    | _ => contradiction
  · intro id hmem
    cases revocation with
    | reuse found =>
        obtain rfl := Option.some.inj hfamily
        exact huser hmem
    | presented found =>
        obtain rfl := Option.some.inj hfamily
        exact huser (Finset.mem_filter.mp hmem).1
    | _ => contradiction

theorem Guarded.read
    {state next : SessionState Process Id} (hguarded : state.Guarded)
    {process : Process} {now : Instant}
    (hread : state.read process now = some next) : next.Guarded := by
  have hself := hguarded.sound process
  unfold SessionState.read at hread
  split at hread
  next userId _ hsession =>
    rw [hsession] at hself
    split at hread
    · exact Option.some.inj hread ▸ hguarded.finish _ _
    next hactive =>
      exact Option.some.inj hread ▸
        hguarded.goto hself.1.idle ⟨hself.1, not_not.mp hactive⟩
  next userId tokenId hsession =>
    rw [hsession] at hself
    exact Option.some.inj hread ▸
      hguarded.readRefresh now hself.1 hself.2.2
  next userId _ body hsession =>
    rw [hsession] at hself
    exact Option.some.inj hread ▸ hguarded.readLogout body hself.1
  next userId tokenId hsession =>
    rw [hsession] at hself
    split at hread
    · exact Option.some.inj hread ▸ hguarded.finish _ _
    next hactive =>
      rw [not_or, not_not, not_not] at hactive
      exact Option.some.inj hread ▸
        hguarded.goto hself.1.idle ⟨hself.1, hself.2, hactive.1⟩
  next userId revocation hsession =>
    rw [hsession] at hself
    obtain ⟨hholding, family, hfamily, howns⟩ := hself
    exact Option.some.inj hread ▸ hguarded.scan hholding hfamily howns
  next => contradiction

/-! ## Commits of session requests -/

omit [DecidableEq Id] [DecidableEq Process] in
/-- A transaction has written refresh tokens of one user and nothing else. -/
structure WritesTokens
    (state after : SessionState Process Id) (userId : Id) : Prop where
  session : after.session = state.session
  phase : after.users.phase = state.users.phase
  tenantLock : after.users.tenantLock = state.users.tenantLock
  userLock : after.users.userLock = state.users.userLock
  users : after.users.store.users = state.users.store.users
  user : after.users.store.user = state.users.store.user
  rows : state.KeepsRows after
  new : ∀ id ∈ after.tokens,
    id ∈ state.tokens ∨ (after.token id).user = userId
  liveTokens : ∀ other, other ≠ userId →
    after.users.store.liveTokens other = state.users.store.liveTokens other

section Tokens

omit [DecidableEq Process]

omit [DecidableEq Id] in
theorem WritesTokens.trans
    {state after later : SessionState Process Id} {userId : Id}
    (hfirst : state.WritesTokens after userId)
    (hsecond : after.WritesTokens later userId) :
    state.WritesTokens later userId where
  session := hsecond.session.trans hfirst.session
  phase := hsecond.phase.trans hfirst.phase
  tenantLock := hsecond.tenantLock.trans hfirst.tenantLock
  userLock := hsecond.userLock.trans hfirst.userLock
  users := hsecond.users.trans hfirst.users
  user := hsecond.user.trans hfirst.user
  rows id hmem := by
    obtain ⟨hafter, hrow⟩ := hfirst.rows id hmem
    obtain ⟨hlater, hsame⟩ := hsecond.rows id hafter
    exact ⟨hlater, hsame.trans hrow⟩
  new id hmem := by
    rcases hsecond.new id hmem with hafter | hown
    · rcases hfirst.new id hafter with hold | hown
      · exact .inl hold
      · exact .inr ((congrArg _ (hsecond.rows id hafter).2).trans hown)
    · exact .inr hown
  liveTokens other hne :=
    (hsecond.liveTokens other hne).trans (hfirst.liveTokens other hne)

theorem revokeTokens_live
    {state : SessionState Process Id} {revoked : Finset Id} {id : Id} :
    (state.revokeTokens revoked).Live id ↔ state.Live id ∧ id ∉ revoked := by
  simp [Live, SessionState.revokeTokens]

theorem revokeTokens_writes
    {state : SessionState Process Id} (hcoherent : state.Coherent)
    {userId : Id} {revoked : Finset Id}
    (howned : ∀ id ∈ revoked,
      id ∈ state.tokens ∧ (state.token id).user = userId) :
    state.WritesTokens (state.revokeTokens revoked) userId where
  session := rfl
  phase := rfl
  tenantLock := rfl
  userLock := rfl
  users := rfl
  user := rfl
  rows _ hmem := ⟨hmem, rfl⟩
  new _ hmem := .inl hmem
  liveTokens other hne := by
    apply Finset.sdiff_eq_self_of_disjoint
    rw [Finset.disjoint_left]
    intro id hlive hrevoked
    apply hne
    rw [← (hcoherent.owned other id hlive).2, (howned id hrevoked).2]

theorem Coherent.revokeTokens
    {state : SessionState Process Id} (hcoherent : state.Coherent)
    (revoked : Finset Id) : (state.revokeTokens revoked).Coherent where
  member := hcoherent.member
  owned userId id hlive :=
    hcoherent.owned userId id (Finset.mem_sdiff.mp hlive).1
  family := hcoherent.family
  single first second hfirst hsecond :=
    hcoherent.single first second (revokeTokens_live.mp hfirst).1
      (revokeTokens_live.mp hsecond).1

variable {state : SessionState Process Id} {tokenId : Id}
  {row : TokenRow Id}

theorem insertToken_live {id : Id} :
    (state.insertToken tokenId row).Live id ↔
      id = tokenId ∨ state.Live id := by
  by_cases heq : id = tokenId
  · subst heq
    simp [Live, SessionState.insertToken]
  · by_cases huser : (state.token id).user = row.user
    · simp [Live, SessionState.insertToken, heq, huser]
    · simp [Live, SessionState.insertToken, heq, huser]

theorem insertToken_writes (hfree : tokenId ∉ state.tokens) :
    state.WritesTokens (state.insertToken tokenId row) row.user where
  session := rfl
  phase := rfl
  tenantLock := rfl
  userLock := rfl
  users := rfl
  user := rfl
  rows id hmem := by
    have hne : id ≠ tokenId := fun heq => hfree (heq ▸ hmem)
    exact ⟨Finset.mem_insert_of_mem hmem, Function.update_of_ne hne ..⟩
  new id hmem := by
    rcases Finset.mem_insert.mp hmem with rfl | hold
    · exact .inr (by simp [SessionState.insertToken])
    · exact .inl hold
  liveTokens other hne := Function.update_of_ne hne ..

/-- A new token may join a family without a token which is not revoked. -/
theorem Coherent.insertToken
    (hcoherent : state.Coherent) (hfree : tokenId ∉ state.tokens)
    (hmember : row.user ∈ state.users.store.users)
    (hfamily : ∀ id ∈ state.family row.family,
      (state.token id).user = row.user ∧ ¬state.Live id) :
    (state.insertToken tokenId row).Coherent := by
  have hself : (state.insertToken tokenId row).token tokenId = row :=
    Function.update_self ..
  have hold : ∀ id ∈ state.tokens,
      (state.insertToken tokenId row).token id = state.token id := by
    intro id hmem
    refine Function.update_of_ne ?_ ..
    rintro rfl
    exact hfree hmem
  constructor
  · intro id hmem
    rcases Finset.mem_insert.mp hmem with rfl | hmem
    · rw [hself]
      exact hmember
    · rw [hold id hmem]
      exact hcoherent.member id hmem
  · intro userId id hlive
    by_cases hrow : userId = row.user
    · subst hrow
      simp only [SessionState.insertToken, Function.update_self] at hlive
      rcases Finset.mem_insert.mp hlive with rfl | hlive
      · exact ⟨Finset.mem_insert_self .., by rw [hself]⟩
      · obtain ⟨hmem, huser⟩ := hcoherent.owned _ id hlive
        exact ⟨Finset.mem_insert_of_mem hmem, by rw [hold id hmem, huser]⟩
    · simp only [SessionState.insertToken,
        Function.update_of_ne hrow] at hlive
      obtain ⟨hmem, huser⟩ := hcoherent.owned _ id hlive
      exact ⟨Finset.mem_insert_of_mem hmem, by rw [hold id hmem, huser]⟩
  · intro first hfirst second hsecond
    rcases Finset.mem_insert.mp hfirst with rfl | hleft <;>
      rcases Finset.mem_insert.mp hsecond with rfl | hright
    · exact fun _ => rfl
    · rw [hself, hold second hright]
      intro hsame
      exact (hfamily second (mem_family.mpr ⟨hright, hsame.symm⟩)).1.symm
    · rw [hself, hold first hleft]
      intro hsame
      exact (hfamily first (mem_family.mpr ⟨hleft, hsame⟩)).1
    · rw [hold first hleft, hold second hright]
      exact hcoherent.family first hleft second hright
  · intro first second hfirst hsecond
    rw [insertToken_live] at hfirst hsecond
    rcases hfirst with rfl | hfirst <;> rcases hsecond with rfl | hsecond
    · exact fun _ => rfl
    · have hmem := hcoherent.mem_tokens hsecond
      rw [hself, hold second hmem]
      intro hsame
      exact absurd hsecond
        (hfamily second (mem_family.mpr ⟨hmem, hsame.symm⟩)).2
    · have hmem := hcoherent.mem_tokens hfirst
      rw [hself, hold first hmem]
      intro hsame
      exact absurd hfirst (hfamily first (mem_family.mpr ⟨hmem, hsame⟩)).2
    · rw [hold first (hcoherent.mem_tokens hfirst),
        hold second (hcoherent.mem_tokens hsecond)]
      exact hcoherent.single first second hfirst hsecond

end Tokens

theorem commit_cases
    {ttlDays : ℤ} {state next : SessionState Process Id} {process : Process}
    {drawn : Drawn Id} {now : Instant}
    (hcommit : state.commit ttlDays process drawn now = some next) :
    (∃ userId row, state.session process = .signing userId ∧
      row.user = userId ∧ drawn.id ∉ state.tokens ∧
      state.family row.family = ∅ ∧
      next = (state.insertToken drawn.id row).finish process .succeeded) ∨
    (∃ userId tokenId row, state.session process = .rotating userId tokenId ∧
      row.user = userId ∧ drawn.id ∉ state.tokens ∧
      row.family = (state.token tokenId).family ∧
      next = ((state.revokeTokens {tokenId}).insertToken drawn.id row).finish
        process .succeeded) ∨
    ∃ userId revocation revoked,
      state.session process = .revoking userId revocation revoked ∧
      next =
        (state.revokeTokens revoked).finish process revocation.outcome := by
  unfold SessionState.commit at hcommit
  split at hcommit
  next userId hsession =>
    split at hcommit
    next hfree =>
      exact .inl ⟨userId, _, hsession, rfl, hfree.1, hfree.2,
        (Option.some.inj hcommit).symm⟩
    · contradiction
  next userId tokenId hsession =>
    split at hcommit
    next hfree =>
      let row : TokenRow Id :=
        ⟨userId, (state.token tokenId).family, drawn.jti,
          now + ttlDays * microsecondsPerDay⟩
      exact .inr (.inl ⟨userId, tokenId, row, hsession, rfl, hfree, rfl,
        (Option.some.inj hcommit).symm⟩)
    · contradiction
  next userId revocation revoked hsession =>
    exact .inr (.inr ⟨userId, revocation, revoked, hsession,
      (Option.some.inj hcommit).symm⟩)
  · contradiction

omit [DecidableEq Id] [DecidableEq Process] in
theorem WritesTokens.sameSession
    {state after : SessionState Process Id} {userId other : Id}
    (hwrites : state.WritesTokens after userId) (hne : other ≠ userId) :
    state.SameSession after other where
  user := by rw [hwrites.user]
  liveTokens := hwrites.liveTokens other hne
  old := hwrites.rows
  new id hmem huser := by
    rcases hwrites.new id hmem with hold | hown
    · exact hold
    · exact absurd (huser.symm.trans hown) hne

omit [DecidableEq Process] in
/-- Whoever relies on the tokens of a user holds the user for update. -/
theorem holding_of_scope
    {state : SessionState Process Id} {process : Process}
    {phase : SessionPhase Id} (hsound : phase.Sound state process)
    {userId : Id} (hscope : phase.scope = some userId) :
    state.Holding process userId := by
  cases phase with
  | idle => contradiction
  | sharing _ _ => contradiction
  | locking _ _ => contradiction
  | ended _ => contradiction
  | signing _ => exact Option.some.inj hscope ▸ hsound.1
  | inScope _ _ => exact Option.some.inj hscope ▸ hsound.1
  | presenting _ _ => exact Option.some.inj hscope ▸ hsound.1
  | scanning _ _ => exact Option.some.inj hscope ▸ hsound.1
  | rotating _ _ => exact Option.some.inj hscope ▸ hsound.1
  | revoking _ _ _ => exact Option.some.inj hscope ▸ hsound.1

theorem Guarded.finish_writes
    {state after : SessionState Process Id} (hguarded : state.Guarded)
    {process : Process} {userId : Id} (hholding : state.Holding process userId)
    (hwrites : state.WritesTokens after userId) (hcoherent : after.Coherent)
    (hdisabled : (state.users.store.user userId).status = .disabled →
      after.users.store.liveTokens userId = ∅) (outcome : Outcome) :
    (after.finish process outcome).Guarded := by
  have hmoves := finish_moves after process outcome
  have hphase : ∀ other, other ≠ process →
      (after.finish process outcome).users.phase other =
        state.users.phase other := by
    intro other hne
    rw [(hmoves.others other hne).2.1, hwrites.phase]
  have hkeeps : ∀ other, other ≠ process →
      state.users.KeepsLocks (after.finish process outcome).users other := by
    intro other hne
    obtain ⟨htenant, huser⟩ := (hmoves.others other hne).2.2
    rw [hwrites.tenantLock] at htenant
    rw [hwrites.userLock] at huser
    exact ⟨htenant, huser⟩
  have hended : ∀ {edit : Edit Id},
      edit ∉ ((after.finish process outcome).users.phase process).edit := by
    intro edit hedit
    simp [SessionState.finish, UserPhase.edit] at hedit
  refine ⟨?_, ?_, hmoves.coherent hcoherent, fun other => ?_, ?_⟩
  · intro other change progress rest hwriting
    by_cases heq : other = process
    · subst heq
      simp [SessionState.finish] at hwriting
    · rw [hphase other heq] at hwriting
      obtain ⟨done, hsplit, hexecuted⟩ :=
        hguarded.tracks other change progress rest hwriting
      refine ⟨done, hsplit, hexecuted.mono (hkeeps other heq) fun hread => ?_⟩
      -- It holds its target for update, so its target is another user.
      have htarget : change.target ≠ userId := by
        rintro rfl
        exact heq (RowLock.holds_forUpdate_unique hholding.holds
          (hexecuted.holds_of_read hsplit hread)).symm
      exact (hwrites.liveTokens _ htarget).le
  · intro other edit hedit
    by_cases heq : other = process
    · subst heq
      exact absurd hedit hended
    · rw [hphase other heq] at hedit
      exact hguarded.ends other edit hedit
  · by_cases heq : other = process
    · subst heq
      rw [hmoves.self]
      trivial
    · have hself := hguarded.sound other
      rw [(hmoves.others other heq).1, hwrites.session]
      refine SameSession.sound hself ?_ (hphase other heq) (hkeeps other heq)
        (hmoves.coherent hcoherent) ?_ fun scope hscope => ?_
      · rw [hmoves.store, hwrites.users]
      · exact fun id hmem => hwrites.rows id hmem
      · have hne : scope ≠ userId := by
          rintro rfl
          exact heq (RowLock.holds_forUpdate_unique hholding.holds
            (holding_of_scope hself hscope).holds).symm
        obtain ⟨huser, hlive, hold, hnew⟩ := hwrites.sameSession hne
        exact ⟨huser, hlive, hold, hnew⟩
  · intro other hmem hstatus
    rw [hmoves.store] at hmem hstatus ⊢
    rw [hwrites.users] at hmem
    rw [hwrites.user] at hstatus
    by_cases heq : other = userId
    · subst heq
      exact hdisabled hstatus
    · rw [hwrites.liveTokens other heq]
      exact hguarded.disabled other hmem hstatus

theorem Guarded.commit
    {ttlDays : ℤ} {state next : SessionState Process Id}
    (hguarded : state.Guarded) {process : Process} {drawn : Drawn Id}
    {now : Instant}
    (hcommit : state.commit ttlDays process drawn now = some next) :
    next.Guarded := by
  have hself := hguarded.sound process
  have hcoherent := hguarded.coherent
  rcases commit_cases hcommit with
    ⟨userId, row, hsession, hrow, hfree, hfamily, rfl⟩ |
    ⟨userId, tokenId, row, hsession, hrow, hfree, hfamily, rfl⟩ |
    ⟨userId, revocation, revoked, hsession, rfl⟩
  · rw [hsession] at hself
    obtain ⟨hholding, hactive⟩ := hself
    subst hrow
    refine hguarded.finish_writes hholding (insertToken_writes hfree)
      (hcoherent.insertToken hfree hholding.member ?_) ?_ _
    · simp [hfamily]
    · rw [hactive]
      exact nofun
  · rw [hsession] at hself
    obtain ⟨hholding, ⟨hmem, huser, hlive⟩, hactive⟩ := hself
    subst hrow
    have howned : ∀ id ∈ ({tokenId} : Finset Id),
        id ∈ state.tokens ∧ (state.token id).user = row.user := by
      intro id hid
      rw [Finset.mem_singleton.mp hid]
      exact ⟨hmem, huser⟩
    have hrevokes := revokeTokens_writes hcoherent howned
    have hinserts : (state.revokeTokens {tokenId}).WritesTokens
        ((state.revokeTokens {tokenId}).insertToken drawn.id row)
        row.user :=
      insertToken_writes hfree
    refine hguarded.finish_writes hholding (hrevokes.trans hinserts)
      ((hcoherent.revokeTokens _).insertToken hfree hholding.member ?_) ?_ _
    · intro id hid
      obtain ⟨htoken, hsame⟩ := mem_family.mp hid
      refine ⟨?_, fun hother => ?_⟩
      · exact (hcoherent.family id htoken tokenId hmem
          (hsame.trans hfamily)).trans huser
      · -- The presented token was the live one of its family.
        obtain ⟨hlast, hother⟩ := revokeTokens_live.mp hother
        exact hother (Finset.mem_singleton.mpr
          (hcoherent.single id tokenId hlast hlive (hsame.trans hfamily)))
    · rw [hactive]
      exact nofun
  · rw [hsession] at hself
    obtain ⟨hholding, -, howned⟩ := hself
    refine hguarded.finish_writes hholding
      (revokeTokens_writes hcoherent howned) (hcoherent.revokeTokens revoked)
      (fun hstatus => ?_) _
    have hnone := hguarded.disabled userId hholding.member hstatus
    simp [SessionState.revokeTokens, hnone]

/-! ## Requests which manage users -/

section Users

variable [ToString Id]

/-- A user whose row another process holds for update keeps the session. -/
theorem Guarded.users_sameSession
    {state : SessionState Process Id} (hguarded : state.Guarded)
    {action : UserAction Process Id} {users : UserState Process Id}
    (hstep : state.users.step action = some users) {other : Process}
    (hne : other ≠ action.process) {userId : Id}
    (hholding : state.Holding other userId) :
    state.SameSession { state with users := users } userId := by
  have hsame : users.store.user userId = state.users.store.user userId ∧
      users.store.liveTokens userId =
        state.users.store.liveTokens userId := by
    rcases UserState.step_effect hstep with
      ⟨process, work, store, rfl, hphase, happly, rfl⟩ | heffect
    · have hfree : ∀ mode,
          ¬(state.users.userLock userId).Holds process mode :=
        fun mode hholds =>
          hne (RowLock.holds_forUpdate_unique hholding.holds hholds)
      by_cases htarget : work.target = some userId
      · cases work with
        | edit change progress =>
            obtain rfl : change.target = userId := Option.some.inj htarget
            have hexecuted := hguarded.tracks.executed_of_nil hphase
            have hchanges : change.final = change.loaded := by
              by_contra hchanges
              exact hfree _ (hexecuted.holds_of_changes hchanges)
            have hrevoked : progress.revoked = ∅ := by
              by_contra hsome
              obtain ⟨id, hid⟩ := Finset.nonempty_iff_ne_empty.mpr hsome
              exact hfree _
                (hexecuted.holds_of_revoked (List.append_nil _) hid)
            constructor
            · rw [UserState.finish_store,
                (UserStore.commitEdit_eq_some happly).2.1, hchanges]
              simp [User.writeBack, writeBack]
            · rw [UserState.finish_store,
                UserStore.commitEdit_liveTokens happly, hrevoked,
                Finset.sdiff_empty]
        | _ => contradiction
      · have hkept := Work.apply_sameUser happly hholding.member htarget
        exact ⟨hkept.user, hkept.liveTokens⟩
    · rw [heffect.store_eq]
      exact ⟨rfl, rfl⟩
  exact ⟨hsame.1, hsame.2, fun _ hmem => ⟨hmem, rfl⟩, fun _ hmem _ => hmem⟩

theorem Coherent.users
    {state : SessionState Process Id} (hcoherent : state.Coherent)
    {action : UserAction Process Id} {users : UserState Process Id}
    (hstep : state.users.step action = some users) :
    SessionState.Coherent { state with users := users } where
  member id hmem := UserState.step_users hstep (hcoherent.member id hmem)
  owned userId id hlive :=
    hcoherent.owned userId id (UserState.step_liveTokens hstep userId hlive)
  family := hcoherent.family
  single first second hfirst hsecond :=
    hcoherent.single first second
      (UserState.step_liveTokens hstep _ hfirst)
      (UserState.step_liveTokens hstep _ hsecond)

/-- Whoever disables a user revokes what the user has. -/
theorem Guarded.users_disabled
    {state : SessionState Process Id} (hguarded : state.Guarded)
    {action : UserAction Process Id} {users : UserState Process Id}
    (hstep : state.users.step action = some users) {userId : Id}
    (hmem : userId ∈ users.store.users)
    (hstatus : (users.store.user userId).status = .disabled) :
    users.store.liveTokens userId = ∅ := by
  have hold : userId ∈ state.users.store.users →
      (state.users.store.user userId).status = .disabled →
        users.store.liveTokens userId = ∅ := by
    intro hmem hstatus
    have hnone := hguarded.disabled userId hmem hstatus
    exact Finset.subset_empty.mp
      (hnone ▸ UserState.step_liveTokens hstep userId)
  rcases UserState.step_effect hstep with
    ⟨process, work, store, rfl, hphase, happly, rfl⟩ | heffect
  · rw [UserState.finish_store] at hmem hstatus
    rcases Work.apply_cases happly with
      ⟨change, progress, rfl, husers, htarget, hothers⟩ |
      ⟨newId, role, -, -, husers, huser, -⟩ | ⟨husers, hsame⟩
    · by_cases heq : userId = change.target
      · subst heq
        rw [htarget] at hstatus
        by_cases hchanges : change.final.status = change.loaded.status
        · simp only [User.writeBack, writeBack_of_eq hchanges] at hstatus
          exact hold (husers ▸ hmem) hstatus
        · simp only [User.writeBack, writeBack_of_ne hchanges] at hstatus
          have hends : change.endsSessions = true :=
            hguarded.ends process change (by rw [hphase]; rfl) hstatus
              fun hloaded => hchanges (hstatus.trans hloaded.symm)
          have hexecuted := hguarded.tracks.executed_of_nil hphase
          rw [UserState.finish_store,
            UserStore.commitEdit_liveTokens happly]
          exact Finset.sdiff_eq_empty_iff_subset.mpr
            (hexecuted.liveTokens_subset hends)
      · rw [(hothers userId heq).user] at hstatus
        exact hold (husers ▸ hmem) hstatus
    · rw [huser] at hstatus
      by_cases heq : userId = newId
      · subst heq
        simp at hstatus
      · rw [Function.update_of_ne heq] at hstatus
        rw [husers] at hmem
        exact hold (Finset.mem_of_mem_insert_of_ne hmem heq) hstatus
    · rw [(hsame userId).user] at hstatus
      exact hold (husers ▸ hmem) hstatus
  · rw [heffect.store_eq] at hmem hstatus
    exact hold hmem hstatus

theorem Guarded.users
    {state : SessionState Process Id} (hguarded : state.Guarded)
    {action : UserAction Process Id} {users : UserState Process Id}
    (hidle : state.session action.process = .idle)
    (hstep : state.users.step action = some users) :
    SessionState.Guarded { state with users := users } where
  tracks := hguarded.tracks.step hstep
  ends := UserState.step_ends hguarded.ends hstep
  coherent := hguarded.coherent.users hstep
  sound other := by
    have hself := hguarded.sound other
    by_cases heq : other = action.process
    · subst heq
      rw [hidle]
      trivial
    · refine SameSession.sound hself (UserState.step_users hstep)
        (UserState.step_phase_of_ne hstep heq)
        (UserState.step_keepsLocks hstep heq) (hguarded.coherent.users hstep)
        (fun _ hmem => ⟨hmem, rfl⟩) fun userId hscope => ?_
      exact hguarded.users_sameSession hstep heq
        (holding_of_scope hself hscope)
  disabled _ := hguarded.users_disabled hstep

/-! ## Steps and runs -/

theorem Guarded.step
    {ttlDays : ℤ} {state next : SessionState Process Id}
    (hguarded : state.Guarded) {action : SessionAction Process Id}
    (hstep : state.step ttlDays action = some next) : next.Guarded := by
  cases action with
  | users action =>
      simp only [SessionState.step] at hstep
      split at hstep
      next hidle =>
        obtain ⟨users, husers, rfl⟩ := Option.map_eq_some_iff.mp hstep
        exact hguarded.users hidle husers
      · contradiction
  | start process request =>
      simp only [SessionState.step] at hstep
      split at hstep
      next hidle => exact hguarded.start hidle.2 hstep
      · contradiction
  | shareTenant process =>
      simp only [SessionState.step] at hstep
      split at hstep
      next userId request hsession =>
        obtain ⟨users, hlock, rfl⟩ := Option.map_eq_some_iff.mp hstep
        exact hguarded.shareTenant hsession hlock
      · contradiction
  | lockUser process =>
      simp only [SessionState.step] at hstep
      split at hstep
      next userId request hsession =>
        obtain ⟨users, hlock, rfl⟩ := Option.map_eq_some_iff.mp hstep
        exact hguarded.lockUser hsession hlock
      · contradiction
  | read process now => exact hguarded.read hstep
  | commit process drawn now => exact hguarded.commit hstep
  | rollback process =>
      simp only [SessionState.step] at hstep
      split at hstep
      · exact Option.some.inj hstep ▸ hguarded.finish _ _
      · contradiction

theorem guarded_of_reachable
    {ttlDays : ℤ} {state : SessionState Process Id}
    (hreach : (sessionMachine ttlDays Process Id).Reachable state) :
    state.Guarded :=
  Machine.Reachable.invariant (fun _ => Fresh.guarded)
    (fun _ _ _ hguarded hstep => hguarded.step hstep) hreach

end Users

end SessionState

end NotifyHub
