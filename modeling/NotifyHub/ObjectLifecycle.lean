import NotifyHub.ObjectStorage
import Mathlib.Tactic

/-!
# The life of a payload in the object store

A key is lost once no notification has it and no ingestion can commit it any
more, because there is none or because its upload is older than a day.  A
lost key stays lost.  Pending rows only name lost keys, and so does what the
orphan purge deletes: an object older than its cutoff was uploaded a day
before the purge started, so its notification is among the keys the purge has
read, or never comes.
-/

namespace NotifyHub

variable {Process : Type*} {Id : Type}

/-- The upload is so old that its ingestion does not commit any more. -/
def ObjectPhase.Overdue (now : Instant) : ObjectPhase Id → Prop
  | .uploaded _ lastModified => lastModified + microsecondsPerDay < now
  | _ => False

instance (now : Instant) (phase : ObjectPhase Id) :
    Decidable (phase.Overdue now) :=
  match phase with
  | .uploaded _ lastModified =>
      inferInstanceAs (Decidable (lastModified + microsecondsPerDay < now))
  | .idle | .uploading _ | .draining _ _ | .deleting _ _ | .recording _ _ _
  | .readingTenants _ | .readingKeys _ _ _ | .purging _ _ _ | .ended =>
      .isFalse id

/-- An ingestion commits within a day of its upload. -/
def ObjectState.OnTime (state : ObjectState Process Id) :
    ObjectAction Process Id → Prop
  | .commit process => ¬(state.phase process).Overdue state.now
  | _ => True

instance ObjectState.decidableOnTime
    (state : ObjectState Process Id) (action : ObjectAction Process Id) :
    Decidable (state.OnTime action) :=
  match action with
  | .commit process =>
      inferInstanceAs (Decidable ¬(state.phase process).Overdue state.now)
  | .tick _ | .createTenant _ | .storeInline _ _ | .prepare _ _ _
  | .upload _ _ | .delete _ _ _ | .drain _ | .select _ | .deleteObject _ _ _
  | .record _ | .purge _ | .readTenants _ | .readKeys _ | .listPage _ _
  | .purgeObject _ _ | .crash _ => .isTrue trivial

namespace ObjectState

structure Lost (state : ObjectState Process Id) (key : ObjectKey Id) :
    Prop where
  drawn : key.notificationId ∈ state.drawn
  uncommitted : ∀ payload ∈ state.notifications,
    payload.storageKey ≠ some key
  overdue : ∀ process payload,
    (state.phase process).inFlight = some payload →
      payload.storageKey = some key →
        (state.phase process).Overdue state.now

/-- The keys of the notifications whose objects are older than the cutoff
are known, except those of tenants still to be read. -/
def Complete
    (state : ObjectState Process Id) (cutoff : Instant) (tenants : List Id)
    (known : Finset (ObjectKey Id)) : Prop :=
  ∀ payload ∈ state.notifications, ∀ key ∈ payload.storageKey,
    ∀ lastModified ∈ state.bucket key, lastModified < cutoff →
      key ∈ known ∨ payload.tenantId ∈ tenants

end ObjectState

/-- What a process relies on in each phase. -/
def ObjectPhase.Sound (state : ObjectState Process Id) :
    ObjectPhase Id → Prop
  | .uploading payload =>
      ∀ key ∈ payload.storageKey, state.bucket key = none
  | .uploaded payload lastModified =>
      ∀ key ∈ payload.storageKey,
        state.bucket key = some lastModified ∨
          lastModified + microsecondsPerDay < state.now
  | .deleting row _ | .recording row _ _ => state.Lost row.storageKey
  | .readingTenants cutoff => cutoff + microsecondsPerDay ≤ state.now
  | .readingKeys cutoff tenants known =>
      cutoff + microsecondsPerDay ≤ state.now ∧
        state.Complete cutoff tenants known
  | .purging cutoff known page =>
      cutoff + microsecondsPerDay ≤ state.now ∧
        state.Complete cutoff [] known ∧
        ∀ entry ∈ page, entry.2 < cutoff → entry.1 ∉ known →
          state.Lost entry.1
  | .idle | .draining _ _ | .ended => True

/-- The payload of an ingestion which has not committed. -/
structure ObjectState.Fits
    (state : ObjectState Process Id) (payload : StoredPayload Id) : Prop where
  tenant : payload.tenantId ∈ state.tenants
  drawn : payload.id ∈ state.drawn
  key : ∀ key ∈ payload.storageKey, key.notificationId = payload.id

structure ObjectState.Sound (state : ObjectState Process Id) : Prop where
  committed : ∀ payload ∈ state.notifications, state.Fits payload
  unique : ∀ first ∈ state.notifications, ∀ second ∈ state.notifications,
    first.id = second.id → first = second
  present : ∀ payload ∈ state.notifications, ∀ key ∈ payload.storageKey,
    (state.bucket key).isSome
  object : ∀ key, (state.bucket key).isSome →
    key.notificationId ∈ state.drawn
  pending : ∀ row ∈ state.pending, state.Lost row.storageKey
  inFlight : ∀ process payload,
    (state.phase process).inFlight = some payload →
      state.Fits payload ∧
        ∀ other ∈ state.notifications, other.id ≠ payload.id
  apart : ∀ first second, first ≠ second → ∀ payload other,
    (state.phase first).inFlight = some payload →
      (state.phase second).inFlight = some other → payload.id ≠ other.id
  phase : ∀ process, (state.phase process).Sound state

namespace ObjectState

theorem Empty.sound {state : ObjectState Process Id} (hempty : state.Empty) :
    state.Sound := by
  have hidle : ∀ process, state.phase process = .idle := hempty.phase
  constructor
  · simp [hempty.notifications]
  · simp [hempty.notifications]
  · simp [hempty.notifications]
  · simp [hempty.bucket]
  · simp [hempty.pending]
  · simp [hidle, ObjectPhase.inFlight]
  · simp [hidle, ObjectPhase.inFlight]
  · intro process
    rw [hidle process]
    trivial

/-! ## Lost keys stay lost -/

section Lost

variable {state next : ObjectState Process Id} {key : ObjectKey Id}

/-- How a step may change what makes a key lost. -/
structure Ages (state next : ObjectState Process Id) : Prop where
  now : state.now ≤ next.now
  drawn : state.drawn ⊆ next.drawn
  notifications : ∀ payload ∈ next.notifications,
    payload ∈ state.notifications ∨
      payload.storageKey = none ∨
      ∃ process, (state.phase process).inFlight = some payload ∧
        ¬(state.phase process).Overdue state.now
  inFlight : ∀ process payload,
    (next.phase process).inFlight = some payload →
      (payload.id ∉ state.drawn ∧
        ∀ key ∈ payload.storageKey, key.notificationId = payload.id) ∨
      ((state.phase process).inFlight = some payload ∧
        ((state.phase process).Overdue state.now →
          (next.phase process).Overdue next.now))

theorem Lost.ages (hlost : state.Lost key) (hages : state.Ages next) :
    next.Lost key where
  drawn := hages.drawn hlost.drawn
  uncommitted payload hmem hkey := by
    rcases hages.notifications payload hmem with
      hold | hnone | ⟨process, hflight, hontime⟩
    · exact hlost.uncommitted payload hold hkey
    · rw [hnone] at hkey
      contradiction
    · exact hontime (hlost.overdue process payload hflight hkey)
  overdue process payload hflight hkey := by
    rcases hages.inFlight process payload hflight with
      ⟨hnew, hown⟩ | ⟨hold, hoverdue⟩
    · rw [← hown key hkey] at hnew
      exact absurd hlost.drawn hnew
    · exact hoverdue (hlost.overdue process payload hold hkey)

end Lost

/-! ## What a step may do to the others -/

section Frame

variable {state next : ObjectState Process Id}

/-- What a process relies on survives a step which leaves its own object
alone and makes no committed object older than a cutoff. -/
theorem sound_phase
    {phase : ObjectPhase Id} (hsound : phase.Sound state)
    (hages : state.Ages next)
    (hobject : ∀ payload, phase.inFlight = some payload →
      ∀ key ∈ payload.storageKey,
        next.bucket key = state.bucket key ∨ phase.Overdue state.now)
    (hcomplete : ∀ cutoff tenants known,
      cutoff + microsecondsPerDay ≤ state.now →
        state.Complete cutoff tenants known →
          next.Complete cutoff tenants known) : phase.Sound next := by
  have hnow := hages.now
  cases phase with
  | uploading payload =>
      intro key hkey
      rcases hobject payload rfl key hkey with hsame | hoverdue
      · rw [hsame]
        exact hsound key hkey
      · exact hoverdue.elim
  | uploaded payload lastModified =>
      intro key hkey
      rcases hsound key hkey with hobj | hlate
      · rcases hobject payload rfl key hkey with hsame | hoverdue
        · rw [hsame]
          exact .inl hobj
        · exact .inr (lt_of_lt_of_le hoverdue hnow)
      · exact .inr (hlate.trans_le hnow)
  | deleting row left => exact hsound.ages hages
  | recording row left deleted => exact hsound.ages hages
  | readingTenants cutoff => exact hsound.trans hnow
  | readingKeys cutoff tenants known =>
      exact ⟨hsound.1.trans hnow, hcomplete _ _ _ hsound.1 hsound.2⟩
  | purging cutoff known page =>
      obtain ⟨hcutoff, hknown, hpage⟩ := hsound
      exact ⟨hcutoff.trans hnow, hcomplete _ _ _ hcutoff hknown,
        fun entry hmem hold hunknown =>
          (hpage entry hmem hold hunknown).ages hages⟩
  | _ => trivial

/-- Only the phase of one process changes, and it has nothing in flight. -/
theorem ages_of_phase
    [DecidableEq Process] {process : Process} {phase : ObjectPhase Id}
    (hnow : state.now ≤ next.now) (hdrawn : state.drawn ⊆ next.drawn)
    (hnotifications : ∀ payload ∈ next.notifications,
      payload ∈ state.notifications ∨ payload.storageKey = none ∨
        ∃ process, (state.phase process).inFlight = some payload ∧
          ¬(state.phase process).Overdue state.now)
    (hphase : next.phase = Function.update state.phase process phase)
    (hflight : phase.inFlight = none) : state.Ages next where
  now := hnow
  drawn := hdrawn
  notifications := hnotifications
  inFlight other payload hother := by
    rw [hphase] at hother ⊢
    by_cases heq : other = process
    · subst heq
      rw [Function.update_self, hflight] at hother
      contradiction
    · rw [Function.update_of_ne heq] at hother ⊢
      refine .inr ⟨hother, fun hoverdue => ?_⟩
      cases hold : state.phase other with
      | uploaded payload lastModified =>
          rw [hold] at hoverdue
          exact lt_of_lt_of_le hoverdue hnow
      | _ =>
          rw [hold] at hoverdue
          exact hoverdue.elim

/-- The phases stay as they are. -/
theorem ages_of_same
    (hnow : state.now ≤ next.now) (hdrawn : state.drawn ⊆ next.drawn)
    (hnotifications : ∀ payload ∈ next.notifications,
      payload ∈ state.notifications ∨ payload.storageKey = none)
    (hphase : next.phase = state.phase) : state.Ages next where
  now := hnow
  drawn := hdrawn
  notifications payload hmem := (hnotifications payload hmem).imp_right .inl
  inFlight other payload hother := by
    rw [hphase] at hother ⊢
    refine .inr ⟨hother, fun hoverdue => ?_⟩
    cases hold : state.phase other with
    | uploaded payload lastModified =>
        rw [hold] at hoverdue
        exact lt_of_lt_of_le hoverdue hnow
    | _ =>
        rw [hold] at hoverdue
        exact hoverdue.elim

theorem Complete.mono
    {cutoff : Instant} {tenants : List Id} {known : Finset (ObjectKey Id)}
    (hcomplete : state.Complete cutoff tenants known)
    (hnotifications : ∀ payload ∈ next.notifications,
      ∀ key ∈ payload.storageKey, ∀ lastModified ∈ next.bucket key,
        lastModified < cutoff →
          payload ∈ state.notifications ∧ lastModified ∈ state.bucket key) :
    next.Complete cutoff tenants known := by
  intro payload hmem key hkey lastModified hobject hold
  obtain ⟨hbefore, hsame⟩ :=
    hnotifications payload hmem key hkey lastModified hobject hold
  exact hcomplete payload hbefore key hkey lastModified hsame hold

end Frame

/-! ## Steps of one process -/

variable [DecidableEq Process] {state next : ObjectState Process Id}
  {process : Process}

/-- A process goes on without anything in flight. -/
theorem Sound.move
    (hsound : state.Sound) {phase : ObjectPhase Id}
    (hnow : next.now = state.now) (htenants : next.tenants = state.tenants)
    (hdrawn : next.drawn = state.drawn)
    (hnotifications : next.notifications = state.notifications)
    (hpending : next.pending = state.pending)
    (hbucket : next.bucket = state.bucket)
    (hphase : next.phase = Function.update state.phase process phase)
    (hflight : phase.inFlight = none) (hself : phase.Sound state) :
    next.Sound := by
  have hages : state.Ages next :=
    ages_of_phase hnow.ge hdrawn.ge
      (fun _ hmem => .inl (hnotifications ▸ hmem)) hphase hflight
  have hcomplete : ∀ cutoff tenants known,
      cutoff + microsecondsPerDay ≤ state.now →
        state.Complete cutoff tenants known →
          next.Complete cutoff tenants known := by
    intro cutoff tenants known _ hcomplete
    refine hcomplete.mono fun payload hmem key _ lastModified hobject _ => ?_
    rw [hnotifications] at hmem
    rw [hbucket] at hobject
    exact ⟨hmem, hobject⟩
  have hother : ∀ other payload,
      (next.phase other).inFlight = some payload →
        (state.phase other).inFlight = some payload := by
    intro other payload hother
    rw [hphase] at hother
    by_cases heq : other = process
    · subst heq
      rw [Function.update_self, hflight] at hother
      contradiction
    · rwa [Function.update_of_ne heq] at hother
  have hfits : ∀ payload, state.Fits payload → next.Fits payload :=
    fun payload hfits =>
      ⟨htenants ▸ hfits.tenant, hdrawn ▸ hfits.drawn, hfits.key⟩
  constructor
  · rw [hnotifications]
    exact fun payload hmem => hfits payload (hsound.committed payload hmem)
  · rw [hnotifications]
    exact hsound.unique
  · rw [hnotifications, hbucket]
    exact hsound.present
  · rw [hbucket, hdrawn]
    exact hsound.object
  · rw [hpending]
    exact fun row hmem => (hsound.pending row hmem).ages hages
  · intro other payload hflying
    obtain ⟨hown, hnew⟩ :=
      hsound.inFlight other payload (hother other payload hflying)
    exact ⟨hfits payload hown, hnotifications ▸ hnew⟩
  · intro first second hne payload other hfirst hsecond
    exact hsound.apart first second hne payload other
      (hother first payload hfirst) (hother second other hsecond)
  · intro other
    rw [hphase]
    by_cases heq : other = process
    · subst heq
      rw [Function.update_self]
      refine sound_phase hself hages (fun payload hflying => ?_) hcomplete
      rw [hflight] at hflying
      contradiction
    · rw [Function.update_of_ne heq]
      exact sound_phase (hsound.phase other) hages
        (fun _ _ key _ => .inl (by rw [hbucket])) hcomplete

theorem Sound.goto
    (hsound : state.Sound) {phase : ObjectPhase Id}
    (hflight : phase.inFlight = none) (hself : phase.Sound state) :
    (state.goto process phase).Sound :=
  hsound.move rfl rfl rfl rfl rfl rfl rfl hflight hself

/-! ## Requests to the object store -/

omit [DecidableEq Process] in
/-- Nobody relies on the object of a lost key. -/
theorem Sound.setObject
    [DecidableEq Id] (hsound : state.Sound) {key : ObjectKey Id}
    (hlost : state.Lost key) (object : Option Instant) :
    Sound
      { state with bucket := Function.update state.bucket key object } := by
  have hages : state.Ages
      { state with bucket := Function.update state.bucket key object } :=
    ages_of_same le_rfl subset_rfl (fun _ hmem => .inl hmem) rfl
  have hkey : ∀ payload ∈ state.notifications, ∀ other ∈ payload.storageKey,
      Function.update state.bucket key object other = state.bucket other := by
    rintro payload hmem other hother
    refine Function.update_of_ne ?_ ..
    rintro rfl
    exact hlost.uncommitted payload hmem hother
  constructor
  · exact fun payload hmem =>
      let ⟨htenant, hdrawn, hown⟩ := hsound.committed payload hmem
      ⟨htenant, hdrawn, hown⟩
  · exact hsound.unique
  · intro payload hmem other hother
    simp only [hkey payload hmem other hother]
    exact hsound.present payload hmem other hother
  · intro other hsome
    by_cases heq : other = key
    · subst heq
      exact hlost.drawn
    · simp only [Function.update_of_ne heq] at hsome
      exact hsound.object other hsome
  · exact fun row hmem => (hsound.pending row hmem).ages hages
  · intro other payload hflying
    obtain ⟨⟨htenant, hdrawn, hown⟩, hnew⟩ :=
      hsound.inFlight other payload hflying
    exact ⟨⟨htenant, hdrawn, hown⟩, hnew⟩
  · exact hsound.apart
  · intro other
    refine sound_phase (hsound.phase other) hages
      (fun payload hflying flown hflown => ?_)
      fun cutoff tenants known _ hcomplete => ?_
    · by_cases heq : flown = key
      · subst heq
        exact .inr (hlost.overdue other payload hflying hflown)
      · exact .inl (Function.update_of_ne heq ..)
    · refine hcomplete.mono fun payload hmem other hother _ hobject _ => ?_
      simp only [hkey payload hmem other hother] at hobject
      exact ⟨hmem, hobject⟩

omit [DecidableEq Process] in
theorem Sound.callDelete
    [LinearOrder Id] (hsound : state.Sound) {key : ObjectKey Id}
    (hlost : state.Lost key) (call : StoreCall) :
    (state.callDelete key call).Sound := by
  unfold ObjectState.callDelete
  split
  · exact hsound.setObject hlost none
  · exact hsound

omit [DecidableEq Process] in
theorem Lost.callDelete
    [LinearOrder Id] {key other : ObjectKey Id} (hlost : state.Lost key)
    (call : StoreCall) : (state.callDelete other call).Lost key := by
  unfold ObjectState.callDelete
  split
  · obtain ⟨hdrawn, huncommitted, hoverdue⟩ := hlost
    exact ⟨hdrawn, huncommitted, hoverdue⟩
  · exact hlost

/-! ## Ingestions -/

section Ingestions

variable [LinearOrder Id] {payload : StoredPayload Id}

omit [DecidableEq Process] [LinearOrder Id] in
theorem Sound.key_of_inFlight
    (hsound : state.Sound)
    (hflight : (state.phase process).inFlight = some payload)
    {key : ObjectKey Id} (hkey : payload.storageKey = some key) :
    key.notificationId ∈ state.drawn ∧
      (∀ other ∈ state.notifications, other.storageKey ≠ some key) ∧
      ∀ second, second ≠ process → ∀ other,
        (state.phase second).inFlight = some other →
          other.storageKey ≠ some key := by
  obtain ⟨hfits, hnew⟩ := hsound.inFlight process payload hflight
  have hown := hfits.key key hkey
  refine ⟨hown ▸ hfits.drawn, fun other hmem hother => ?_,
    fun second hne other hflown hother => ?_⟩
  · apply hnew other hmem
    rw [← (hsound.committed other hmem).key key hother, hown]
  · apply hsound.apart second process hne other payload hflown hflight
    rw [← (hsound.inFlight second other hflown).1.key key hother, hown]

theorem Sound.upload
    (hsound : state.Sound) (hphase : state.phase process = .uploading payload)
    {key : ObjectKey Id} (hkey : payload.storageKey = some key) :
    ((state.putObject key).goto process
      (.uploaded payload state.now)).Sound := by
  have hflight : (state.phase process).inFlight = some payload := by
    rw [hphase]
    rfl
  obtain ⟨hdrawn, huncommitted, hothers⟩ :=
    hsound.key_of_inFlight hflight hkey
  have hflown : ∀ other flying,
      (((state.putObject key).goto process
        (.uploaded payload state.now)).phase other).inFlight = some flying →
        (state.phase other).inFlight = some flying := by
    intro other flying hother
    by_cases heq : other = process
    · subst heq
      simp only [ObjectState.goto, Function.update_self] at hother
      exact hflight.trans hother
    · simpa only [ObjectState.goto, ObjectState.putObject,
        Function.update_of_ne heq] using hother
  have hages : state.Ages ((state.putObject key).goto process
      (.uploaded payload state.now)) := by
    refine ⟨le_rfl, subset_rfl, fun _ hmem => .inl hmem,
      fun other flying hother => .inr ⟨hflown other flying hother, ?_⟩⟩
    by_cases heq : other = process
    · subst heq
      rw [hphase]
      exact False.elim
    · simp only [ObjectState.goto, Function.update_of_ne heq]
      exact fun hoverdue => hoverdue
  have hbucket : ∀ other, other ≠ key →
      (state.putObject key).bucket other = state.bucket other :=
    fun other hne => Function.update_of_ne hne ..
  have hcommitted : ∀ stored ∈ state.notifications,
      ∀ other ∈ stored.storageKey,
        (state.putObject key).bucket other = state.bucket other := by
    rintro stored hmem other hother
    apply hbucket
    rintro rfl
    exact huncommitted stored hmem hother
  have hcomplete : ∀ cutoff tenants known,
      cutoff + microsecondsPerDay ≤ state.now →
        state.Complete cutoff tenants known →
          Complete ((state.putObject key).goto process
            (.uploaded payload state.now)) cutoff tenants known := by
    intro cutoff tenants known _ hcomplete
    refine hcomplete.mono fun stored hmem other hother _ hobject _ => ?_
    have hsame := hcommitted stored hmem other hother
    exact ⟨hmem, hsame ▸ hobject⟩
  constructor
  · exact fun stored hmem =>
      let ⟨htenant, hid, hown⟩ := hsound.committed stored hmem
      ⟨htenant, hid, hown⟩
  · exact hsound.unique
  · intro stored hmem other hother
    have hsame := hcommitted stored hmem other hother
    simp only [ObjectState.goto, hsame]
    exact hsound.present stored hmem other hother
  · intro other hsome
    by_cases heq : other = key
    · subst heq
      exact hdrawn
    · apply hsound.object other
      simpa only [ObjectState.goto, hbucket other heq] using hsome
  · exact fun row hmem => (hsound.pending row hmem).ages hages
  · intro other flying hother
    obtain ⟨⟨htenant, hid, hown⟩, hnew⟩ :=
      hsound.inFlight other flying (hflown other flying hother)
    exact ⟨⟨htenant, hid, hown⟩, hnew⟩
  · intro first second hne flying other hfirst hsecond
    exact hsound.apart first second hne flying other
      (hflown first flying hfirst) (hflown second other hsecond)
  · intro other
    by_cases heq : other = process
    · subst heq
      simp only [ObjectState.goto, Function.update_self]
      intro stored hstored
      obtain rfl := Option.some.inj (hkey.symm.trans hstored)
      exact .inl (Function.update_self ..)
    · simp only [ObjectState.goto, Function.update_of_ne heq]
      refine sound_phase (hsound.phase other) hages
        (fun flying hflying stored hstored => .inl ?_) hcomplete
      apply hbucket
      rintro rfl
      exact hothers other heq flying hflying hstored

/-- An upload which raises ends its ingestion, with the object or without. -/
theorem Sound.uploadRaised
    (hsound : state.Sound) (hphase : state.phase process = .uploading payload)
    {key : ObjectKey Id} (hkey : payload.storageKey = some key)
    (tookEffect : Bool) :
    ((if tookEffect then state.putObject key else state).goto process
      .ended).Sound := by
  have hflight : (state.phase process).inFlight = some payload := by
    rw [hphase]
    rfl
  obtain ⟨hdrawn, huncommitted, hothers⟩ :=
    hsound.key_of_inFlight hflight hkey
  have hended : (state.goto process .ended).Sound := hsound.goto rfl trivial
  have hlost : (state.goto process .ended).Lost key := by
    refine ⟨hdrawn, huncommitted, fun other flying hflying hsame => ?_⟩
    by_cases heq : other = process
    · subst heq
      simp [ObjectState.goto, ObjectPhase.inFlight] at hflying
    · simp only [ObjectState.goto, Function.update_of_ne heq] at hflying
      exact absurd hsame (hothers other heq flying hflying)
  cases tookEffect with
  | true => exact hended.setObject hlost (some state.now)
  | false => exact hended

theorem Sound.prepare
    (hsound : state.Sound) {tenantId notificationId : Id}
    (htenant : tenantId ∈ state.tenants)
    (hfresh : notificationId ∉ state.drawn) {key : ObjectKey Id}
    (hkey : key.notificationId = notificationId) :
    Sound
      { state.goto process
          (.uploading ⟨notificationId, tenantId, some key⟩) with
        drawn := insert notificationId state.drawn } := by
  have hgrow : state.drawn ⊆ insert notificationId state.drawn :=
    Finset.subset_insert ..
  have hflown : ∀ other flying, other ≠ process →
      (Function.update state.phase process
        (.uploading ⟨notificationId, tenantId, some key⟩) other).inFlight =
          some flying →
        (state.phase other).inFlight = some flying := by
    intro other flying hne hother
    rwa [Function.update_of_ne hne] at hother
  have hself : ∀ {flying : StoredPayload Id},
      (Function.update state.phase process
        (.uploading ⟨notificationId, tenantId, some key⟩) process).inFlight =
          some flying → flying = ⟨notificationId, tenantId, some key⟩ := by
    intro flying hflying
    rw [Function.update_self] at hflying
    exact (Option.some.inj hflying).symm
  have hages : state.Ages
      { state.goto process
          (.uploading ⟨notificationId, tenantId, some key⟩) with
        drawn := insert notificationId state.drawn } := by
    refine ⟨le_rfl, hgrow, fun _ hmem => .inl hmem,
      fun other flying hother => ?_⟩
    by_cases heq : other = process
    · subst heq
      obtain rfl := hself hother
      refine .inl ⟨hfresh, fun stored hstored => ?_⟩
      exact Option.some.inj hstored ▸ hkey
    · refine .inr ⟨hflown other flying heq hother, fun hoverdue => ?_⟩
      simpa only [ObjectState.goto, Function.update_of_ne heq] using hoverdue
  constructor
  · exact fun stored hmem =>
      let ⟨hin, hid, hown⟩ := hsound.committed stored hmem
      ⟨hin, hgrow hid, hown⟩
  · exact hsound.unique
  · exact hsound.present
  · exact fun other hsome => hgrow (hsound.object other hsome)
  · exact fun row hmem => (hsound.pending row hmem).ages hages
  · intro other flying hother
    by_cases heq : other = process
    · subst heq
      obtain rfl := hself hother
      refine ⟨⟨htenant, Finset.mem_insert_self .., fun stored hstored => ?_⟩,
        fun stored hmem hid => ?_⟩
      · exact Option.some.inj hstored ▸ hkey
      · have hold := (hsound.committed stored hmem).drawn
        rw [hid] at hold
        exact hfresh hold
    · obtain ⟨⟨hin, hid, hown⟩, hnew⟩ :=
        hsound.inFlight other flying (hflown other flying heq hother)
      exact ⟨⟨hin, hgrow hid, hown⟩, hnew⟩
  · have hdrawn : ∀ other flying, other ≠ process →
        (state.phase other).inFlight = some flying →
          flying.id ≠ notificationId := by
      rintro other flying - hflying rfl
      exact hfresh (hsound.inFlight other flying hflying).1.drawn
    intro first second hne flying other hfirst hsecond
    by_cases hleft : first = process
    · subst hleft
      obtain rfl := hself hfirst
      have hold := hflown second other hne.symm hsecond
      exact (hdrawn second other hne.symm hold).symm
    · have hold := hflown first flying hleft hfirst
      by_cases hright : second = process
      · subst hright
        obtain rfl := hself hsecond
        exact hdrawn first flying hleft hold
      · exact hsound.apart first second hne flying other hold
          (hflown second other hright hsecond)
  · intro other
    by_cases heq : other = process
    · subst heq
      simp only [ObjectState.goto, Function.update_self]
      intro stored hstored
      obtain rfl := Option.some.inj hstored
      by_contra hsome
      exact hfresh (hkey ▸ hsound.object key (Option.isSome_iff_ne_none.mpr
        hsome))
    · simp only [ObjectState.goto, Function.update_of_ne heq]
      exact sound_phase (hsound.phase other) hages
        (fun _ _ _ _ => .inl rfl) fun _ _ _ _ hcomplete => hcomplete

theorem Sound.commit
    (hsound : state.Sound) {lastModified : Instant}
    (hphase : state.phase process = .uploaded payload lastModified)
    (hontime : ¬(state.phase process).Overdue state.now) :
    Sound
      { state.goto process .ended with
        notifications := insert payload state.notifications } := by
  have hflight : (state.phase process).inFlight = some payload := by
    rw [hphase]
    rfl
  obtain ⟨hfits, hnew⟩ := hsound.inFlight process payload hflight
  have hobject : ∀ key ∈ payload.storageKey,
      state.bucket key = some lastModified := by
    intro key hkey
    have hself := hsound.phase process
    rw [hphase] at hself hontime
    exact (hself key hkey).resolve_right hontime
  have hflown : ∀ other flying,
      (Function.update state.phase process ObjectPhase.ended other).inFlight =
          some flying →
        other ≠ process ∧ (state.phase other).inFlight = some flying := by
    intro other flying hother
    by_cases heq : other = process
    · subst heq
      rw [Function.update_self] at hother
      contradiction
    · rw [Function.update_of_ne heq] at hother
      exact ⟨heq, hother⟩
  have hages : state.Ages
      { state.goto process .ended with
        notifications := insert payload state.notifications } := by
    refine ages_of_phase le_rfl subset_rfl (fun stored hmem => ?_) rfl rfl
    rcases Finset.mem_insert.mp hmem with rfl | hold
    · exact .inr (.inr ⟨process, hflight, hontime⟩)
    · exact .inl hold
  constructor
  · intro stored hmem
    rcases Finset.mem_insert.mp hmem with rfl | hold
    · exact ⟨hfits.tenant, hfits.drawn, hfits.key⟩
    · obtain ⟨hin, hid, hown⟩ := hsound.committed stored hold
      exact ⟨hin, hid, hown⟩
  · intro first hfirst second hsecond hid
    rcases Finset.mem_insert.mp hfirst with rfl | hleft <;>
      rcases Finset.mem_insert.mp hsecond with rfl | hright
    · rfl
    · exact absurd hid.symm (hnew second hright)
    · exact absurd hid (hnew first hleft)
    · exact hsound.unique first hleft second hright hid
  · intro stored hmem key hkey
    rcases Finset.mem_insert.mp hmem with rfl | hold
    · exact Option.isSome_of_eq_some (hobject key hkey)
    · exact hsound.present stored hold key hkey
  · exact hsound.object
  · exact fun row hmem => (hsound.pending row hmem).ages hages
  · intro other flying hother
    obtain ⟨hne, hflying⟩ := hflown other flying hother
    obtain ⟨⟨hin, hid, hown⟩, hfree⟩ := hsound.inFlight other flying hflying
    refine ⟨⟨hin, hid, hown⟩, fun stored hmem => ?_⟩
    rcases Finset.mem_insert.mp hmem with rfl | hold
    · exact hsound.apart process other hne.symm _ flying hflight hflying
    · exact hfree stored hold
  · intro first second hne flying other hfirst hsecond
    exact hsound.apart first second hne flying other
      (hflown first flying hfirst).2 (hflown second other hsecond).2
  · intro other
    by_cases heq : other = process
    · subst heq
      simp [ObjectState.goto, ObjectPhase.Sound]
    · simp only [ObjectState.goto, Function.update_of_ne heq]
      refine sound_phase (hsound.phase other) hages
        (fun _ _ _ _ => .inl rfl) fun cutoff tenants known hcutoff hknown => ?_
      -- The object of the new notification is younger than any cutoff.
      intro stored hmem key hkey modified hmodified hold
      rcases Finset.mem_insert.mp hmem with rfl | hstored
      · have hsame := (hobject key hkey).symm.trans hmodified
        obtain rfl := Option.some.inj hsame
        rw [hphase] at hontime
        have hrecent : state.now ≤ lastModified + microsecondsPerDay :=
          not_lt.mp hontime
        have hyoung : cutoff ≤ lastModified := by linarith
        exact absurd hold hyoung.not_gt
      · exact hknown stored hstored key hkey modified hmodified hold

end Ingestions

/-! ## The other commits -/

section Commits

variable [LinearOrder Id]

omit [DecidableEq Process] in
theorem Sound.storeInline
    (hsound : state.Sound) {tenantId notificationId : Id}
    (htenant : tenantId ∈ state.tenants)
    (hfresh : notificationId ∉ state.drawn) :
    Sound
      { state with
        drawn := insert notificationId state.drawn
        notifications :=
          insert ⟨notificationId, tenantId, none⟩ state.notifications } := by
  have hgrow : state.drawn ⊆ insert notificationId state.drawn :=
    Finset.subset_insert ..
  have hages : state.Ages
      { state with
        drawn := insert notificationId state.drawn
        notifications :=
          insert ⟨notificationId, tenantId, none⟩ state.notifications } := by
    refine ages_of_same le_rfl hgrow (fun stored hmem => ?_) rfl
    rcases Finset.mem_insert.mp hmem with rfl | hold
    · exact .inr rfl
    · exact .inl hold
  have hnew : ∀ id ∈ state.drawn, id ≠ notificationId := by
    rintro id hmem rfl
    exact hfresh hmem
  constructor
  · intro stored hmem
    rcases Finset.mem_insert.mp hmem with rfl | hold
    · exact ⟨htenant, Finset.mem_insert_self .., nofun⟩
    · obtain ⟨hin, hid, hown⟩ := hsound.committed stored hold
      exact ⟨hin, hgrow hid, hown⟩
  · intro first hfirst second hsecond hid
    rcases Finset.mem_insert.mp hfirst with rfl | hleft <;>
      rcases Finset.mem_insert.mp hsecond with rfl | hright
    · rfl
    · exact absurd hid.symm (hnew _ (hsound.committed second hright).drawn)
    · exact absurd hid (hnew _ (hsound.committed first hleft).drawn)
    · exact hsound.unique first hleft second hright hid
  · intro stored hmem key hkey
    rcases Finset.mem_insert.mp hmem with rfl | hold
    · contradiction
    · exact hsound.present stored hold key hkey
  · exact fun key hsome => hgrow (hsound.object key hsome)
  · exact fun row hmem => (hsound.pending row hmem).ages hages
  · intro other flying hflying
    obtain ⟨⟨hin, hid, hown⟩, hfree⟩ := hsound.inFlight other flying hflying
    refine ⟨⟨hin, hgrow hid, hown⟩, fun stored hmem => ?_⟩
    rcases Finset.mem_insert.mp hmem with rfl | hold
    · exact (hnew _ hid).symm
    · exact hfree stored hold
  · exact hsound.apart
  · intro other
    refine sound_phase (hsound.phase other) hages
      (fun _ _ _ _ => .inl rfl) fun cutoff tenants known _ hknown => ?_
    intro stored hmem key hkey modified hmodified hold
    rcases Finset.mem_insert.mp hmem with rfl | hstored
    · contradiction
    · exact hknown stored hstored key hkey modified hmodified hold

omit [DecidableEq Process] in
theorem Sound.delete
    (hsound : state.Sound) {removed : List (StoredPayload Id)}
    {rowId : Id → Id} {enqueuedAt : Instant}
    (hdelete : state.delete removed rowId enqueuedAt = some next) :
    next.Sound := by
  simp only [ObjectState.delete] at hdelete
  split at hdelete
  next hguard =>
    obtain rfl := Option.some.inj hdelete
    obtain ⟨hremoved, -⟩ := hguard
    have hkept : ∀ stored ∈ state.notifications \ removed.toFinset,
        stored ∈ state.notifications ∧ stored ∉ removed := by
      intro stored hmem
      obtain ⟨hold, hfree⟩ := Finset.mem_sdiff.mp hmem
      exact ⟨hold, fun hgone => hfree (List.mem_toFinset.mpr hgone)⟩
    have hgrow : state.drawn ⊆ state.drawn ∪
        ((removed.filterMap fun payload =>
          payload.enqueueDeletion rowId enqueuedAt).map
            PendingDeletion.id).toFinset := Finset.subset_union_left
    have hages : state.Ages
        { state with
          drawn := state.drawn ∪
            ((removed.filterMap fun payload =>
              payload.enqueueDeletion rowId enqueuedAt).map
                PendingDeletion.id).toFinset
          notifications := state.notifications \ removed.toFinset
          pending := removed.filterMap (fun payload =>
            payload.enqueueDeletion rowId enqueuedAt) ++ state.pending } :=
      ages_of_same le_rfl hgrow
        (fun stored hmem => .inl (hkept stored hmem).1) rfl
    constructor
    · intro stored hmem
      obtain ⟨hin, hid, hown⟩ := hsound.committed stored (hkept stored hmem).1
      exact ⟨hin, hgrow hid, hown⟩
    · exact fun first hfirst second hsecond =>
        hsound.unique first (hkept first hfirst).1
          second (hkept second hsecond).1
    · exact fun stored hmem => hsound.present stored (hkept stored hmem).1
    · exact fun key hsome => hgrow (hsound.object key hsome)
    · intro row hmem
      rcases List.mem_append.mp hmem with hrow | hold
      · obtain ⟨payload, hgone, henqueue⟩ := List.mem_filterMap.mp hrow
        obtain ⟨key, hkey, rfl⟩ := Option.map_eq_some_iff.mp henqueue
        have hpayload := hremoved payload hgone
        have hown := (hsound.committed payload hpayload).key key hkey
        refine ⟨hgrow (hown ▸ (hsound.committed payload hpayload).drawn),
          fun other hother hsame => ?_, fun process flying hflying hsame => ?_⟩
        · obtain ⟨hother, hfree⟩ := hkept other hother
          have hid := (hsound.committed other hother).key key hsame
          obtain rfl := hsound.unique other hother payload hpayload
            (hid.symm.trans hown)
          exact hfree hgone
        · obtain ⟨hfits, hfree⟩ := hsound.inFlight process flying hflying
          exact absurd (hown.symm.trans (hfits.key key hsame))
            (hfree payload hpayload)
      · exact (hsound.pending row hold).ages hages
    · intro other flying hflying
      obtain ⟨⟨hin, hid, hown⟩, hfree⟩ := hsound.inFlight other flying hflying
      exact ⟨⟨hin, hgrow hid, hown⟩, fun stored hmem =>
        hfree stored (hkept stored hmem).1⟩
    · exact hsound.apart
    · intro other
      refine sound_phase (hsound.phase other) hages
        (fun _ _ _ _ => .inl rfl) fun cutoff tenants known _ hknown => ?_
      exact hknown.mono fun stored hmem _ _ _ hobject _ =>
        ⟨(hkept stored hmem).1, hobject⟩
  next => contradiction

omit [DecidableEq Process] [LinearOrder Id] in
/-- The rows which are pending may go or count their attempts. -/
theorem Sound.setPending
    (hsound : state.Sound) {rows : List (PendingDeletion Id)}
    (hrows : ∀ row ∈ rows,
      ∃ old ∈ state.pending, old.storageKey = row.storageKey) :
    Sound { state with pending := rows } := by
  have hages : state.Ages { state with pending := rows } :=
    ages_of_same le_rfl subset_rfl (fun _ hmem => .inl hmem) rfl
  refine ⟨fun stored hmem => ?_, hsound.unique, hsound.present,
    hsound.object, fun row hmem => ?_, fun other flying hflying => ?_,
    hsound.apart, fun other => ?_⟩
  · obtain ⟨hin, hid, hown⟩ := hsound.committed stored hmem
    exact ⟨hin, hid, hown⟩
  · obtain ⟨old, hold, hkey⟩ := hrows row hmem
    exact hkey ▸ (hsound.pending old hold).ages hages
  · obtain ⟨⟨hin, hid, hown⟩, hfree⟩ := hsound.inFlight other flying hflying
    exact ⟨⟨hin, hid, hown⟩, hfree⟩
  · exact sound_phase (hsound.phase other) hages
      (fun _ _ _ _ => .inl rfl) fun _ _ _ _ hknown => hknown

theorem Sound.record
    (hsound : state.Sound) (row : PendingDeletion Id) (left : ℕ)
    (deleted : Bool) : (state.record process row left deleted).Sound := by
  have hset : Sound
      { state with
        pending := (state.record process row left deleted).pending } := by
    refine hsound.setPending fun other hmem => ?_
    unfold ObjectState.record at hmem
    cases deleted with
    | true => exact ⟨other, (List.mem_filter.mp hmem).1, rfl⟩
    | false =>
        obtain ⟨old, hold, rfl⟩ := List.mem_map.mp hmem
        refine ⟨old, hold, ?_⟩
        split <;> rfl
  exact hset.move rfl rfl rfl rfl rfl rfl rfl rfl trivial

omit [DecidableEq Process] [LinearOrder Id] in
theorem Sound.tick
    (hsound : state.Sound) {now : Instant} (hnow : state.now ≤ now) :
    Sound { state with now := now } := by
  have hages : state.Ages { state with now := now } :=
    ages_of_same hnow subset_rfl (fun _ hmem => .inl hmem) rfl
  refine ⟨fun stored hmem => ?_, hsound.unique, hsound.present,
    hsound.object, fun row hmem => (hsound.pending row hmem).ages hages,
    fun other flying hflying => ?_, hsound.apart, fun other => ?_⟩
  · obtain ⟨hin, hid, hown⟩ := hsound.committed stored hmem
    exact ⟨hin, hid, hown⟩
  · obtain ⟨⟨hin, hid, hown⟩, hfree⟩ := hsound.inFlight other flying hflying
    exact ⟨⟨hin, hid, hown⟩, hfree⟩
  · exact sound_phase (hsound.phase other) hages
      (fun _ _ _ _ => .inl rfl) fun _ _ _ _ hknown => hknown

omit [DecidableEq Process] [LinearOrder Id] in
theorem Sound.createTenant (hsound : state.Sound) (tenantId : Id) :
    Sound { state with tenants := tenantId :: state.tenants } := by
  have hages : state.Ages
      { state with tenants := tenantId :: state.tenants } :=
    ages_of_same le_rfl subset_rfl (fun _ hmem => .inl hmem) rfl
  refine ⟨fun stored hmem => ?_, hsound.unique, hsound.present,
    hsound.object, fun row hmem => (hsound.pending row hmem).ages hages,
    fun other flying hflying => ?_, hsound.apart, fun other => ?_⟩
  · obtain ⟨hin, hid, hown⟩ := hsound.committed stored hmem
    exact ⟨List.mem_cons_of_mem _ hin, hid, hown⟩
  · obtain ⟨⟨hin, hid, hown⟩, hfree⟩ := hsound.inFlight other flying hflying
    exact ⟨⟨List.mem_cons_of_mem _ hin, hid, hown⟩, hfree⟩
  · exact sound_phase (hsound.phase other) hages
      (fun _ _ _ _ => .inl rfl) fun _ _ _ _ hknown => hknown

end Commits

/-! ## The orphan purge -/

section Purge

omit [DecidableEq Process]

/-- An old object whose key is unknown is nobody's. -/
theorem Sound.lost_of_old
    (hsound : state.Sound) {cutoff modified : Instant}
    {known : Finset (ObjectKey Id)} {key : ObjectKey Id}
    (hcutoff : cutoff + microsecondsPerDay ≤ state.now)
    (hknown : state.Complete cutoff [] known)
    (hobject : state.bucket key = some modified) (hold : modified < cutoff)
    (hunknown : key ∉ known) : state.Lost key := by
  refine ⟨hsound.object key (Option.isSome_of_eq_some hobject),
    fun payload hmem hkey => ?_, fun process payload hflying hkey => ?_⟩
  · rcases hknown payload hmem key hkey modified hobject hold with
      hmem | hmem
    · exact hunknown hmem
    · contradiction
  · have hself := hsound.phase process
    cases hphase : state.phase process with
    | uploading uploading =>
        rw [hphase] at hself hflying
        obtain rfl := Option.some.inj hflying
        rw [hself key hkey] at hobject
        contradiction
    | uploaded uploaded lastModified =>
        rw [hphase] at hself hflying
        obtain rfl := Option.some.inj hflying
        rcases hself key hkey with hsame | hlate
        · obtain rfl := Option.some.inj (hsame.symm.trans hobject)
          have hlate : lastModified + microsecondsPerDay < state.now := by
            linarith
          exact hlate
        · exact hlate
    | _ =>
        rw [hphase] at hflying
        contradiction

theorem sound_afterKeys
    {cutoff : Instant} {tenants : List Id} {known : Finset (ObjectKey Id)}
    (hcutoff : cutoff + microsecondsPerDay ≤ state.now)
    (hknown : state.Complete cutoff tenants known) :
    (ObjectPhase.afterKeys cutoff tenants known).Sound state := by
  cases tenants with
  | nil => exact ⟨hcutoff, hknown, fun _ hmem => nomatch hmem⟩
  | cons tenant rest => exact ⟨hcutoff, hknown⟩

theorem inFlight_afterKeys
    (cutoff : Instant) (tenants : List Id) (known : Finset (ObjectKey Id)) :
    (ObjectPhase.afterKeys cutoff tenants known).inFlight = none := by
  cases tenants with
  | nil => rfl
  | cons tenant rest => rfl

theorem Complete.readKeys
    [LinearOrder Id] {cutoff : Instant} {tenant : Id} {rest : List Id}
    {known : Finset (ObjectKey Id)}
    (hknown : state.Complete cutoff (tenant :: rest) known) :
    state.Complete cutoff rest (known ∪ state.tenantKeys tenant) := by
  intro payload hmem key hkey modified hobject hold
  rcases hknown payload hmem key hkey modified hobject hold with
    hseen | htenant
  · exact .inl (Finset.mem_union_left _ hseen)
  · rcases List.mem_cons.mp htenant with rfl | hrest
    · refine .inl (Finset.mem_union_right _ ?_)
      refine Finset.mem_biUnion.mpr ⟨payload, ?_, ?_⟩
      · exact Finset.mem_filter.mpr ⟨hmem, rfl⟩
      · exact Option.mem_toFinset.mpr hkey
    · exact .inr hrest

end Purge

/-! ## Runs -/

section Runs

variable [LinearOrder Id]

omit [DecidableEq Process] in
theorem nextPending_eq_some
    {cursor : Option (Instant × Id)} {row : PendingDeletion Id}
    (hnext : state.nextPending cursor = some row) :
    row ∈ state.pending ∧ ∀ last ∈ cursor, KeysetLess last row.position := by
  simp only [nextPending] at hnext
  obtain ⟨hmem, hguard⟩ := List.mem_filter.mp (List.mem_of_find?_eq_some hnext)
  simp only [decide_eq_true_eq] at hguard
  exact ⟨hmem, hguard.2.1⟩

theorem Sound.select
    (hsound : state.Sound)
    (hselect : state.step (.select process) = some next) : next.Sound := by
  simp only [ObjectState.step] at hselect
  split at hselect
  · exact Option.some.inj hselect ▸ hsound.goto rfl trivial
  · split at hselect
    · exact Option.some.inj hselect ▸ hsound.goto rfl trivial
    next row hnext =>
      obtain rfl := Option.some.inj hselect
      exact hsound.move rfl rfl rfl rfl rfl rfl rfl rfl
        (hsound.pending row (nextPending_eq_some hnext).1)
  · contradiction

theorem Sound.purgeObject
    (hsound : state.Sound) {call : StoreCall}
    (hpurge : state.step (.purgeObject process call) = some next) :
    next.Sound := by
  simp only [ObjectState.step] at hpurge
  split at hpurge
  next cutoff known entry rest hphase =>
    have hself := hsound.phase process
    rw [hphase] at hself
    obtain ⟨hcutoff, hknown, hpage⟩ := hself
    have hrest : ∀ entry ∈ rest, entry.2 < cutoff → entry.1 ∉ known →
        state.Lost entry.1 := fun other hmem =>
      hpage other (List.mem_cons_of_mem _ hmem)
    split at hpurge
    next hold =>
      obtain rfl := Option.some.inj hpurge
      have hlost := hpage entry (List.mem_cons_self ..) hold.1 hold.2
      have hdeleted := hsound.callDelete hlost call
      split
      · -- The keys it knows are still complete without the object.
        have hafter := hdeleted.phase process
        rw [callDelete_phase, hphase] at hafter
        obtain ⟨hcutoff, hknown, hpage⟩ := hafter
        exact hdeleted.goto rfl ⟨hcutoff, hknown, fun other hmem =>
          hpage other (List.mem_cons_of_mem _ hmem)⟩
      · exact hdeleted.goto rfl trivial
    · exact Option.some.inj hpurge ▸
        hsound.goto rfl ⟨hcutoff, hknown, hrest⟩
  · contradiction

theorem Sound.step
    (hsound : state.Sound) {action : ObjectAction Process Id}
    (hontime : state.OnTime action)
    (hstep : state.step action = some next) : next.Sound := by
  cases action with
  | tick now =>
      simp only [ObjectState.step] at hstep
      split at hstep
      next hnow => exact Option.some.inj hstep ▸ hsound.tick hnow
      · contradiction
  | createTenant tenantId =>
      exact Option.some.inj hstep ▸ hsound.createTenant tenantId
  | storeInline tenantId notificationId =>
      simp only [ObjectState.step] at hstep
      split at hstep
      next hguard =>
        exact Option.some.inj hstep ▸ hsound.storeInline hguard.1 hguard.2
      · contradiction
  | prepare process tenantId notificationId =>
      simp only [ObjectState.step] at hstep
      split at hstep
      · split at hstep
        next hguard =>
          exact Option.some.inj hstep ▸ hsound.prepare hguard.1 hguard.2 rfl
        · contradiction
      · contradiction
  | upload process call =>
      simp only [ObjectState.step] at hstep
      split at hstep
      next payload hphase =>
        split at hstep
        · contradiction
        next key hkey =>
          exact Option.some.inj hstep ▸ hsound.upload hphase hkey
        next key tookEffect hkey =>
          exact Option.some.inj hstep ▸
            hsound.uploadRaised hphase hkey tookEffect
      · contradiction
  | commit process =>
      simp only [ObjectState.step] at hstep
      split at hstep
      next payload lastModified hphase =>
        exact Option.some.inj hstep ▸ hsound.commit hphase hontime
      · contradiction
  | delete removed rowId enqueuedAt => exact hsound.delete hstep
  | drain process =>
      simp only [ObjectState.step] at hstep
      split at hstep
      · exact Option.some.inj hstep ▸ hsound.goto rfl trivial
      · contradiction
  | select process => exact hsound.select hstep
  | deleteObject process row call =>
      simp only [ObjectState.step] at hstep
      split at hstep
      next selected left hphase =>
        split at hstep
        next heq =>
          subst heq
          have hlost := hsound.phase process
          rw [hphase] at hlost
          exact Option.some.inj hstep ▸
            (hsound.callDelete hlost call).goto rfl (Lost.callDelete hlost call)
        · contradiction
      · contradiction
  | record process =>
      simp only [ObjectState.step] at hstep
      split at hstep
      · exact Option.some.inj hstep ▸ hsound.record _ _ _
      · contradiction
  | purge process =>
      simp only [ObjectState.step] at hstep
      split at hstep
      · exact Option.some.inj hstep ▸
          hsound.goto rfl (sub_add_cancel state.now microsecondsPerDay).le
      · contradiction
  | readTenants process =>
      simp only [ObjectState.step] at hstep
      split at hstep
      next cutoff hphase =>
        have hself := hsound.phase process
        rw [hphase] at hself
        exact Option.some.inj hstep ▸ hsound.goto (inFlight_afterKeys ..)
          (sound_afterKeys hself fun payload hmem _ _ _ _ _ =>
            .inr (hsound.committed payload hmem).tenant)
      · contradiction
  | readKeys process =>
      simp only [ObjectState.step] at hstep
      split at hstep
      next cutoff tenant rest known hphase =>
        have hself := hsound.phase process
        rw [hphase] at hself
        exact Option.some.inj hstep ▸ hsound.goto (inFlight_afterKeys ..)
          (sound_afterKeys hself.1 hself.2.readKeys)
      · contradiction
  | listPage process page =>
      simp only [ObjectState.step] at hstep
      split at hstep
      next cutoff known hphase =>
        have hself := hsound.phase process
        rw [hphase] at hself
        split at hstep
        next hlisted =>
          exact Option.some.inj hstep ▸ hsound.goto rfl
            ⟨hself.1, hself.2.1, fun entry hmem hold hunknown =>
              hsound.lost_of_old hself.1 hself.2.1 (hlisted entry hmem) hold
                hunknown⟩
        · contradiction
      · contradiction
  | purgeObject process call => exact hsound.purgeObject hstep
  | crash process =>
      simp only [ObjectState.step] at hstep
      split at hstep
      · exact Option.some.inj hstep ▸
          hsound.move rfl rfl rfl rfl rfl rfl rfl rfl trivial
      · contradiction

end Runs

end ObjectState

end NotifyHub
