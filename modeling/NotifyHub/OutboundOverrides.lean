import NotifyHub.RowEditing
import NotifyHub.DomainTypes
import Mathlib.Tactic

/-!
# Channel overrides of a receiver

An override of mode `override` replaces the threshold of the binding by its own
one, which only the requests check: the database accepts a null.  The handlers
never compute such a row.  Of two overlapping PUTs, however, one may write the
mode and the other one the threshold.
-/

namespace NotifyHub

/-! ## The rule of the outbox -/

structure ReceiverChannelOverride (Id : Type) where
  id : Id
  mode : OverrideMode
  minSeverity : Option Severity
  deriving DecidableEq

structure GroupChannelBinding (Id : Type) where
  channelId : Id
  minSeverity : Severity

structure DeliveryChannel (Id : Type) where
  id : Id
  enabled : Bool

/-- The failed `assert override.min_severity is not None`. -/
inductive AssertionError
  | overrideWithoutSeverity
  deriving DecidableEq, Repr

/-- The threshold of one binding, `none` when the channel is muted. -/
def thresholdOf {Id : Type}
    (binding : GroupChannelBinding Id) :
    Option (ReceiverChannelOverride Id) →
      Except AssertionError (Option Severity)
  | none => .ok (some binding.minSeverity)
  | some override =>
      match override.mode, override.minSeverity with
      | .mute, _ => .ok none
      | .override, some minSeverity => .ok (some minSeverity)
      | .override, none => .error .overrideWithoutSeverity

def selectTargetChannels {Id : Type}
    (overridesByChannel : Id → Option (ReceiverChannelOverride Id))
    (channelsById : Id → Option (DeliveryChannel Id)) (severity : Severity) :
    List (GroupChannelBinding Id) → Except AssertionError (List Id)
  | [] => .ok []
  | binding :: rest => do
      let threshold ← thresholdOf binding (overridesByChannel binding.channelId)
      let targets ←
        selectTargetChannels overridesByChannel channelsById severity rest
      match threshold with
      | none => .ok targets
      | some threshold =>
          if severity.order < threshold.order then .ok targets
          else
            match channelsById binding.channelId with
            | some channel =>
                .ok (if channel.enabled then channel.id :: targets else targets)
            | none => .ok targets

/-- The law which the assertion relies on. -/
def ReceiverChannelOverride.WellFormed {Id : Type}
    (override : ReceiverChannelOverride Id) : Prop :=
  override.mode = .override → override.minSeverity ≠ none

instance {Id : Type} (override : ReceiverChannelOverride Id) :
    Decidable override.WellFormed :=
  inferInstanceAs (Decidable (_ → _))

theorem thresholdOf_ok {Id : Type}
    {override : Option (ReceiverChannelOverride Id)}
    (hformed : ∀ row ∈ override, row.WellFormed)
    (binding : GroupChannelBinding Id) :
    ∃ threshold, thresholdOf binding override = .ok threshold := by
  cases override with
  | none => exact ⟨_, rfl⟩
  | some row =>
      cases hmode : row.mode with
      | mute => exact ⟨none, by simp only [thresholdOf, hmode]⟩
      | override =>
          cases hseverity : row.minSeverity with
          | none => exact absurd hseverity (hformed row rfl hmode)
          | some severity =>
              exact ⟨some severity, by simp only [thresholdOf, hmode, hseverity]⟩

theorem selectTargetChannels_ok {Id : Type}
    {overridesByChannel : Id → Option (ReceiverChannelOverride Id)}
    (hformed : ∀ channel, ∀ row ∈ overridesByChannel channel, row.WellFormed)
    (channelsById : Id → Option (DeliveryChannel Id)) (severity : Severity)
    (bindings : List (GroupChannelBinding Id)) :
    ∃ targets, selectTargetChannels overridesByChannel channelsById severity
      bindings = .ok targets := by
  induction bindings with
  | nil => exact ⟨_, rfl⟩
  | cons binding rest ih =>
      obtain ⟨threshold, hthreshold⟩ :=
        thresholdOf_ok (hformed binding.channelId) binding
      obtain ⟨targets, htargets⟩ := ih
      simp only [selectTargetChannels, hthreshold, htargets]
      cases threshold with
      | none => exact ⟨_, rfl⟩
      | some threshold =>
          simp only [bind, Except.bind]
          split
          · exact ⟨_, rfl⟩
          · split
            · exact ⟨_, rfl⟩
            · exact ⟨_, rfl⟩

/-! ## Requests -/

def minSeverityRequired : Text :=
  "min_severity is required when mode is 'override'.".toList

/-- `_override_min_severity`. -/
def overrideMinSeverity (mode : OverrideMode) (minSeverity : Option Severity) :
    Except Problem (Option Severity) :=
  if mode = .override ∧ minSeverity = none then
    .error (validationError minSeverityRequired)
  else .ok (if mode = .override then minSeverity else none)

/-- A row with the computed columns is well formed. -/
theorem overrideMinSeverity_wellFormed {Id : Type}
    {mode : OverrideMode} {minSeverity threshold : Option Severity}
    (hok : overrideMinSeverity mode minSeverity = .ok threshold) (id : Id) :
    (ReceiverChannelOverride.mk id mode threshold).WellFormed := by
  unfold overrideMinSeverity at hok
  split at hok
  · contradiction
  next hgiven =>
    obtain rfl := Except.ok.inj hok
    intro hmode hnone
    have hmode : mode = .override := hmode
    rw [if_pos hmode] at hnone
    exact hgiven ⟨hmode, hnone⟩

structure ReceiverChannelOverrideCreate where
  mode : OverrideMode
  minSeverity : Option Severity

structure ReceiverChannelOverrideUpdate where
  mode : Option OverrideMode
  minSeverity : Option Severity

inductive OverrideCall
  | createReceiverOverride (body : ReceiverChannelOverrideCreate)
  | updateReceiverOverride (body : ReceiverChannelOverrideUpdate)
  | deleteReceiverOverride

/-- A request on the override of one pair.  `lookups` is what the lookups of
the receiver, the access to its group and the channel raise; `fresh` is the
`uuid4` of a new row. -/
structure OverrideRequest (Id : Type) where
  receiverId : Id
  channelId : Id
  call : OverrideCall
  lookups : Except Problem Unit
  fresh : Id

section Handlers

variable {Id : Type}

def overrideNotFound : Problem := notFound "Override not found.".toList

def createReceiverOverride
    (request : OverrideRequest Id) (body : ReceiverChannelOverrideCreate)
    (existing : Option (ReceiverChannelOverride Id)) :
    Except Problem (Decision (ReceiverChannelOverride Id) Problem) := do
  let minSeverity ← overrideMinSeverity body.mode body.minSeverity
  request.lookups
  match existing with
  | none => return .insert ⟨request.fresh, body.mode, minSeverity⟩
  | some override =>
      return .update { override with mode := body.mode, minSeverity }

/-- The handler of the `IntegrityError` of the INSERT: the row which is there
gets the columns of the one that was tried. -/
def updateInserted
    (tried : ReceiverChannelOverride Id)
    (existing : Option (ReceiverChannelOverride Id)) :
    Decision (ReceiverChannelOverride Id) Problem :=
  match existing with
  | none => .refuse integrityConflict
  | some override =>
      .update
        { override with mode := tried.mode, minSeverity := tried.minSeverity }

def updateReceiverOverride
    (request : OverrideRequest Id) (body : ReceiverChannelOverrideUpdate)
    (existing : Option (ReceiverChannelOverride Id)) :
    Except Problem (Decision (ReceiverChannelOverride Id) Problem) :=
  match existing with
  | none => throw overrideNotFound
  | some override => do
      request.lookups
      let mode := body.mode.getD override.mode
      let minSeverity ←
        overrideMinSeverity mode (body.minSeverity <|> override.minSeverity)
      return .update { override with mode, minSeverity }

def deleteReceiverOverride
    (request : OverrideRequest Id)
    (existing : Option (ReceiverChannelOverride Id)) :
    Except Problem (Decision (ReceiverChannelOverride Id) Problem) :=
  match existing with
  | none => throw overrideNotFound
  | some _ => do
      request.lookups
      return .delete

def OverrideRequest.decide
    (request : OverrideRequest Id)
    (existing : Option (ReceiverChannelOverride Id)) :
    Decision (ReceiverChannelOverride Id) Problem :=
  orRefuse <|
    match request.call with
    | .createReceiverOverride body =>
        createReceiverOverride request body existing
    | .updateReceiverOverride body =>
        updateReceiverOverride request body existing
    | .deleteReceiverOverride => deleteReceiverOverride request existing

/-- The rows by receiver and channel; an UPDATE finds its row by the id. -/
def overrideHandlers (Id : Type) [DecidableEq Id] :
    RowHandlers (Id × Id) (OverrideRequest Id) (ReceiverChannelOverride Id)
      Problem where
  key request := (request.receiverId, request.channelId)
  decide := OverrideRequest.decide
  reconsider _ := updateInserted
  sameRow stored loaded := decide (stored.id = loaded.id)
  merge loaded final stored :=
    { stored with
      mode := writeBack loaded.mode final.mode stored.mode
      minSeverity :=
        writeBack loaded.minSeverity final.minSeverity stored.minSeverity }

abbrev OverrideState (Process Id : Type) :=
  EditState Process (Id × Id) (OverrideRequest Id) (ReceiverChannelOverride Id)
    Problem

abbrev OverrideAction (Process Id : Type) :=
  EditAction Process (OverrideRequest Id)

def overrideMachine
    (Process Id : Type) [DecidableEq Process] [DecidableEq Id] :
    Machine (OverrideState Process Id) (OverrideAction Process Id) :=
  (overrideHandlers Id).machine Process ReceiverChannelOverride.WellFormed

/-! ## The law -/

theorem createReceiverOverride_wellFormed
    {request : OverrideRequest Id} {body : ReceiverChannelOverrideCreate}
    {existing : Option (ReceiverChannelOverride Id)}
    {decision : Decision (ReceiverChannelOverride Id) Problem}
    (hok : createReceiverOverride request body existing = .ok decision) :
    ∀ row ∈ decision.version, row.WellFormed := by
  obtain ⟨minSeverity, hseverity, hok⟩ := Except.bind_eq_ok.mp hok
  obtain ⟨_, -, hok⟩ := Except.bind_eq_ok.mp hok
  intro row hrow
  cases existing with
  | none =>
      obtain rfl := Except.ok.inj hok
      obtain rfl := Option.some.inj hrow
      exact overrideMinSeverity_wellFormed hseverity _
  | some override =>
      obtain rfl := Except.ok.inj hok
      obtain rfl := Option.some.inj hrow
      exact overrideMinSeverity_wellFormed hseverity _

theorem updateReceiverOverride_wellFormed
    {request : OverrideRequest Id} {body : ReceiverChannelOverrideUpdate}
    {existing : Option (ReceiverChannelOverride Id)}
    {decision : Decision (ReceiverChannelOverride Id) Problem}
    (hok : updateReceiverOverride request body existing = .ok decision) :
    ∀ row ∈ decision.version, row.WellFormed := by
  intro row hrow
  cases existing with
  | none => contradiction
  | some override =>
      obtain ⟨_, -, hok⟩ := Except.bind_eq_ok.mp hok
      obtain ⟨minSeverity, hseverity, hok⟩ := Except.bind_eq_ok.mp hok
      obtain rfl := Except.ok.inj hok
      obtain rfl := Option.some.inj hrow
      exact overrideMinSeverity_wellFormed hseverity _

theorem deleteReceiverOverride_version
    {request : OverrideRequest Id}
    {existing : Option (ReceiverChannelOverride Id)}
    {decision : Decision (ReceiverChannelOverride Id) Problem}
    (hok : deleteReceiverOverride request existing = .ok decision) :
    decision.version = none := by
  cases existing with
  | none => contradiction
  | some override =>
      obtain ⟨_, -, hok⟩ := Except.bind_eq_ok.mp hok
      obtain rfl := Except.ok.inj hok
      rfl

/-- An UPDATE of the mode alone finds the threshold as its request has read
it, and the other way round. -/
def ReceiverChannelOverride.Undisturbed
    (loaded final stored : ReceiverChannelOverride Id) : Prop :=
  NotifyHub.Undisturbed (loaded.mode, loaded.minSeverity)
    (final.mode, final.minSeverity) (stored.mode, stored.minSeverity)

instance ReceiverChannelOverride.decidableUndisturbed
    (loaded final stored : ReceiverChannelOverride Id) :
    Decidable (loaded.Undisturbed final stored) :=
  inferInstanceAs (Decidable (NotifyHub.Undisturbed _ _ _))

/-- The law speaks of the two columns only. -/
theorem ReceiverChannelOverride.wellFormed_congr
    {first second : ReceiverChannelOverride Id}
    (hcolumns : (first.mode, first.minSeverity) =
      (second.mode, second.minSeverity)) (hformed : second.WellFormed) :
    first.WellFormed := by
  obtain ⟨hmode, hseverity⟩ := Prod.mk.inj hcolumns
  unfold WellFormed
  rw [hmode, hseverity]
  exact hformed

theorem overrideHandlers_keeps [DecidableEq Id] :
    (overrideHandlers Id).Keeps ReceiverChannelOverride.WellFormed
      ReceiverChannelOverride.Undisturbed where
  decide request existing _ row hrow := by
    obtain ⟨decision, hok, hversion⟩ := mem_orRefuse_version hrow
    split at hok
    · exact createReceiverOverride_wellFormed hok row hversion
    · exact updateReceiverOverride_wellFormed hok row hversion
    · rw [deleteReceiverOverride_version hok] at hversion
      contradiction
  reconsider request tried existing htried _ row hrow := by
    cases existing with
    | none => contradiction
    | some override =>
        obtain rfl := Option.some.inj hrow
        exact ReceiverChannelOverride.wellFormed_congr rfl htried
  merge loaded final stored _ hfinal hstored hundisturbed := by
    rcases writeBackPair_of_undisturbed hundisturbed with hpair | hpair
    · exact ReceiverChannelOverride.wellFormed_congr hpair hfinal
    · exact ReceiverChannelOverride.wellFormed_congr hpair hstored

/-- The channels which get a delivery of one notification; the bindings and
the channels are what their queries return. -/
def createDeliveriesForNotification
    (rows : Id × Id → Option (ReceiverChannelOverride Id)) (receiverId : Id)
    (bindings : List (GroupChannelBinding Id))
    (channelsById : Id → Option (DeliveryChannel Id)) (severity : Severity) :
    Except AssertionError (List Id) :=
  if bindings.isEmpty then .ok []
  else
    selectTargetChannels (fun channelId => rows (receiverId, channelId))
      channelsById severity bindings

end Handlers

/-- While every UPDATE of one column finds the other one as its request has
read it, no row is without its threshold and the assertion never fails. -/
theorem overrides_well_formed
    {Process Id : Type} [DecidableEq Process] [DecidableEq Id]
    {state : OverrideState Process Id}
    (hreach : (overrideMachine Process Id).ReachableWhere
      ((overrideHandlers Id).UpdatesMeet
        ReceiverChannelOverride.Undisturbed) state) :
    (∀ key, ∀ row ∈ state.rows key, row.WellFormed) ∧
      ∀ receiverId bindings channelsById severity, ∃ targets,
        createDeliveriesForNotification state.rows receiverId bindings
          channelsById severity = .ok targets := by
  have hformed := (overrideHandlers_keeps.reachable hreach).rows
  refine ⟨hformed, fun receiverId bindings channelsById severity => ?_⟩
  unfold createDeliveriesForNotification
  split
  · exact ⟨[], rfl⟩
  · exact selectTargetChannels_ok (fun _ => hformed _) channelsById severity
      bindings

/-! ## Overlapping requests -/

/-- A request of an admin on the override of receiver 0 for channel 1. -/
def overrideRequest (call : OverrideCall) : OverrideRequest ℕ :=
  ⟨0, 1, call, .ok (), 7⟩

/-- A PUT of the mode. -/
def putMode (mode : OverrideMode) : OverrideRequest ℕ :=
  overrideRequest (.updateReceiverOverride ⟨some mode, none⟩)

def postOverride : OverrideRequest ℕ :=
  overrideRequest (.createReceiverOverride ⟨.override, some .error⟩)

theorem initial_noOverrides :
    (overrideMachine ℕ ℕ).Initial (.atRest fun _ => none) :=
  ⟨fun _ => rfl, fun _ => rfl, nofun⟩

theorem overrides_well_formed_muted :
    ∃ state : OverrideState ℕ ℕ,
      (overrideMachine ℕ ℕ).run (.atRest fun _ => none)
        (EditAction.alone 0 postOverride ++
          EditAction.alone 1 (putMode .mute)) = some state ∧
      (∀ key, ∀ row ∈ state.rows key, row.WellFormed) ∧
        ∀ receiverId bindings channelsById severity, ∃ targets,
          createDeliveriesForNotification state.rows receiverId bindings
            channelsById severity = .ok targets := by
  have hallowed : (overrideMachine ℕ ℕ).AllowedAlong
      ((overrideHandlers ℕ).UpdatesMeet ReceiverChannelOverride.Undisturbed)
      (.atRest fun _ => none)
      (EditAction.alone 0 postOverride ++
        EditAction.alone 1 (putMode .mute)) := by
    decide +kernel
  obtain ⟨state, hrun⟩ : ∃ state : OverrideState ℕ ℕ,
      (overrideMachine ℕ ℕ).run (.atRest fun _ => none)
        (EditAction.alone 0 postOverride ++
          EditAction.alone 1 (putMode .mute)) = some state :=
    ⟨_, rfl⟩
  exact ⟨state, hrun, overrides_well_formed
    (Machine.ReachableWhere.run (.initial initial_noOverrides) hallowed hrun)⟩

/-- One PUT mutes the override while another changes its threshold; then one
PUT of the mode `override` meets one of the mode `mute`.  Each of the four is
legal, and the row they leave behind refuses every notification. -/
theorem override_without_severity :
    ∃ state : OverrideState ℕ ℕ,
      (overrideMachine ℕ ℕ).Reachable state ∧
      state.rows (0, 1) = some ⟨7, .override, none⟩ ∧
      createDeliveriesForNotification state.rows 0 [⟨1, .info⟩]
        (fun id => some ⟨id, true⟩) .critical =
          .error .overrideWithoutSeverity := by
  let actions : List (OverrideAction ℕ ℕ) :=
    EditAction.alone 0 postOverride ++
      EditAction.overlapping 1 2 (putMode .mute)
        (overrideRequest
          (.updateReceiverOverride ⟨none, some .warning⟩)) ++
      EditAction.overlapping 3 4 (putMode .override) (putMode .mute)
  have hrun : (overrideMachine ℕ ℕ).run (.atRest fun _ => none) actions =
      some _ := rfl
  exact ⟨_, .run (.initial initial_noOverrides) hrun, rfl, rfl⟩

end NotifyHub
