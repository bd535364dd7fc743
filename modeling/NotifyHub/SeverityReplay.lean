import NotifyHub.DashboardQueries
import NotifyHub.EvaluationChain
import NotifyHub.IngestInputs
import Mathlib.Tactic

/-!
# Replay of the rules on stored notifications

An ingestion resolves the severity from the live request, and the replay from
the stored row.  On a row whose content is inline both find the same severity
at the same step, as long as the configuration is the same.
-/

namespace NotifyHub.Ingestion

/-! ## Ingestion -/

/-- What a sender chooses. -/
structure Submission where
  rawBody : List UInt8
  xSeverity : Option HeaderValue
  severity : Option Text
  xExitCode : Option HeaderValue
  xDurationMs : Option HeaderValue
  xPhase : Option HeaderValue

/-- The configuration under which a severity is resolved. -/
structure Configuration (Id : Type) where
  re2 : Re2
  chain : ChainDatabase Id
  inlineMaxBytes : ℕ

structure PreparedNotification where
  normalizedText : Text
  contentNormalized : Bool
  originalSize : ℕ
  useObjectStorage : Bool
  severity : Severity
  severitySource : SeveritySource
  matchedPattern : Option Text
  durationMs : Option ℤ
  exitCode : Option ℤ
  durationExceeded : Bool
  phase : Option NotificationPhase

variable {Id : Type} [LinearOrder Id] [ToString Id]

omit [LinearOrder Id] [ToString Id] in
/-- The policy of the receiver, with what is known of one execution. -/
def severityFacts (receiver : Dashboard.Receiver Id)
    (headerSeverity querySeverity : Option Text)
    (exitCode durationMs : Option ℤ) : SeverityFacts where
  headerSeverity := headerSeverity
  querySeverity := querySeverity
  defaultSeverity := receiver.defaultSeverity
  exitCode := exitCode
  exitCodeSeverity := receiver.exitCodeSeverity
  durationMs := durationMs
  durationThresholdSeconds := receiver.policy.durationThresholdSeconds
  durationSeverity := receiver.policy.durationSeverity

def prepareNotification (configuration : Configuration Id) (receiverId : Id)
    (receiver : Dashboard.Receiver Id) (submission : Submission) :
    Except ResolutionError PreparedNotification :=
  let (normalizedText, contentNormalized) := normalizeBody submission.rawBody
  let exitCode := parseExitCode submission.xExitCode
  let durationMs := parseDurationMs submission.xDurationMs
  (resolveSeverity configuration.re2
    (severityFacts receiver (submission.xSeverity.map Subtype.val)
      submission.severity exitCode durationMs)
    (configuration.chain.loadEvaluationChain receiver.tenantId receiverId)
    normalizedText).map fun resolution =>
      { normalizedText := normalizedText
        contentNormalized := contentNormalized
        originalSize := submission.rawBody.length
        useObjectStorage :=
          configuration.inlineMaxBytes < submission.rawBody.length
        severity := resolution.severity
        severitySource := resolution.source
        matchedPattern := resolution.matchedPattern
        durationMs := durationMs
        exitCode := exitCode
        durationExceeded := resolution.durationExceeded
        phase := parsePhase submission.xPhase }

def contentPreviewChars : ℕ := 4096

omit [LinearOrder Id] [ToString Id] in
/-- `persist_notification`: the inserted row. -/
def persistNotification (tenantId receiverId : Id)
    (prepared : PreparedNotification) (now : Instant) :
    Dashboard.Notification Id where
  tenantId := tenantId
  receiverId := receiverId
  storageBackend := if prepared.useObjectStorage then .object else .inline
  content :=
    if prepared.useObjectStorage then none else some prepared.normalizedText
  contentPreview := prepared.normalizedText.take contentPreviewChars
  contentSize := prepared.originalSize
  contentNormalized := prepared.contentNormalized
  severity := prepared.severity
  severitySource := prepared.severitySource
  phase := prepared.phase
  durationMs := prepared.durationMs
  exitCode := prepared.exitCode
  status := .unread
  verified := false
  readBy := none
  readAt := none
  verifiedBy := none
  verifiedAt := none
  receivedAt := now

/-- The row of a submission, whatever has been noted on it since. -/
def IngestedUnder (configuration : Configuration Id) (receiverId : Id)
    (receiver : Dashboard.Receiver Id) (row : Dashboard.Notification Id) :
    Prop :=
  ∃ submission prepared now,
    prepareNotification configuration receiverId receiver submission =
      .ok prepared ∧
    row =
      { persistNotification receiver.tenantId receiverId prepared now with
        status := row.status
        verified := row.verified
        readBy := row.readBy
        readAt := row.readAt
        verifiedBy := row.verifiedBy
        verifiedAt := row.verifiedAt }

/-- Postgres takes the row as it is: the integers fit their columns, and the
content has no NUL. -/
theorem IngestedUnder.fits
    {configuration : Configuration Id} {receiverId : Id}
    {receiver : Dashboard.Receiver Id} {row : Dashboard.Notification Id}
    (hingested : IngestedUnder configuration receiverId receiver row) :
    (∀ exitCode ∈ row.exitCode, int32Min ≤ exitCode ∧ exitCode ≤ int32Max) ∧
      (∀ durationMs ∈ row.durationMs,
        0 ≤ durationMs ∧ durationMs ≤ int64Max) ∧
      ∀ content ∈ row.content, nul ∉ content := by
  obtain ⟨submission, prepared, now, hprepared, hrow⟩ := hingested
  obtain ⟨resolution, -, rfl⟩ := Except.map_eq_ok.mp hprepared
  have hexitCode := congrArg Dashboard.Notification.exitCode hrow
  have hdurationMs := congrArg Dashboard.Notification.durationMs hrow
  have hcontent := congrArg Dashboard.Notification.content hrow
  refine ⟨?_, ?_, ?_⟩
  · intro exitCode hmem
    rw [hexitCode] at hmem
    exact parseBounded_range hmem
  · intro durationMs hmem
    rw [hdurationMs] at hmem
    exact parseBounded_range hmem
  · intro content hmem
    rw [hcontent] at hmem
    have hstored : content = (normalizeBody submission.rawBody).1 := by
      by_cases hlarge :
          configuration.inlineMaxBytes < submission.rawBody.length
      · simp [persistNotification, hlarge] at hmem
      · simp only [persistNotification, hlarge, decide_false,
          Bool.false_eq_true, if_false, Option.mem_def] at hmem
        exact (Option.some.inj hmem).symm
    rw [hstored]
    exact nul_notMem_normalizeBody submission.rawBody

/-! ## Replay -/

def replayPreviewChars : ℕ := 200

def replayMaxNotifications : ℕ := 20

/-- `Query(ge=1, le=REPLAY_MAX_NOTIFICATIONS)`. -/
abbrev ReplayLimit := { limit : ℕ // 1 ≤ limit ∧ limit ≤ replayMaxNotifications }

structure SeverityReplayItem (Id : Type) where
  notificationId : Id
  receivedAt : Instant
  contentPreview : Text
  truncated : Bool
  storedSeverity : Severity
  storedSource : Text
  replayedSeverity : Severity
  replayedSource : Text
  matchedRuleId : Option Text
  matchedPattern : Option Text
  matchedPresetName : Option Text
  changed : Bool

structure SeverityReplay (Id : Type) where
  items : List (SeverityReplayItem Id)
  changedCount : ℕ

inductive ReplayError
  | problem (problem : Problem)
  | uncaught (error : ResolutionError)
  deriving DecidableEq

omit [LinearOrder Id] [ToString Id] in
/-- The arguments of `resolve_severity` as the row has them. -/
def replayFacts (receiver : Dashboard.Receiver Id)
    (row : Dashboard.Notification Id) : SeverityFacts :=
  severityFacts receiver
    (if row.severitySource = .explicit then some row.severity.value else none)
    none row.exitCode row.durationMs

omit [LinearOrder Id] [ToString Id] in
def replayItem (re2 : Re2) (rules : List EvaluableRule)
    (receiver : Dashboard.Receiver Id)
    (entry : Id × Dashboard.Notification Id) :
    Except ResolutionError (SeverityReplayItem Id) :=
  let row := entry.2
  (resolveSeverity re2 (replayFacts receiver row) rules
    (row.content.getD row.contentPreview)).map fun resolution =>
      { notificationId := entry.1
        receivedAt := row.receivedAt
        contentPreview := row.contentPreview.take replayPreviewChars
        truncated := row.content.isNone
        storedSeverity := row.severity
        storedSource := row.severitySource.value
        replayedSeverity := resolution.severity
        replayedSource := resolution.source.value
        matchedRuleId := resolution.matchedRuleId
        matchedPattern := resolution.matchedPattern
        matchedPresetName := resolution.matchedPresetName
        changed := resolution.severity ≠ row.severity }

omit [ToString Id] in
/-- The notifications which end an execution. -/
def replayCondition (tenantId receiverId : Id) :
    Dashboard.Condition Id (Dashboard.Notification Id) :=
  fun _ row =>
    row.receiverId = receiverId && row.tenantId = tenantId &&
      row.severitySource ∉ [.missing, .recovered] && row.phase ≠ some .start

omit [ToString Id] in
/-- The last notifications to be replayed, the latest one first. -/
def replayed (state : Dashboard.State Id) (tenantId receiverId : Id)
    (limit : ReplayLimit) : List (Id × Dashboard.Notification Id) :=
  (state.notifications.fetch (fun _ row => row.receivedAt)
    (state.notifications.select
      (replayCondition tenantId receiverId))).reverse.take limit.val

omit [ToString Id] in
/-- `_get_receiver_or_404`, then the access of the caller. -/
def receiverFor (state : Dashboard.State Id) (claims : Dashboard.Claims Id)
    (receiverId : Id) : Except Problem (Dashboard.Receiver Id) :=
  match state.receivers.find receiverId with
  | some receiver =>
      if receiver.tenantId = claims.tid then
        (Dashboard.assertGroupAccess state claims receiver.groupId false).map
          fun () => receiver
      else .error (notFound "Receiver not found.".toList)
  | none => .error (notFound "Receiver not found.".toList)

def replaySeverityRules (re2 : Re2) (chain : ChainDatabase Id)
    (state : Dashboard.State Id) (claims : Dashboard.Claims Id)
    (receiverId : Id) (limit : ReplayLimit) :
    Except ReplayError (SeverityReplay Id) := do
  let receiver ← (receiverFor state claims receiverId).mapError .problem
  let rules := chain.loadEvaluationChain claims.tid receiverId
  let items ← ((replayed state claims.tid receiverId limit).mapM
    (replayItem re2 rules receiver)).mapError .uncaught
  return ⟨items, items.countP SeverityReplayItem.changed⟩

/-! ## The same severity twice -/

theorem parseExplicitSeverity_value (severity : Severity) :
    parseExplicitSeverity (some severity.value) = some severity := by
  cases severity with
  | debug => rfl
  | info => rfl
  | warning => rfl
  | error => rfl
  | critical => rfl

/-- The steps of the resolution after the explicit severity. -/
def decidedLater : List SeveritySource :=
  [.exitCode, .duration, .rule, .presetRule, .receiverDefault]

theorem gravest_mem
    {outcomes : List (Severity × SeveritySource)}
    {outcome : Severity × SeveritySource}
    (hgravest : gravest outcomes = some outcome) : outcome ∈ outcomes := by
  induction outcomes generalizing outcome with
  | nil => cases hgravest
  | cons first rest ih =>
      simp only [gravest] at hgravest
      cases hrest : gravest rest with
      | none =>
          rw [hrest] at hgravest
          obtain rfl := Option.some.inj hgravest
          exact List.mem_cons_self
      | some other =>
          rw [hrest] at hgravest
          have hother := ih hrest
          by_cases hless : first.1.order < other.1.order
          · simp only [hless, if_true, Option.some.injEq] at hgravest
            subst hgravest
            exact List.mem_cons_of_mem _ hother
          · simp only [hless, if_false, Option.some.injEq] at hgravest
            subst hgravest
            exact List.mem_cons_self

theorem exitOutcomes_source
    {facts : SeverityFacts} {outcome : Severity × SeveritySource}
    (hmem : outcome ∈ exitOutcomes facts) : outcome.2 = .exitCode := by
  unfold exitOutcomes at hmem
  split at hmem
  · split at hmem
    · obtain rfl := List.mem_singleton.mp hmem
      rfl
    · cases hmem
  · cases hmem

theorem executionOutcomes_source
    {facts : SeverityFacts} {outcomes : List (Severity × SeveritySource)}
    (houtcomes : executionOutcomes facts = .ok outcomes)
    {outcome : Severity × SeveritySource} (hmem : outcome ∈ outcomes) :
    outcome.2 ∈ decidedLater := by
  unfold executionOutcomes at houtcomes
  split at houtcomes
  · split at houtcomes
    · obtain rfl := Except.ok.inj houtcomes
      rcases List.mem_append.mp hmem with hexit | hduration
      · rw [exitOutcomes_source hexit]
        decide
      · obtain rfl := List.mem_singleton.mp hduration
        simp [decidedLater]
    · cases houtcomes
  · obtain rfl := Except.ok.inj houtcomes
    rw [exitOutcomes_source hmem]
    decide

theorem ruleResolution_source
    (facts : SeverityFacts) (rule : Option EvaluableRule) :
    (ruleResolution facts rule).source ∈ decidedLater := by
  cases rule with
  | none => simp [ruleResolution, decidedLater]
  | some rule =>
      simp only [ruleResolution]
      split
      · decide
      · decide

/-- The severity is the explicit one, or nothing explicit is valid and a later
step has decided. -/
theorem resolveSeverity_cases
    {re2 : Re2} {facts : SeverityFacts} {rules : List EvaluableRule}
    {content : Text} {resolution : SeverityResolution}
    (hresolution : resolveSeverity re2 facts rules content = .ok resolution) :
    resolution.source = .explicit ∨
      (parseExplicitSeverity facts.headerSeverity <|>
        parseExplicitSeverity facts.querySeverity) = none ∧
      resolution.source ∈ decidedLater := by
  unfold resolveSeverity at hresolution
  split at hresolution
  · obtain rfl := Except.ok.inj hresolution
    exact .inl rfl
  next hnone =>
    refine .inr ⟨hnone, ?_⟩
    obtain ⟨outcomes, houtcomes, hrest⟩ := Except.bind_eq_ok.mp hresolution
    split at hrest
    next severity source hgravest =>
      obtain rfl := Except.ok.inj hrest
      exact executionOutcomes_source houtcomes (gravest_mem hgravest)
    · obtain ⟨rule, -, rfl⟩ := Except.map_eq_ok.mp hrest
      exact ruleResolution_source facts rule

/-- A severity which was not explicit is found again without the header and the
parameter. -/
theorem resolveSeverity_withoutExplicit
    {Id : Type} {re2 : Re2} {receiver : Dashboard.Receiver Id}
    {header query : Option Text} {exitCode durationMs : Option ℤ}
    {rules : List EvaluableRule} {content : Text}
    (hnone : (parseExplicitSeverity header <|> parseExplicitSeverity query) =
      none) :
    resolveSeverity re2
        (severityFacts receiver none none exitCode durationMs) rules content =
      resolveSeverity re2
        (severityFacts receiver header query exitCode durationMs) rules
        content := by
  unfold resolveSeverity
  simp only [severityFacts] at hnone ⊢
  rw [hnone]
  rfl

theorem resolveSeverity_explicit
    {re2 : Re2} {facts : SeverityFacts} {rules : List EvaluableRule}
    {content : Text} {severity : Severity}
    (hheader : parseExplicitSeverity facts.headerSeverity = some severity) :
    resolveSeverity re2 facts rules content =
      .ok ⟨severity, .explicit, none, none, none, none,
        durationExceedsThreshold facts⟩ := by
  unfold resolveSeverity
  rw [hheader]
  rfl

/-- The row has what decided, so the resolution on the row agrees. -/
theorem resolveSeverity_replayed
    {Id : Type} {re2 : Re2} {receiver : Dashboard.Receiver Id}
    {header query : Option Text} {exitCode durationMs : Option ℤ}
    {rules : List EvaluableRule} {content : Text}
    {resolution : SeverityResolution}
    (hresolution : resolveSeverity re2
      (severityFacts receiver header query exitCode durationMs) rules content =
        .ok resolution) :
    ∃ again, resolveSeverity re2
        (severityFacts receiver
          (if resolution.source = .explicit then
            some resolution.severity.value else none)
          none exitCode durationMs) rules content = .ok again ∧
      again.severity = resolution.severity ∧
      again.source = resolution.source := by
  rcases resolveSeverity_cases hresolution with hexplicit | ⟨hnone, hlater⟩
  · rw [if_pos hexplicit, hexplicit]
    exact ⟨_, resolveSeverity_explicit
      (parseExplicitSeverity_value resolution.severity), rfl, rfl⟩
  · have hsource : resolution.source ≠ .explicit := by
      intro hexplicit
      rw [hexplicit] at hlater
      exact absurd hlater (by decide)
    rw [if_neg hsource]
    exact ⟨resolution, (resolveSeverity_withoutExplicit hnone).trans
      hresolution, rfl, rfl⟩

/-! ## Agreement -/

/-- The preview shows the recorded severity and source, and finds them again. -/
structure SeverityReplayItem.Agrees
    (item : SeverityReplayItem Id) (row : Dashboard.Notification Id) :
    Prop where
  truncated : item.truncated = false
  storedSeverity : item.storedSeverity = row.severity
  storedSource : item.storedSource = row.severitySource.value
  replayedSeverity : item.replayedSeverity = row.severity
  replayedSource : item.replayedSource = row.severitySource.value
  changed : item.changed = false

variable {configuration : Configuration Id} {receiverId id : Id}
  {receiver : Dashboard.Receiver Id} {row : Dashboard.Notification Id}

/-- What the row keeps of the resolution which has decided it. -/
theorem IngestedUnder.resolution
    (hingested : IngestedUnder configuration receiverId receiver row)
    (hinline : row.storageBackend = .inline) :
    ∃ header query content resolution,
      resolveSeverity configuration.re2
          (severityFacts receiver header query row.exitCode row.durationMs)
          (configuration.chain.loadEvaluationChain receiver.tenantId receiverId)
          content = .ok resolution ∧
        row.content = some content ∧
        row.severity = resolution.severity ∧
        row.severitySource = resolution.source := by
  obtain ⟨submission, prepared, now, hprepared, hrow⟩ := hingested
  obtain ⟨resolution, hresolution, rfl⟩ := Except.map_eq_ok.mp hprepared
  have hsmall : ¬configuration.inlineMaxBytes < submission.rawBody.length := by
    intro hlarge
    have hbackend := congrArg Dashboard.Notification.storageBackend hrow
    rw [hinline] at hbackend
    simp [persistNotification, hlarge] at hbackend
  refine ⟨submission.xSeverity.map Subtype.val, submission.severity,
    (normalizeBody submission.rawBody).1, resolution, ?_, ?_, ?_, ?_⟩
  · rw [hrow]
    exact hresolution
  · have hcontent := congrArg Dashboard.Notification.content hrow
    exact hcontent.trans (if_neg (by simpa using hsmall))
  · exact congrArg Dashboard.Notification.severity hrow
  · exact congrArg Dashboard.Notification.severitySource hrow

theorem IngestedUnder.replayItem
    (hingested : IngestedUnder configuration receiverId receiver row)
    (hinline : row.storageBackend = .inline) (id : Id) :
    ∃ item, Ingestion.replayItem configuration.re2
        (configuration.chain.loadEvaluationChain receiver.tenantId receiverId)
        receiver (id, row) = .ok item ∧
      item.notificationId = id ∧ item.Agrees row := by
  obtain ⟨header, query, content, resolution, hresolution, hcontent,
    hseverity, hsource⟩ := hingested.resolution hinline
  obtain ⟨again, hagain, hsameSeverity, hsameSource⟩ :=
    resolveSeverity_replayed hresolution
  rw [← hseverity, ← hsource] at hagain
  rw [← hseverity] at hsameSeverity
  rw [← hsource] at hsameSource
  refine ⟨_, Except.map_eq_ok.mpr ⟨again, ?_, rfl⟩, rfl, ?_⟩
  · rw [hcontent]
    exact hagain
  · exact ⟨by rw [hcontent]; rfl, rfl, rfl, hsameSeverity,
      congrArg SeveritySource.value hsameSource, by simp [hsameSeverity]⟩

/-- The replay selects the row unless it announces a start. -/
theorem IngestedUnder.replayCondition
    (hingested : IngestedUnder configuration receiverId receiver row)
    (hphase : row.phase ≠ some .start) :
    Ingestion.replayCondition receiver.tenantId receiverId id row = true := by
  obtain ⟨submission, prepared, now, hprepared, hrow⟩ := hingested
  obtain ⟨resolution, hresolution, rfl⟩ := Except.map_eq_ok.mp hprepared
  have hsource : resolution.source ∉
      ([.missing, .recovered] : List SeveritySource) := by
    rcases resolveSeverity_cases hresolution with hexplicit | ⟨-, hlater⟩
    · rw [hexplicit]
      decide
    · revert hlater
      generalize resolution.source = source
      cases source with
      | _ => decide
  have hcolumns : row.tenantId = receiver.tenantId ∧
      row.receiverId = receiverId ∧
      row.severitySource = resolution.source := by
    rw [hrow]
    exact ⟨rfl, rfl, rfl⟩
  obtain ⟨htenant, hreceiver, hrowSource⟩ := hcolumns
  rw [← hrowSource] at hsource
  simp [Ingestion.replayCondition, htenant, hreceiver, hsource, hphase]

/-! ## The endpoint -/

theorem forall₂_of_mapM_ok
    {ε α β : Type} {f : α → Except ε β} {inputs : List α} {outputs : List β}
    (hmapM : inputs.mapM f = .ok outputs) :
    List.Forall₂ (fun input output => f input = .ok output) inputs outputs := by
  induction inputs generalizing outputs with
  | nil =>
      obtain rfl := Except.ok.inj hmapM
      exact .nil
  | cons input rest ih =>
      rw [List.mapM_cons] at hmapM
      obtain ⟨output, houtput, hrest⟩ := Except.bind_eq_ok.mp hmapM
      obtain ⟨others, hothers, hresult⟩ := Except.bind_eq_ok.mp hrest
      obtain rfl := Except.ok.inj hresult
      exact .cons houtput (ih hothers)

theorem exists_of_forall₂
    {α β : Type} {R : α → β → Prop} {inputs : List α} {outputs : List β}
    (hall : List.Forall₂ R inputs outputs) {output : β}
    (hmem : output ∈ outputs) : ∃ input ∈ inputs, R input output := by
  induction hall with
  | nil => cases hmem
  | cons hfirst _ ih =>
      rcases List.mem_cons.mp hmem with rfl | hrest
      · exact ⟨_, List.mem_cons_self, hfirst⟩
      · obtain ⟨input, hinput, hrelated⟩ := ih hrest
        exact ⟨input, List.mem_cons_of_mem _ hinput, hrelated⟩

theorem map_eq_of_forall₂
    {α β γ : Type} {f : α → γ} {g : β → γ} {inputs : List α}
    {outputs : List β}
    (hall : List.Forall₂ (fun input output => g output = f input)
      inputs outputs) : outputs.map g = inputs.map f := by
  induction hall with
  | nil => rfl
  | cons hfirst _ ih => rw [List.map_cons, List.map_cons, hfirst, ih]

theorem mapM_ok
    {ε α β : Type} {f : α → Except ε β} {inputs : List α}
    (hall : ∀ input ∈ inputs, ∃ output, f input = .ok output) :
    ∃ outputs, inputs.mapM f = .ok outputs := by
  induction inputs with
  | nil => exact ⟨[], rfl⟩
  | cons input rest ih =>
      obtain ⟨output, houtput⟩ := hall input (by simp)
      obtain ⟨others, hothers⟩ := ih fun other hother =>
        hall other (by simp [hother])
      refine ⟨output :: others, ?_⟩
      rw [List.mapM_cons, houtput, hothers]
      rfl

variable {chain : ChainDatabase Id} {re2 : Re2} {state : Dashboard.State Id}
  {claims : Dashboard.Claims Id} {limit : ReplayLimit}

omit [ToString Id] in
theorem receiverFor_ok
    (hreceiver : receiverFor state claims receiverId = .ok receiver) :
    state.receivers.find receiverId = some receiver ∧
      receiver.tenantId = claims.tid := by
  unfold receiverFor at hreceiver
  split at hreceiver
  next found hfound =>
    split at hreceiver
    next htenant =>
      obtain ⟨-, -, rfl⟩ := Except.map_eq_ok.mp hreceiver
      exact ⟨hfound, htenant⟩
    · cases hreceiver
  · cases hreceiver

theorem mapError_eq_ok
    {ε ε' α : Type} {f : ε → ε'} {outcome : Except ε α} {value : α} :
    outcome.mapError f = .ok value ↔ outcome = .ok value := by
  cases outcome with
  | error error => simp [Except.mapError]
  | ok found => simp [Except.mapError]

/-- The items of an answer come from the replayed rows, one from each. -/
theorem replaySeverityRules_items
    {preview : SeverityReplay Id}
    (hpreview : replaySeverityRules re2 chain state claims receiverId limit =
      .ok preview) :
    ∃ receiver, receiverFor state claims receiverId = .ok receiver ∧
      List.Forall₂
        (fun entry item =>
          replayItem re2 (chain.loadEvaluationChain claims.tid receiverId)
            receiver entry = .ok item)
        (replayed state claims.tid receiverId limit) preview.items := by
  obtain ⟨receiver, hreceiver, hrest⟩ := Except.bind_eq_ok.mp hpreview
  obtain ⟨items, hitems, hresult⟩ := Except.bind_eq_ok.mp hrest
  obtain rfl := Except.ok.inj hresult
  exact ⟨receiver, mapError_eq_ok.mp hreceiver,
    forall₂_of_mapM_ok (mapError_eq_ok.mp hitems)⟩

omit [LinearOrder Id] [ToString Id] in
theorem replayItem_notificationId
    {rules : List EvaluableRule} {entry : Id × Dashboard.Notification Id}
    {item : SeverityReplayItem Id}
    (hitem : Ingestion.replayItem re2 rules receiver entry = .ok item) :
    item.notificationId = entry.1 := by
  obtain ⟨resolution, -, rfl⟩ := Except.map_eq_ok.mp hitem
  rfl

omit [ToString Id] in
/-- The replayed rows are rows of the table. -/
theorem find_of_mem_replayed
    {tenantId : Id} {entry : Id × Dashboard.Notification Id}
    (hentry : entry ∈ replayed state tenantId receiverId limit) :
    state.notifications.find entry.1 = some entry.2 := by
  have hfetched := List.mem_reverse.mp (List.mem_of_mem_take hentry)
  obtain ⟨hselected, hrow⟩ := Table.mem_fetch.mp hfetched
  exact Table.find_eq_some.mpr ⟨(Table.mem_select.mp hselected).1, hrow.symm⟩

/-- A stored inline notification is replayed to what its ingestion has recorded:
alone, and in every answer of the endpoint; the endpoint answers whenever the
rules compile. -/
theorem replay_agrees_with_ingestion
    (hingested : IngestedUnder configuration receiverId receiver row)
    (hinline : row.storageBackend = .inline)
    (hphase : row.phase ≠ some .start) :
    (Ingestion.replayCondition receiver.tenantId receiverId id row = true ∧
      ∃ item, Ingestion.replayItem configuration.re2
          (configuration.chain.loadEvaluationChain receiver.tenantId receiverId)
          receiver (id, row) = .ok item ∧
        item.Agrees row) ∧
    ∀ (state : Dashboard.State Id) (claims : Dashboard.Claims Id)
      (limit : ReplayLimit),
      state.receivers.find receiverId = some receiver →
      state.notifications.find id = some row →
        (∀ preview, replaySeverityRules configuration.re2 configuration.chain
            state claims receiverId limit = .ok preview →
          preview.items.map SeverityReplayItem.notificationId =
            (replayed state claims.tid receiverId limit).map Prod.fst ∧
          ∀ item ∈ preview.items, item.notificationId = id →
            item.Agrees row) ∧
        (receiverFor state claims receiverId = .ok receiver →
          (∀ rule ∈ configuration.chain.loadEvaluationChain claims.tid
              receiverId, ∃ compiled,
            compilePattern configuration.re2 rule.pattern
              rule.caseInsensitive = .ok compiled) →
            ∃ preview, replaySeverityRules configuration.re2
              configuration.chain state claims receiverId limit =
                .ok preview) := by
  obtain ⟨item, hitem, -, hagrees⟩ := hingested.replayItem hinline id
  refine ⟨⟨hingested.replayCondition hphase, item, hitem, hagrees⟩, ?_⟩
  intro state claims limit hfindReceiver hfind
  constructor
  · intro preview hpreview
    obtain ⟨found, hfound, hitems⟩ := replaySeverityRules_items hpreview
    obtain ⟨hrow, htenant⟩ := receiverFor_ok hfound
    rw [hfindReceiver] at hrow
    obtain rfl := Option.some.inj hrow
    rw [← htenant] at hitems ⊢
    constructor
    · exact map_eq_of_forall₂ (hitems.imp fun _ _ hitem =>
        replayItem_notificationId hitem)
    · intro shown hshown hid
      obtain ⟨⟨entryId, entryRow⟩, hentry, hshownItem⟩ :=
        exists_of_forall₂ hitems hshown
      obtain rfl : entryId = id := by
        rw [← hid, replayItem_notificationId hshownItem]
      have hentryRow := find_of_mem_replayed hentry
      obtain rfl := Option.some.inj (hfind.symm.trans hentryRow)
      obtain rfl := Except.ok.inj (hitem.symm.trans hshownItem)
      exact hagrees
  · intro hreceiver hcompiles
    obtain ⟨items, hitems⟩ : ∃ items,
        (replayed state claims.tid receiverId limit).mapM
          (Ingestion.replayItem configuration.re2
            (configuration.chain.loadEvaluationChain claims.tid receiverId)
            receiver) = .ok items := by
      refine mapM_ok fun entry _ => ?_
      obtain ⟨resolution, hresolution⟩ := resolveSeverity_ok hcompiles
        (replayFacts receiver entry.2)
        (entry.2.content.getD entry.2.contentPreview)
      exact ⟨_, Except.map_eq_ok.mpr ⟨resolution, hresolution, rfl⟩⟩
    refine ⟨⟨items, items.countP SeverityReplayItem.changed⟩, ?_⟩
    unfold replaySeverityRules
    rw [hreceiver]
    simp only [Except.mapError, bind, Except.bind, hitems]
    rfl

/-! ## A failed execution -/

/-- The policy has a severity for exit codes. -/
def failingReceiver : Dashboard.Receiver ℕ where
  tenantId := 1
  groupId := 2
  slug := "s".toList
  name := "r".toList
  ingestionModule := "http_raw".toList
  defaultSeverity := .info
  exitCodeSeverity := some .error
  maxBodyBytes := 1000
  rateLimitPerMin := 0
  policy :=
    ⟨.active, none, none, ⟨none, none, none, none, none⟩, none, none, none,
      none⟩

def failedSubmission : Submission where
  rawBody := [0x61]
  xSeverity := some ⟨"banana".toList, by decide⟩
  severity := none
  xExitCode := some ⟨"2".toList, by decide⟩
  xDurationMs := none
  xPhase := none

def smallConfiguration : Configuration ℕ where
  re2 := smallRe2
  chain := chainDatabase mixedRule
  inlineMaxBytes := 10

theorem replay_agrees_with_ingestion_exitCode :
    ∃ row : Dashboard.Notification ℕ,
      row.severity = .error ∧ row.severitySource = .exitCode ∧
      ∃ item, Ingestion.replayItem smallRe2
          ((chainDatabase mixedRule).loadEvaluationChain 1 1) failingReceiver
          (8, row) = .ok item ∧ item.Agrees row := by
  obtain ⟨prepared, hprepared, hinline, hphase, hseverity, hsource⟩ :
      ∃ prepared,
        prepareNotification smallConfiguration 1 failingReceiver
          failedSubmission = .ok prepared ∧
        prepared.useObjectStorage = false ∧ prepared.phase = none ∧
        prepared.severity = .error ∧ prepared.severitySource = .exitCode :=
    ⟨_, rfl, rfl, rfl, rfl, rfl⟩
  have hingested : IngestedUnder smallConfiguration 1 failingReceiver
      (persistNotification 1 1 prepared 100) :=
    ⟨failedSubmission, prepared, 100, hprepared, rfl⟩
  have hbackend :
      (persistNotification 1 1 prepared 100).storageBackend = .inline := by
    simp [persistNotification, hinline]
  have hended : (persistNotification 1 1 prepared 100).phase ≠ some .start := by
    simp [persistNotification, hphase]
  exact ⟨_, hseverity, hsource,
    (replay_agrees_with_ingestion hingested hbackend hended).1.2⟩

end NotifyHub.Ingestion
