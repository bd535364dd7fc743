import NotifyHub.DomainTypes
import Mathlib.Data.Char
import Mathlib.Data.List.Lex
import Mathlib.Tactic

/-!
# Resolution of a severity

The chain of precedence of an ingestion: an explicit severity, the outcome of
the execution, the rules of the receiver and of its presets, the default of
the receiver.  Which patterns RE2 accepts, and what they match, is a parameter.
-/

namespace NotifyHub

/-- The library `re2`; a pattern it refuses raises `re2.error`. -/
structure Re2 where
  Compiled : Type
  compile : Text → Except Text Compiled
  search : Compiled → Text → Bool

def patternWithNul : Text :=
  "il pattern non può contenere il carattere NUL".toList

/-- The error is the text of the `InvalidPatternError`. -/
def compilePattern (re2 : Re2) (pattern : Text) (caseInsensitive : Bool) :
    Except Text re2.Compiled :=
  if Char.ofNat 0 ∈ pattern then .error patternWithNul
  else re2.compile (if caseInsensitive then "(?i)".toList ++ pattern else pattern)

structure EvaluableRule where
  pattern : Text
  severity : Severity
  priority : ℕ
  caseInsensitive : Bool
  enabled : Bool
  id : Text
  presetId : Option Text
  presetName : Option Text

structure SeverityResolution where
  severity : Severity
  source : SeveritySource
  matchedRuleId : Option Text
  matchedPattern : Option Text
  matchedPresetId : Option Text
  matchedPresetName : Option Text
  durationExceeded : Bool
  deriving DecidableEq, Repr

/-- The arguments of `resolve_severity` besides the rules and the content. -/
structure SeverityFacts where
  headerSeverity : Option Text
  querySeverity : Option Text
  defaultSeverity : Severity
  exitCode : Option ℤ
  exitCodeSeverity : Option Severity
  durationMs : Option ℤ
  durationThresholdSeconds : Option ℤ
  durationSeverity : Option Severity

/-- The exceptions which can leave `resolve_severity`. -/
inductive ResolutionError
  | invalidPattern (message : Text)
  | durationWithoutSeverity
  deriving DecidableEq, Repr

/-- `_parse_explicit_severity`; no letter outside ASCII becomes a letter of a
severity in lower case. -/
def parseExplicitSeverity (value : Option Text) : Option Severity :=
  value.bind fun text =>
    [.debug, .info, .warning, .error, .critical].find? fun severity : Severity =>
      severity.value = text.map Char.toLower

def durationExceedsThreshold (facts : SeverityFacts) : Bool :=
  match facts.durationMs, facts.durationThresholdSeconds,
    facts.durationSeverity with
  | some durationMs, some thresholdSeconds, some _ =>
      durationMs > thresholdSeconds * 1000
  | _, _, _ => false

/-- The first of the gravest outcomes. -/
def gravest : List (Severity × SeveritySource) →
    Option (Severity × SeveritySource)
  | [] => none
  | outcome :: rest =>
      match gravest rest with
      | none => some outcome
      | some other =>
          some (if outcome.1.order < other.1.order then other else outcome)

def exitOutcomes (facts : SeverityFacts) : List (Severity × SeveritySource) :=
  match facts.exitCode, facts.exitCodeSeverity with
  | some exitCode, some severity =>
      if exitCode ≠ 0 then [(severity, .exitCode)] else []
  | _, _ => []

/-- The outcomes of the execution, the exit code before the duration. -/
def executionOutcomes (facts : SeverityFacts) :
    Except ResolutionError (List (Severity × SeveritySource)) :=
  if durationExceedsThreshold facts then
    match facts.durationSeverity with
    | some severity => .ok (exitOutcomes facts ++ [(severity, .duration)])
    | none => .error .durationWithoutSeverity
  else .ok (exitOutcomes facts)

/-- The first enabled rule which matches; a rule is compiled when its turn
comes. -/
def firstMatch (re2 : Re2) (content : Text) :
    List EvaluableRule → Except ResolutionError (Option EvaluableRule)
  | [] => .ok none
  | rule :: rest =>
      if rule.enabled = false then firstMatch re2 content rest
      else
        match compilePattern re2 rule.pattern rule.caseInsensitive with
        | .error message => .error (.invalidPattern message)
        | .ok compiled =>
            if re2.search compiled content then .ok (some rule)
            else firstMatch re2 content rest

/-- The order of `(r.priority, str(r.id))`. -/
def EvaluableRule.Before (rule other : EvaluableRule) : Prop :=
  rule.priority < other.priority ∨
    (rule.priority = other.priority ∧ rule.id ≤ other.id)

instance : DecidableRel EvaluableRule.Before := fun _ _ =>
  inferInstanceAs (Decidable (_ ∨ _))

/-- The answer of the rules, or of the default of the receiver. -/
def ruleResolution (facts : SeverityFacts) :
    Option EvaluableRule → SeverityResolution
  | some rule =>
      { severity := rule.severity
        source := if rule.presetId.isSome then .presetRule else .rule
        matchedRuleId := some rule.id
        matchedPattern := some rule.pattern
        matchedPresetId := rule.presetId
        matchedPresetName := rule.presetName
        durationExceeded := durationExceedsThreshold facts }
  | none =>
      ⟨facts.defaultSeverity, .receiverDefault, none, none, none, none,
        durationExceedsThreshold facts⟩

def resolveSeverity (re2 : Re2) (facts : SeverityFacts)
    (rules : List EvaluableRule) (content : Text) :
    Except ResolutionError SeverityResolution :=
  match parseExplicitSeverity facts.headerSeverity <|>
      parseExplicitSeverity facts.querySeverity with
  | some severity =>
      .ok ⟨severity, .explicit, none, none, none, none,
        durationExceedsThreshold facts⟩
  | none => do
      let outcomes ← executionOutcomes facts
      match gravest outcomes with
      | some (severity, source) =>
          .ok ⟨severity, source, none, none, none, none,
            durationExceedsThreshold facts⟩
      | none =>
          (firstMatch re2 content
            (rules.insertionSort EvaluableRule.Before)).map
              (ruleResolution facts)

/-! ## Chains which compile -/

theorem executionOutcomes_ok (facts : SeverityFacts) :
    ∃ outcomes, executionOutcomes facts = .ok outcomes := by
  unfold executionOutcomes
  split
  next hslow =>
    cases hseverity : facts.durationSeverity with
    | some severity => exact ⟨_, rfl⟩
    | none => simp [durationExceedsThreshold, hseverity] at hslow
  · exact ⟨_, rfl⟩

theorem firstMatch_ok {re2 : Re2} (content : Text) {rules : List EvaluableRule}
    (hcompiles : ∀ rule ∈ rules, ∃ compiled,
      compilePattern re2 rule.pattern rule.caseInsensitive = .ok compiled) :
    ∃ matched, firstMatch re2 content rules = .ok matched := by
  induction rules with
  | nil => exact ⟨none, rfl⟩
  | cons rule rest ih =>
      have hrest := ih fun other hmem => hcompiles other (by simp [hmem])
      obtain ⟨compiled, hcompiled⟩ := hcompiles rule (by simp)
      simp only [firstMatch, hcompiled]
      split
      · exact hrest
      · split
        · exact ⟨some rule, rfl⟩
        · exact hrest

/-- Rules which compile never fail an ingestion. -/
theorem resolveSeverity_ok {re2 : Re2} {rules : List EvaluableRule}
    (hcompiles : ∀ rule ∈ rules, ∃ compiled,
      compilePattern re2 rule.pattern rule.caseInsensitive = .ok compiled)
    (facts : SeverityFacts) (content : Text) :
    ∃ resolution, resolveSeverity re2 facts rules content = .ok resolution := by
  obtain ⟨outcomes, houtcomes⟩ := executionOutcomes_ok facts
  obtain ⟨matched, hmatched⟩ : ∃ matched, firstMatch re2 content
      (rules.insertionSort EvaluableRule.Before) = .ok matched :=
    firstMatch_ok content fun rule hmem =>
      hcompiles rule ((List.perm_insertionSort _ rules).mem_iff.mp hmem)
  unfold resolveSeverity
  split
  · exact ⟨_, rfl⟩
  · simp only [houtcomes, hmatched, bind, Except.bind, Except.map]
    split
    · exact ⟨_, rfl⟩
    · exact ⟨_, rfl⟩

end NotifyHub
