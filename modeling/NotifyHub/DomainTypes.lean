import Mathlib.Tactic

/-!
# Enumerations and time of the service

The enumerations of `app.db.types` with the texts they are stored and sent
as.  Python texts are lists of code points; an aware `datetime` is the number
of microseconds since the year 1, and a `timedelta` a number of microseconds.
-/

namespace NotifyHub

abbrev Text := List Char

/-- A property of the characters of a text is decided along the text. -/
instance (priority := 2000) decidableForallMem
    {text : Text} {property : Char → Prop} [DecidablePred property] :
    Decidable (∀ char ∈ text, property char) :=
  List.decidableBAll property text

instance text_lawfulBEq : LawfulBEq Text := inferInstance

instance two_neZero : NeZero (1 + 1) := inferInstance

instance three_neZero : NeZero (2 + 1) := inferInstance

inductive TenantStatus
  | active
  | suspended
  deriving DecidableEq, Repr

inductive UserRole
  | owner
  | admin
  | member
  | viewer
  deriving DecidableEq, Repr

inductive UserStatus
  | active
  | disabled
  deriving DecidableEq, Repr

inductive ReceiverStatus
  | active
  | disabled
  deriving DecidableEq, Repr

inductive Severity
  | debug
  | info
  | warning
  | error
  | critical
  deriving DecidableEq, Repr

def Severity.value : Severity → Text
  | .debug => "debug".toList
  | .info => "info".toList
  | .warning => "warning".toList
  | .error => "error".toList
  | .critical => "critical".toList

/-- `SEVERITY_ORDER`. -/
def Severity.order : Severity → ℕ
  | .debug => 10
  | .info => 20
  | .warning => 30
  | .error => 40
  | .critical => 50

/-- The phase of an execution declared in `X-Phase`. -/
inductive NotificationPhase
  | start
  | finish
  deriving DecidableEq, Repr

inductive NotificationStatus
  | unread
  | read
  deriving DecidableEq, Repr

inductive SeveritySource
  | explicit
  | exitCode
  | duration
  | missing
  | recovered
  | rule
  | presetRule
  | receiverDefault
  deriving DecidableEq, Repr

def SeveritySource.value : SeveritySource → Text
  | .explicit => "explicit".toList
  | .exitCode => "exit_code".toList
  | .duration => "duration".toList
  | .missing => "missing".toList
  | .recovered => "recovered".toList
  | .rule => "rule".toList
  | .presetRule => "preset_rule".toList
  | .receiverDefault => "receiver_default".toList

inductive OverrideMode
  | override
  | mute
  deriving DecidableEq, Repr

inductive StorageBackend
  | inline
  | object
  deriving DecidableEq, Repr

def StorageBackend.value : StorageBackend → Text
  | .inline => "inline".toList
  | .object => "object".toList

inductive DeliveryStatus
  | pending
  | sending
  | sent
  | failed
  | dead
  deriving DecidableEq, Repr

/-- The two final states of a delivery. -/
def DeliveryStatus.isTerminal : DeliveryStatus → Bool
  | .sent | .dead => true
  | _ => false

/-! ## Errors -/

/-- `app.core.errors.Problem`; the only extra member used is `retry_after`. -/
structure Problem where
  status : ℕ
  type : Text
  title : Text
  detail : Text
  retryAfter : Option ℕ
  deriving DecidableEq, Repr

def validationError (detail : Text) : Problem where
  status := 422
  type := "/problems/validation-error".toList
  title := "Validation Error".toList
  detail := detail
  retryAfter := none

def notFound (detail : Text) : Problem where
  status := 404
  type := "/problems/not-found".toList
  title := "Not Found".toList
  detail := detail
  retryAfter := none

def conflict (detail : Text) : Problem where
  status := 409
  type := "/problems/conflict".toList
  title := "Conflict".toList
  detail := detail
  retryAfter := none

/-- The answer to an `IntegrityError` which no endpoint has caught. -/
def integrityConflict : Problem :=
  conflict
    "The request conflicts with the current state of the data.".toList

theorem Except.bind_eq_ok
    {ε α β : Type} {first : Except ε α} {rest : α → Except ε β} {result : β} :
    (first >>= rest) = .ok result ↔
      ∃ value, first = .ok value ∧ rest value = .ok result := by
  cases first with
  | error error => simp [bind, Except.bind]
  | ok value => simp [bind, Except.bind]

theorem Except.map_eq_ok
    {ε α β : Type} {f : α → β} {outcome : Except ε α} {result : β} :
    outcome.map f = .ok result ↔
      ∃ value, outcome = .ok value ∧ f value = result := by
  cases outcome with
  | error error => simp [Except.map]
  | ok value => simp [Except.map]

/-! ## Time -/

/-- An aware `datetime`, in microseconds since the year 1. -/
abbrev Instant := ℤ

/-- A `timedelta`, in microseconds. -/
abbrev Duration := ℤ

def microsecondsPerSecond : ℤ := 1000000

def timedeltaSeconds (seconds : ℤ) : Duration :=
  seconds * microsecondsPerSecond

def timedeltaMinutes (minutes : ℤ) : Duration :=
  timedeltaSeconds (minutes * 60)

def microsecondsPerDay : ℤ := 86400 * microsecondsPerSecond

/-- `datetime.max`, the last microsecond of the year 9999. -/
def datetimeMax : Instant := 3652059 * microsecondsPerDay - 1

/-- `datetime + timedelta`, with no value for an `OverflowError`. -/
def datetimeAdd (moment : Instant) (delta : Duration) : Option Instant :=
  if 0 ≤ moment + delta ∧ moment + delta ≤ datetimeMax then
    some (moment + delta)
  else none

theorem datetimeAdd_eq_some_iff {moment sum : Instant} {delta : Duration} :
    datetimeAdd moment delta = some sum ↔
      (0 ≤ moment + delta ∧ moment + delta ≤ datetimeMax) ∧
        sum = moment + delta := by
  simp [datetimeAdd, eq_comm]

/-- An aware `datetime` that Python can represent. -/
abbrev Datetime := { moment : Instant // 0 ≤ moment ∧ moment ≤ datetimeMax }

/-- `timedelta(days=days)`, with no value for an `OverflowError`. -/
def timedeltaDays (days : ℤ) : Option Duration :=
  if |days| ≤ 999999999 then some (days * microsecondsPerDay) else none

/-! ## Request fields -/

/-- `INT4_MAX`. -/
def int4Max : ℤ := 2147483647

/-- An integer field with a lower bound and `le=INT4_MAX`. -/
abbrev IntField (low : ℤ) := { value : ℤ // low ≤ value ∧ value ≤ int4Max }

theorem int4_zero_inRange : (0 : ℤ) ≤ 0 ∧ (0 : ℤ) ≤ int4Max := by decide

theorem int4_minute_inRange : (1 : ℤ) ≤ 60 ∧ (60 : ℤ) ≤ int4Max := by decide

/-- A text field with a `max_length`. -/
abbrev TextField (limit : ℕ) := { text : Text // text.length ≤ limit }

end NotifyHub
