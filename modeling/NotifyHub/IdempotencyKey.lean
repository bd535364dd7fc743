import NotifyHub.DomainTypes
import NotifyHub.FlatJson
import Mathlib.Tactic

/-!
# The idempotency key

`app.services.idempotency` over the value of one Redis key.  Every command and
every script is one atomic function on that value; the polling loop of
`reserve` is cut at its awaits.  The key holds the sentinel of a request which
is processing, or the JSON body of a finished one, and the prefix alone tells
the two apart.
-/

namespace NotifyHub

open FlatJson

/-- The value of `ingest:idem:{receiver}:{digest}`, if it exists. -/
abbrev RedisValue := Option Text

def processingPrefix : Text := "__processing__:".toList

def sentinel (ownerToken : Text) : Text := processingPrefix ++ ownerToken

/-- `SET key value NX`: whether the key was set, and its value afterwards. -/
def setNx (key : RedisValue) (value : Text) : Bool × RedisValue :=
  match key with
  | none => (true, some value)
  | some stored => (false, some stored)

/-- The script `_COMPARE_AND_DELETE`. -/
def compareAndDelete (key : RedisValue) (expected : Text) : RedisValue :=
  if key = some expected then none else key

/-- The script `_COMPARE_AND_STORE`. -/
def compareAndStore (key : RedisValue) (expected value : Text) : RedisValue :=
  if key = some expected then some value else key

structure IdempotencyReservation where
  isReplay : Bool
  replayBody : Option Record
  ownerToken : Option Text
  inProgress : Bool
  deriving DecidableEq

/-- Where `reserve` waits between two of its awaits. -/
inductive ReservePoint
  | getting
  | takingOver
  | checkingDeadline
  deriving DecidableEq

inductive ReserveOutcome
  | waiting (point : ReservePoint)
  | returned (reservation : IdempotencyReservation)
  | raised
  deriving DecidableEq

def ownerReservation (ownerToken : Text) : IdempotencyReservation :=
  ⟨false, none, some ownerToken, false⟩

def replayReservation (body : Record) : IdempotencyReservation :=
  ⟨true, some body, none, false⟩

def inProgressReservation : IdempotencyReservation :=
  ⟨false, none, none, true⟩

/-- A `SET NX` of `reserve`: the owner's reservation, or `otherwise`. -/
def reserveSetNx
    (otherwise : ReservePoint) (key : RedisValue) (ownerToken : Text) :
    RedisValue × ReserveOutcome :=
  match setNx key (sentinel ownerToken) with
  | (true, stored) => (stored, .returned (ownerReservation ownerToken))
  | (false, stored) => (stored, .waiting otherwise)

/-- The first `SET NX`, before the loop. -/
def reserveFirst (key : RedisValue) (ownerToken : Text) :
    RedisValue × ReserveOutcome :=
  reserveSetNx .getting key ownerToken

/-- The `SET NX` of a waiter which found the key gone. -/
def reserveTakeOver (key : RedisValue) (ownerToken : Text) :
    RedisValue × ReserveOutcome :=
  reserveSetNx .checkingDeadline key ownerToken

/-- The `GET` at the head of the loop. -/
def reserveGet (key : RedisValue) : ReserveOutcome :=
  match key with
  | none => .waiting .takingOver
  | some stored =>
      if processingPrefix.isPrefixOf stored then .waiting .checkingDeadline
      else
        match loads stored with
        | some body => .returned (replayReservation body)
        | none => .raised

/-- The end of the loop body: give up after the deadline, or sleep. -/
def reserveDeadline (expired : Bool) : ReserveOutcome :=
  if expired then .returned inProgressReservation else .waiting .getting

/-- `store_response`; without a request id or an owner it does nothing. -/
def storeResponse
    (key : RedisValue) (requestId ownerToken : Option Text) (body : Record) :
    RedisValue :=
  match requestId, ownerToken with
  | some (_ :: _), some token =>
      compareAndStore key (sentinel token) (dumps body)
  | _, _ => key

/-- `release`; without a request id or an owner it does nothing. -/
def release (key : RedisValue) (requestId ownerToken : Option Text) :
    RedisValue :=
  match requestId, ownerToken with
  | some (_ :: _), some token => compareAndDelete key (sentinel token)
  | _, _ => key

/-! ## Values which the key can hold -/

theorem sentinel_injective : Function.Injective sentinel := by
  intro first second heq
  exact List.append_cancel_left heq

theorem prefix_isPrefixOf_sentinel (token : Text) :
    processingPrefix.isPrefixOf (sentinel token) = true := by
  simp [sentinel]

theorem prefix_not_isPrefixOf_dumps (body : Record) :
    processingPrefix.isPrefixOf (dumps body) = false := by
  rfl

theorem sentinel_ne_dumps (token : Text) (body : Record) :
    sentinel token ≠ dumps body := by
  intro heq
  have hprefix := prefix_isPrefixOf_sentinel token
  rw [heq, prefix_not_isPrefixOf_dumps] at hprefix
  contradiction

@[simp] theorem reserveGet_sentinel (token : Text) :
    reserveGet (some (sentinel token)) = .waiting .checkingDeadline := by
  simp [reserveGet, prefix_isPrefixOf_sentinel]

@[simp] theorem reserveGet_dumps (body : Record) :
    reserveGet (some (dumps body)) = .returned (replayReservation body) := by
  simp [reserveGet, prefix_not_isPrefixOf_dumps, loads_dumps]

@[simp] theorem reserveGet_none :
    reserveGet none = .waiting .takingOver := rfl

/-- An existing key makes nobody the owner. -/
theorem reserveGet_some (stored : Text) :
    reserveGet (some stored) = .waiting .checkingDeadline ∨
      (∃ body, reserveGet (some stored) =
        .returned (replayReservation body)) ∨
      reserveGet (some stored) = .raised := by
  simp only [reserveGet]
  by_cases hprefix : processingPrefix.isPrefixOf stored = true
  · exact Or.inl (if_pos hprefix)
  · rw [if_neg hprefix]
    cases loads stored with
    | none => simp
    | some body => simp

@[simp] theorem reserveSetNx_none
    (otherwise : ReservePoint) (token : Text) :
    reserveSetNx otherwise none token =
      (some (sentinel token), .returned (ownerReservation token)) := rfl

@[simp] theorem reserveSetNx_some
    (otherwise : ReservePoint) (stored token : Text) :
    reserveSetNx otherwise (some stored) token =
      (some stored, .waiting otherwise) := rfl

/-! ## Scripts of a request which is not the owner -/

theorem release_eq_self
    {key : RedisValue} {requestId : Option Text} {token : Text}
    (hkey : key ≠ some (sentinel token)) :
    release key requestId (some token) = key := by
  unfold release
  split <;> simp_all [compareAndDelete]

theorem storeResponse_eq_self
    {key : RedisValue} {requestId : Option Text} {token : Text}
    (hkey : key ≠ some (sentinel token)) (body : Record) :
    storeResponse key requestId (some token) body = key := by
  unfold storeResponse
  split <;> simp_all [compareAndStore]

theorem storeResponse_ne_none
    {key : RedisValue} (hkey : key ≠ none)
    (requestId ownerToken : Option Text) (body : Record) :
    storeResponse key requestId ownerToken body ≠ none := by
  unfold storeResponse compareAndStore
  split
  · split
    · exact Option.some_ne_none _
    · exact hkey
  · exact hkey

/-! ## Scripts of the owner -/

theorem release_sentinel
    {requestId : Text} (hid : requestId ≠ []) (token : Text) :
    release (some (sentinel token)) (some requestId) (some token) = none := by
  cases requestId with
  | nil => contradiction
  | cons c rest => simp [release, compareAndDelete]

theorem storeResponse_sentinel
    {requestId : Text} (hid : requestId ≠ []) (token : Text)
    (body : Record) :
    storeResponse (some (sentinel token)) (some requestId) (some token) body =
      some (dumps body) := by
  cases requestId with
  | nil => contradiction
  | cons c rest => simp [storeResponse, compareAndStore]

/-! ## The body of an accepted request -/

def plainText (text : Text) (hplain : text.all plainChar = true) :
    PlainText :=
  ⟨text, List.all_eq_true.mp hplain⟩

theorem Severity.value_plain (severity : Severity) :
    severity.value.all plainChar = true := by
  cases severity <;> decide

theorem SeveritySource.value_plain (source : SeveritySource) :
    source.value.all plainChar = true := by
  cases source <;> decide

theorem StorageBackend.value_plain (backend : StorageBackend) :
    backend.value.all plainChar = true := by
  cases backend <;> decide

/-- What `_persisti` knows when it builds the response; the id is the text of
a UUID. -/
structure IngestBody where
  id : PlainText
  severity : Severity
  severitySource : SeveritySource
  forwardedTo : ℕ
  storageBackend : StorageBackend
  deriving DecidableEq

/-- The dictionary returned by `_persisti`. -/
def IngestBody.record (body : IngestBody) : Record :=
  [(plainText "id".toList (by decide), .str body.id),
    (plainText "severity".toList (by decide),
      .str (plainText body.severity.value body.severity.value_plain)),
    (plainText "severity_source".toList (by decide),
      .str (plainText body.severitySource.value
        body.severitySource.value_plain)),
    (plainText "forwarded_to".toList (by decide), .int body.forwardedTo),
    (plainText "storage_backend".toList (by decide),
      .str (plainText body.storageBackend.value
        body.storageBackend.value_plain))]

end NotifyHub
