import NotifyHub.TransitionMachine
import NotifyHub.IdempotencyKey
import Mathlib.Tactic

/-!
# Concurrent ingestion under one idempotency key

Any number of requests carry the same `X-Request-Id` for the same receiver.
The state is the Redis value, the notifications committed for the id and the
position of each request in `_ingest`.  Every Redis command, the commit and
every failure is a step of its own, and the scripts may also reach Redis late,
a second time, after their request has already ended.

The invariant ties the three places together: a request between its
reservation and its last script is named by the key, and after a commit the
key carries the committing request or its body.
-/

namespace NotifyHub

open FlatJson

/-- The requests of one id.  `secrets.token_urlsafe` gives every request its
own token. -/
structure KeyedRequests (Request : Type*) where
  token : Request → Text
  token_injective : Function.Injective token
  requestId : Text
  requestId_nonempty : requestId ≠ []

/-- Position of a request, from step 5 of `_ingest` on. -/
inductive IngestPhase
  | arrived
  | reserving (point : ReservePoint)
  | owner
  | releasing
  | committed (body : IngestBody)
  | created (body : Record)
  | replayed (body : Record)
  | conflict
  | released
  | failed
  deriving DecidableEq

/-- From the reservation to the last script. -/
def IngestPhase.ownsKey : IngestPhase → Bool
  | .owner | .releasing | .committed _ => true
  | _ => false

/-- After the commit of the notification. -/
def IngestPhase.persisted : IngestPhase → Bool
  | .committed _ | .created _ => true
  | _ => false

/-- How `_ingest` continues after `reserve`. -/
def afterReserve : ReserveOutcome → IngestPhase
  | .waiting point => .reserving point
  | .raised => .failed
  | .returned reservation =>
      if reservation.isReplay then
        match reservation.replayBody with
        | some body => .replayed body
        | none => .failed
      else if reservation.inProgress then .conflict
      else .owner

structure IngestState (Request : Type*) where
  key : RedisValue
  notifications : List (Request × IngestBody)
  phase : Request → IngestPhase

/-- A Redis command either reaches the server or not (`executed`), and its
reply either comes back or the client raises (`answered`). -/
inductive IngestAction (Request : Type*)
  | setNx (request : Request) (executed answered : Bool)
  | get (request : Request) (answered : Bool)
  | takeOver (request : Request) (executed answered : Bool)
  | deadline (request : Request) (expired : Bool)
  | commit (request : Request) (body : IngestBody)
  | failBeforeCommit (request : Request)
  | release (request : Request) (executed : Bool)
  | store (request : Request) (executed : Bool)
  | resendRelease (request : Request)
  | resendStore (request : Request)

/-- The request between its reservation and its last script. -/
def IngestState.Owns {Request : Type*} (state : IngestState Request) (request : Request) :
    Prop :=
  (state.phase request).ownsKey = true

/-- The key carries the sentinel of this request. -/
def IngestState.KeyNames {Request : Type*}
    (requests : KeyedRequests Request) (state : IngestState Request)
    (request : Request) : Prop :=
  state.key = some (sentinel (requests.token request))

/-! ## The invariant -/

structure IngestState.Coherent {Request : Type*}
    (requests : KeyedRequests Request) (state : IngestState Request) :
    Prop where
  owner_named : ∀ request, state.Owns request →
    state.KeyNames requests request
  key_value : ∀ value, state.key = some value →
    (∃ request, value = sentinel (requests.token request)) ∨
      ∃ request body, state.notifications = [(request, body)] ∧
        value = dumps body.record
  single : state.notifications = [] ∨
    ∃ request body, state.notifications = [(request, body)] ∧
      (state.phase request = .committed body ∨
        state.phase request = .created body.record) ∧
      (state.KeyNames requests request ∨
        state.key = some (dumps body.record))
  committed_persisted : ∀ request body,
    state.phase request = .committed body →
      state.notifications = [(request, body)]
  created_persisted : ∀ request body,
    state.phase request = .created body →
      ∃ stored, state.notifications = [(request, stored)] ∧
        body = stored.record
  replayed_persisted : ∀ request body,
    state.phase request = .replayed body →
      ∃ owner stored, state.notifications = [(owner, stored)] ∧
        body = stored.record

namespace IngestState

variable {Request : Type*}
variable {requests : KeyedRequests Request} {state : IngestState Request}

theorem KeyNames.unique {first second : Request}
    (hfirst : state.KeyNames requests first)
    (hsecond : state.KeyNames requests second) :
    first = second := by
  have hsentinel := Option.some.inj (hfirst.symm.trans hsecond)
  exact requests.token_injective (sentinel_injective hsentinel)

/-- While some request owns the key before its commit, nothing is
persisted. -/
theorem Coherent.notifications_eq_nil
    (hcoherent : state.Coherent requests) {request : Request}
    (hnamed : state.KeyNames requests request)
    (hbefore : (state.phase request).persisted = false) :
    state.notifications = [] := by
  rcases hcoherent.single with hnil |
    ⟨owner, body, -, hphase, hkey | hkey⟩
  · exact hnil
  · obtain rfl := hkey.unique hnamed
    rcases hphase with hphase | hphase <;>
      simp [hphase, IngestPhase.persisted] at hbefore
  · have hvalue := Option.some.inj (hnamed.symm.trans hkey)
    exact (sentinel_ne_dumps _ _ hvalue).elim

/-- A free key means that nothing is persisted and nobody owns it. -/
theorem Coherent.of_key_none
    (hcoherent : state.Coherent requests) (hkey : state.key = none) :
    state.notifications = [] ∧ ∀ request, ¬ state.Owns request := by
  constructor
  · rcases hcoherent.single with hnil | ⟨owner, body, -, -, hnamed | hbody⟩
    · exact hnil
    · rw [KeyNames, hkey] at hnamed
      contradiction
    · rw [hkey] at hbody
      contradiction
  · intro request howns
    have hnamed := hcoherent.owner_named request howns
    rw [KeyNames, hkey] at hnamed
    contradiction

/-- Writing the key while nobody owns it and nothing is persisted. -/
theorem Coherent.setKey
    (hcoherent : state.Coherent requests)
    (hnil : state.notifications = [])
    (hnobody : ∀ request, ¬ state.Owns request)
    {key : RedisValue}
    (hkey : ∀ value, key = some value →
      ∃ request, value = sentinel (requests.token request)) :
    ({ state with key := key } : IngestState Request).Coherent requests := by
  constructor
  · intro request howns
    exact (hnobody request howns).elim
  · intro value hvalue
    exact Or.inl (hkey value hvalue)
  · exact Or.inl hnil
  · exact hcoherent.committed_persisted
  · exact hcoherent.created_persisted
  · exact hcoherent.replayed_persisted

/-- A release which arrives after its request has ended deletes nothing that
another request owns. -/
theorem Coherent.resendRelease
    (hcoherent : state.Coherent requests) {request : Request}
    (hphase : state.phase request = .released) :
    ({ state with
        key := NotifyHub.release state.key (some requests.requestId)
          (some (requests.token request)) } :
      IngestState Request).Coherent requests := by
  by_cases hnamed : state.KeyNames requests request
  · have hnil := hcoherent.notifications_eq_nil hnamed
      (by rw [hphase]; rfl)
    have hnobody : ∀ other, ¬ state.Owns other := by
      intro other howns
      obtain rfl := (hcoherent.owner_named other howns).unique hnamed
      simp [Owns, hphase, IngestPhase.ownsKey] at howns
    have hkey :
        NotifyHub.release state.key (some requests.requestId)
          (some (requests.token request)) = none := by
      rw [hnamed]
      exact release_sentinel requests.requestId_nonempty _
    rw [hkey]
    exact hcoherent.setKey hnil hnobody (by simp)
  · rw [release_eq_self hnamed]
    exact hcoherent

/-- A response which is stored again replaces only its own sentinel. -/
theorem Coherent.resendStore
    (hcoherent : state.Coherent requests) {request : Request}
    {body : Record} (hphase : state.phase request = .created body) :
    ({ state with
        key := storeResponse state.key (some requests.requestId)
          (some (requests.token request)) body } :
      IngestState Request).Coherent requests := by
  by_cases hnamed : state.KeyNames requests request
  · obtain ⟨stored, hone, rfl⟩ := hcoherent.created_persisted request body hphase
    have hkey :
        storeResponse state.key (some requests.requestId)
            (some (requests.token request)) stored.record =
          some (dumps stored.record) := by
      rw [hnamed]
      exact storeResponse_sentinel requests.requestId_nonempty _ _
    rw [hkey]
    constructor
    · intro other howns
      obtain rfl := (hcoherent.owner_named other howns).unique hnamed
      simp [Owns, hphase, IngestPhase.ownsKey] at howns
    · intro value hvalue
      exact Or.inr ⟨request, stored, hone, (Option.some.inj hvalue).symm⟩
    · exact Or.inr ⟨request, stored, hone, Or.inr hphase, Or.inr rfl⟩
    · exact hcoherent.committed_persisted
    · exact hcoherent.created_persisted
    · exact hcoherent.replayed_persisted
  · rw [storeResponse_eq_self hnamed]
    exact hcoherent

end IngestState

/-! ## The machine -/

variable {Request : Type*} [DecidableEq Request]

def IngestState.setPhase
    (state : IngestState Request) (request : Request)
    (phase : IngestPhase) : IngestState Request :=
  { state with phase := Function.update state.phase request phase }

/-- A `SET NX` of `reserve`, with the faults of the connection. -/
def IngestState.reserveWith
    (state : IngestState Request) (request : Request)
    (command : RedisValue × ReserveOutcome) (executed answered : Bool) :
    IngestState Request :=
  let key := if executed then command.1 else state.key
  { state with key := key }.setPhase request
    (if executed && answered then afterReserve command.2 else .failed)

def ingestStep
    (requests : KeyedRequests Request) (state : IngestState Request) :
    IngestAction Request → Option (IngestState Request)
  | .setNx request executed answered =>
      match state.phase request with
      | .arrived =>
          some (state.reserveWith request
            (reserveFirst state.key (requests.token request))
            executed answered)
      | _ => none
  | .get request answered =>
      match state.phase request with
      | .reserving .getting =>
          some (state.setPhase request
            (if answered then afterReserve (reserveGet state.key)
              else .failed))
      | _ => none
  | .takeOver request executed answered =>
      match state.phase request with
      | .reserving .takingOver =>
          some (state.reserveWith request
            (reserveTakeOver state.key (requests.token request))
            executed answered)
      | _ => none
  | .deadline request expired =>
      match state.phase request with
      | .reserving .checkingDeadline =>
          some (state.setPhase request
            (afterReserve (reserveDeadline expired)))
      | _ => none
  | .commit request body =>
      match state.phase request with
      | .owner =>
          some ({ state with
            notifications := state.notifications ++ [(request, body)]
            }.setPhase request (.committed body))
      | _ => none
  | .failBeforeCommit request =>
      match state.phase request with
      | .owner => some (state.setPhase request .releasing)
      | _ => none
  | .release request executed =>
      match state.phase request with
      | .releasing =>
          -- a failing release is logged, and the original exception goes on
          some ({ state with
            key := if executed then
              release state.key (some requests.requestId)
                (some (requests.token request))
              else state.key }.setPhase request .released)
      | _ => none
  | .store request executed =>
      match state.phase request with
      | .committed body =>
          -- a failing store is logged, and the answer stays 201
          some ({ state with
            key := if executed then
              storeResponse state.key (some requests.requestId)
                (some (requests.token request)) body.record
              else state.key }.setPhase request (.created body.record))
      | _ => none
  | .resendRelease request =>
      match state.phase request with
      | .released =>
          some { state with
            key := release state.key (some requests.requestId)
              (some (requests.token request)) }
      | _ => none
  | .resendStore request =>
      match state.phase request with
      | .created body =>
          some { state with
            key := storeResponse state.key (some requests.requestId)
              (some (requests.token request)) body }
      | _ => none

/-- The key is free and no request has started. -/
def ingestMachine (requests : KeyedRequests Request) :
    Machine (IngestState Request) (IngestAction Request) where
  Initial state :=
    state.key = none ∧ state.notifications = [] ∧
      ∀ request, state.phase request = .arrived
  step := ingestStep requests

/-! ## Preservation -/

namespace IngestState

variable {requests : KeyedRequests Request} {state : IngestState Request}

@[simp] theorem setPhase_key
    (request : Request) (phase : IngestPhase) :
    (state.setPhase request phase).key = state.key := rfl

@[simp] theorem setPhase_notifications
    (request : Request) (phase : IngestPhase) :
    (state.setPhase request phase).notifications = state.notifications := rfl

@[simp] theorem setPhase_phase_self
    (request : Request) (phase : IngestPhase) :
    (state.setPhase request phase).phase request = phase := by
  simp [setPhase]

theorem setPhase_phase_of_ne
    {request other : Request} (hne : other ≠ request)
    (phase : IngestPhase) :
    (state.setPhase request phase).phase other = state.phase other := by
  simp [setPhase, hne]

/-- Moving a request which has not committed, with the key and the database
left alone. -/
theorem Coherent.setPhase
    (hcoherent : state.Coherent requests) {request : Request}
    {phase : IngestPhase}
    (hbefore : (state.phase request).persisted = false)
    (howns : phase.ownsKey = true → state.KeyNames requests request)
    (hnot : phase.persisted = false)
    (hreplayed : ∀ body, phase = .replayed body →
      ∃ owner stored, state.notifications = [(owner, stored)] ∧
        body = stored.record) :
    (state.setPhase request phase).Coherent requests := by
  constructor
  · intro other hother
    by_cases heq : other = request
    · subst other
      exact howns (by simpa [Owns] using hother)
    · apply hcoherent.owner_named other
      simpa [Owns, setPhase_phase_of_ne heq] using hother
  · exact hcoherent.key_value
  · rcases hcoherent.single with hnil | ⟨owner, body, hone, hphase, hkey⟩
    · exact Or.inl hnil
    · have hne : owner ≠ request := by
        rintro rfl
        rcases hphase with hphase | hphase <;>
          simp [hphase, IngestPhase.persisted] at hbefore
      refine Or.inr ⟨owner, body, hone, ?_, hkey⟩
      rwa [setPhase_phase_of_ne hne]
  · intro other body hother
    by_cases heq : other = request
    · subst other
      rw [setPhase_phase_self] at hother
      simp [hother, IngestPhase.persisted] at hnot
    · exact hcoherent.committed_persisted other body
        (by rwa [setPhase_phase_of_ne heq] at hother)
  · intro other body hother
    by_cases heq : other = request
    · subst other
      rw [setPhase_phase_self] at hother
      simp [hother, IngestPhase.persisted] at hnot
    · exact hcoherent.created_persisted other body
        (by rwa [setPhase_phase_of_ne heq] at hother)
  · intro other body hother
    by_cases heq : other = request
    · subst other
      exact hreplayed body (by simpa using hother)
    · exact hcoherent.replayed_persisted other body
        (by rwa [setPhase_phase_of_ne heq] at hother)

/-- A `SET NX` leaves the key as it was, or takes a free key. -/
theorem Coherent.reserveWith
    (hcoherent : state.Coherent requests) {request : Request}
    (hbefore : (state.phase request).persisted = false)
    (otherwise : ReservePoint) (executed answered : Bool) :
    (state.reserveWith request
      (reserveSetNx otherwise state.key (requests.token request))
      executed answered).Coherent requests := by
  cases hkey : state.key with
  | some stored =>
      have hsame :
          state.reserveWith request
              (reserveSetNx otherwise (some stored) (requests.token request))
              executed answered =
            state.setPhase request
              (if executed && answered then .reserving otherwise
                else .failed) := by
        cases executed <;> cases answered <;>
          simp [IngestState.reserveWith, IngestState.setPhase, afterReserve, hkey]
      rw [hsame]
      apply hcoherent.setPhase hbefore <;>
        cases executed <;> cases answered <;>
        simp [IngestPhase.ownsKey, IngestPhase.persisted]
  | none =>
      obtain ⟨hnil, hnobody⟩ := hcoherent.of_key_none hkey
      cases executed with
      | false =>
          apply hcoherent.setPhase hbefore <;>
            simp [IngestPhase.ownsKey, IngestPhase.persisted]
      | true =>
          have hsentinel : ∀ value,
              some (sentinel (requests.token request)) = some value →
                ∃ owner, value = sentinel (requests.token owner) :=
            fun value hvalue => ⟨request, (Option.some.inj hvalue).symm⟩
          have htaken := hcoherent.setKey hnil hnobody hsentinel
          apply htaken.setPhase hbefore
          · exact fun _ => rfl
          · cases answered <;> rfl
          · cases answered <;>
              simp [afterReserve, ownerReservation]

/-- A `GET` of the loop answers only with the body of the committed owner. -/
theorem Coherent.afterGet
    (hcoherent : state.Coherent requests) {request : Request}
    (hbefore : (state.phase request).persisted = false) :
    (state.setPhase request
      (afterReserve (reserveGet state.key))).Coherent requests := by
  cases hkey : state.key with
  | none =>
      apply hcoherent.setPhase hbefore <;>
        simp [afterReserve, IngestPhase.ownsKey, IngestPhase.persisted]
  | some value =>
      rcases hcoherent.key_value value hkey with
        ⟨owner, rfl⟩ | ⟨owner, stored, hone, rfl⟩
      · apply hcoherent.setPhase hbefore <;>
          simp [afterReserve, IngestPhase.ownsKey, IngestPhase.persisted]
      · apply hcoherent.setPhase hbefore
        · simp [afterReserve, replayReservation, IngestPhase.ownsKey]
        · simp [afterReserve, replayReservation, IngestPhase.persisted]
        · intro body hbody
          refine ⟨owner, stored, hone, ?_⟩
          simpa [afterReserve, replayReservation] using hbody.symm

/-- The key becomes free when the script of its owner deletes it. -/
theorem Coherent.release
    (hcoherent : state.Coherent requests) {request : Request}
    (hphase : state.phase request = .releasing) :
    ({ state with
        key := NotifyHub.release state.key (some requests.requestId)
          (some (requests.token request))
        }.setPhase request .released).Coherent requests := by
  have hbefore : (state.phase request).persisted = false := by
    rw [hphase]
    rfl
  have hnamed : state.KeyNames requests request :=
    hcoherent.owner_named request (by simp [Owns, hphase, IngestPhase.ownsKey])
  have hnil := hcoherent.notifications_eq_nil hnamed hbefore
  have hmoved : (state.setPhase request .released).Coherent requests :=
    hcoherent.setPhase hbefore (by simp [IngestPhase.ownsKey]) rfl (by simp)
  have hnobody : ∀ other, ¬ (state.setPhase request .released).Owns other := by
    intro other howns
    have hother : state.KeyNames requests other := hmoved.owner_named other howns
    obtain rfl := hother.unique hnamed
    simp [Owns, IngestPhase.ownsKey] at howns
  have hkey :
      NotifyHub.release state.key (some requests.requestId)
        (some (requests.token request)) = none := by
    rw [hnamed]
    exact release_sentinel requests.requestId_nonempty _
  rw [hkey]
  exact hmoved.setKey hnil hnobody (by simp)

/-- The commit finds no other notification of the id. -/
theorem Coherent.commit
    (hcoherent : state.Coherent requests) {request : Request}
    (hphase : state.phase request = .owner) (body : IngestBody) :
    ({ state with
        notifications := state.notifications ++ [(request, body)]
        }.setPhase request (.committed body)).Coherent requests := by
  have hnamed : state.KeyNames requests request :=
    hcoherent.owner_named request (by simp [Owns, hphase, IngestPhase.ownsKey])
  have hnil := hcoherent.notifications_eq_nil hnamed (by rw [hphase]; rfl)
  have hone : state.notifications ++ [(request, body)] =
      [(request, body)] := by
    simp [hnil]
  have hearlier : ∀ other, (state.phase other).persisted = false := by
    intro other
    cases hother : state.phase other with
    | committed stored =>
        have hpersisted := hcoherent.committed_persisted other stored hother
        simp [hnil] at hpersisted
    | created stored =>
        obtain ⟨_, hpersisted, _⟩ :=
          hcoherent.created_persisted other stored hother
        simp [hnil] at hpersisted
    | _ => rfl
  have hother : ∀ other, other ≠ request → ∀ phase,
      ({ state with
        notifications := state.notifications ++ [(request, body)]
        }.setPhase request (.committed body)).phase other = phase →
          state.phase other = phase := by
    intro other hne phase hphaseOther
    simpa [IngestState.setPhase, hne] using hphaseOther
  constructor
  · intro other howns
    by_cases heq : other = request
    · subst other
      exact hnamed
    · apply hcoherent.owner_named other
      simpa [Owns, IngestState.setPhase, heq] using howns
  · intro value hvalue
    exact Or.inl ⟨request, Option.some.inj (hvalue.symm.trans hnamed)⟩
  · exact Or.inr ⟨request, body, hone, Or.inl (by simp), Or.inl hnamed⟩
  · intro other stored hcommitted
    by_cases heq : other = request
    · subst other
      obtain rfl : body = stored := by simpa using hcommitted
      exact hone
    · have hfalse := hearlier other
      simp [hother other heq _ hcommitted, IngestPhase.persisted] at hfalse
  · intro other stored hcreated
    by_cases heq : other = request
    · subst other
      simp at hcreated
    · have hfalse := hearlier other
      simp [hother other heq _ hcreated, IngestPhase.persisted] at hfalse
  · intro other stored hreplayed
    by_cases heq : other = request
    · subst other
      simp at hreplayed
    · obtain ⟨_, _, hpersisted, _⟩ := hcoherent.replayed_persisted other stored
        (hother other heq _ hreplayed)
      simp [hnil] at hpersisted

/-- Storing the response, whether or not the script reaches Redis. -/
theorem Coherent.store
    (hcoherent : state.Coherent requests) {request : Request}
    {body : IngestBody} (hphase : state.phase request = .committed body)
    (executed : Bool) :
    ({ state with
        key := if executed then
          storeResponse state.key (some requests.requestId)
            (some (requests.token request)) body.record
          else state.key }.setPhase request
            (.created body.record)).Coherent requests := by
  have hone := hcoherent.committed_persisted request body hphase
  have hnamed : state.KeyNames requests request :=
    hcoherent.owner_named request (by simp [Owns, hphase, IngestPhase.ownsKey])
  have hstored :
      storeResponse state.key (some requests.requestId)
          (some (requests.token request)) body.record =
        some (dumps body.record) := by
    rw [hnamed]
    exact storeResponse_sentinel requests.requestId_nonempty _ _
  rw [hstored]
  have hother : ∀ key other, other ≠ request →
      ({ state with key := key }.setPhase request
        (.created body.record)).phase other = state.phase other := by
    intro key other hne
    simp [IngestState.setPhase, hne]
  constructor
  · intro other howns
    by_cases heq : other = request
    · subst other
      simp [Owns, IngestPhase.ownsKey] at howns
    · rw [Owns, hother _ other heq] at howns
      exact (heq ((hcoherent.owner_named other howns).unique hnamed)).elim
  · intro value hvalue
    cases executed with
    | true =>
        exact Or.inr ⟨request, body, hone, (Option.some.inj hvalue).symm⟩
    | false => exact hcoherent.key_value value hvalue
  · refine Or.inr ⟨request, body, hone, Or.inr (by simp), ?_⟩
    cases executed with
    | true => exact Or.inr rfl
    | false => exact Or.inl hnamed
  · intro other stored hcommitted
    by_cases heq : other = request
    · subst other
      simp at hcommitted
    · rw [hother _ other heq] at hcommitted
      exact hcoherent.committed_persisted other stored hcommitted
  · intro other stored hcreated
    by_cases heq : other = request
    · subst other
      exact ⟨body, hone, by simpa using hcreated.symm⟩
    · rw [hother _ other heq] at hcreated
      exact hcoherent.created_persisted other stored hcreated
  · intro other stored hreplayed
    by_cases heq : other = request
    · subst other
      simp at hreplayed
    · rw [hother _ other heq] at hreplayed
      exact hcoherent.replayed_persisted other stored hreplayed

/-- Every step keeps the invariant. -/
theorem Coherent.step
    (hcoherent : state.Coherent requests) {action : IngestAction Request}
    {next : IngestState Request}
    (hstep : ingestStep requests state action = some next) :
    next.Coherent requests := by
  cases action with
  | setNx request executed answered =>
      cases hphase : state.phase request <;>
        simp only [ingestStep, hphase, reduceCtorEq, Option.some.injEq] at hstep
      subst next
      exact hcoherent.reserveWith (by rw [hphase]; rfl) _ executed answered
  | get request answered =>
      cases hphase : state.phase request <;>
        simp only [ingestStep, hphase, reduceCtorEq] at hstep
      next point =>
      cases point <;>
        simp only [reduceCtorEq, Option.some.injEq] at hstep
      subst next
      have hbefore : (state.phase request).persisted = false := by
        rw [hphase]
        rfl
      cases answered with
      | false =>
          exact hcoherent.setPhase hbefore (by simp [IngestPhase.ownsKey])
            rfl (by simp)
      | true => exact hcoherent.afterGet hbefore
  | takeOver request executed answered =>
      cases hphase : state.phase request <;>
        simp only [ingestStep, hphase, reduceCtorEq] at hstep
      next point =>
      cases point <;>
        simp only [reduceCtorEq, Option.some.injEq] at hstep
      subst next
      exact hcoherent.reserveWith (by rw [hphase]; rfl) _ executed answered
  | deadline request expired =>
      cases hphase : state.phase request <;>
        simp only [ingestStep, hphase, reduceCtorEq] at hstep
      next point =>
      cases point <;>
        simp only [reduceCtorEq, Option.some.injEq] at hstep
      subst next
      apply hcoherent.setPhase (by rw [hphase]; rfl) <;>
        cases expired <;>
        simp [reserveDeadline, afterReserve, inProgressReservation,
          IngestPhase.ownsKey, IngestPhase.persisted]
  | commit request body =>
      cases hphase : state.phase request <;>
        simp only [ingestStep, hphase, reduceCtorEq, Option.some.injEq] at hstep
      subst next
      exact hcoherent.commit hphase body
  | failBeforeCommit request =>
      cases hphase : state.phase request <;>
        simp only [ingestStep, hphase, reduceCtorEq, Option.some.injEq] at hstep
      subst next
      exact hcoherent.setPhase (by rw [hphase]; rfl)
        (fun _ => hcoherent.owner_named request
          (by simp [Owns, hphase, IngestPhase.ownsKey])) rfl (by simp)
  | release request executed =>
      cases hphase : state.phase request <;>
        simp only [ingestStep, hphase, reduceCtorEq, Option.some.injEq] at hstep
      subst next
      cases executed with
      | true => exact hcoherent.release hphase
      | false =>
          exact hcoherent.setPhase (by rw [hphase]; rfl)
            (by simp [IngestPhase.ownsKey]) rfl (by simp)
  | store request executed =>
      cases hphase : state.phase request <;>
        simp only [ingestStep, hphase, reduceCtorEq, Option.some.injEq] at hstep
      subst next
      exact hcoherent.store hphase executed
  | resendRelease request =>
      cases hphase : state.phase request <;>
        simp only [ingestStep, hphase, reduceCtorEq, Option.some.injEq] at hstep
      subst next
      exact hcoherent.resendRelease hphase
  | resendStore request =>
      cases hphase : state.phase request <;>
        simp only [ingestStep, hphase, reduceCtorEq, Option.some.injEq] at hstep
      subst next
      exact hcoherent.resendStore hphase

/-! ## Runs -/

theorem Coherent.of_reachable
    (hreach : (ingestMachine requests).Reachable state) :
    state.Coherent requests := by
  refine Machine.Reachable.invariant ?_ ?_ hreach
  · rintro start ⟨hkey, hnil, harrived⟩
    constructor
    · intro request howns
      simp [Owns, harrived request, IngestPhase.ownsKey] at howns
    · intro value hvalue
      rw [hkey] at hvalue
      contradiction
    · exact Or.inl hnil
    · intro request body hphase
      simp [harrived request] at hphase
    · intro request body hphase
      simp [harrived request] at hphase
    · intro request body hphase
      simp [harrived request] at hphase
  · intro current action next hcoherent hstep
    exact hcoherent.step hstep

/-- Only a commit writes the database, and only when it is empty. -/
theorem Coherent.step_notifications
    (hcoherent : state.Coherent requests) {action : IngestAction Request}
    {next : IngestState Request}
    (hstep : ingestStep requests state action = some next) :
    next.notifications = state.notifications ∨
      state.notifications = [] ∧
        ∃ request body, next.notifications = [(request, body)] := by
  cases action with
  | commit request body =>
      cases hphase : state.phase request <;>
        simp only [ingestStep, hphase, reduceCtorEq, Option.some.injEq] at hstep
      subst next
      have hnil : state.notifications = [] :=
        hcoherent.notifications_eq_nil
          (hcoherent.owner_named request
            (by simp [Owns, hphase, IngestPhase.ownsKey]))
          (by rw [hphase]; rfl)
      exact Or.inr ⟨hnil, request, body, by simp [hnil]⟩
  | _ =>
      left
      simp only [ingestStep] at hstep
      split at hstep <;>
        first
        | contradiction
        | (simp only [Option.some.injEq] at hstep
           subst next
           rfl)

/-- Once a notification is persisted it stays the only one, and nobody but
the request which committed it owns the key. -/
theorem Coherent.run_persisted
    {request : Request} {body : IngestBody}
    (hcoherent : state.Coherent requests)
    (hone : state.notifications = [(request, body)])
    {actions : List (IngestAction Request)} {later : IngestState Request}
    (hrun : (ingestMachine requests).run state actions = some later) :
    later.notifications = [(request, body)] ∧
      ∀ other, later.Owns other → other = request := by
  obtain ⟨hlater, hsame⟩ : later.Coherent requests ∧
      later.notifications = [(request, body)] := by
    have hpreserved : ∀ current action next,
        current.Coherent requests ∧
            current.notifications = [(request, body)] →
          (ingestMachine requests).step current action = some next →
          next.Coherent requests ∧ next.notifications = [(request, body)] := by
      rintro current action next ⟨hcurrent, hnotifications⟩ hstep
      refine ⟨hcurrent.step hstep, ?_⟩
      rcases hcurrent.step_notifications hstep with hkept | ⟨hnil, -⟩
      · rw [hkept, hnotifications]
      · rw [hnotifications] at hnil
        contradiction
    exact Machine.run_preserves hpreserved ⟨hcoherent, hone⟩ hrun
  refine ⟨hsame, fun other howns => ?_⟩
  have hnamed := hlater.owner_named other howns
  by_contra hne
  have hbefore : (later.phase other).persisted = false := by
    cases hphase : later.phase other with
    | committed stored =>
        have hother := hlater.committed_persisted other stored hphase
        simp [hsame, Ne.symm hne] at hother
    | created stored =>
        obtain ⟨_, hother, _⟩ := hlater.created_persisted other stored hphase
        simp [hsame, Ne.symm hne] at hother
    | _ => rfl
  have hnil := hlater.notifications_eq_nil hnamed hbefore
  rw [hsame] at hnil
  contradiction

end IngestState

/-! ## The purpose of the key -/

/-- What the id is for: at most one notification, written once. -/
def onceMachine (Request : Type*) :
    Machine (Option (Request × IngestBody)) (Request × IngestBody) where
  Initial persisted := persisted = none
  step persisted notification :=
    match persisted with
    | none => some (some notification)
    | some _ => none

/-- The concurrent requests refine the write-once notification. -/
theorem ingestMachine_refines_once (requests : KeyedRequests Request) :
    (ingestMachine requests).Refines (onceMachine Request)
      (fun state => state.notifications.head?) := by
  constructor
  · rintro state ⟨-, hnil, -⟩
    simp [onceMachine, hnil]
  · intro state action next hreach _ hstep
    have hcoherent := IngestState.Coherent.of_reachable hreach
    rcases hcoherent.step_notifications hstep with
      hsame | ⟨hnil, request, body, hone⟩
    · exact Or.inl (by rw [hsame])
    · exact Or.inr ⟨(request, body), by simp [onceMachine, hnil, hone]⟩

/-- Idempotent ingestion, over every interleaving of any number of requests
of one id. -/
theorem idempotent_ingestion
    (requests : KeyedRequests Request) {state : IngestState Request}
    (hreach : (ingestMachine requests).Reachable state) :
    (∀ first second,
      state.Owns first → state.Owns second → first = second) ∧
    (∀ request, state.Owns request → state.KeyNames requests request) ∧
    state.notifications.length ≤ 1 ∧
    (∀ request body actions later,
      (request, body) ∈ state.notifications →
      (ingestMachine requests).run state actions = some later →
        later.notifications = [(request, body)] ∧
          ∀ other, later.Owns other → other = request) ∧
    (∀ request body, state.phase request = .replayed body →
      ∃ owner stored, state.notifications = [(owner, stored)] ∧
        body = stored.record) ∧
    (∀ request body, ¬ state.KeyNames requests request →
      release state.key (some requests.requestId)
          (some (requests.token request)) = state.key ∧
        storeResponse state.key (some requests.requestId)
          (some (requests.token request)) body = state.key) := by
  have hcoherent := IngestState.Coherent.of_reachable hreach
  refine ⟨?_, hcoherent.owner_named, ?_, ?_, hcoherent.replayed_persisted, ?_⟩
  · intro first second hfirst hsecond
    exact (hcoherent.owner_named first hfirst).unique
      (hcoherent.owner_named second hsecond)
  · rcases hcoherent.single with hnil | ⟨_, _, hone, -, -⟩
    · simp [hnil]
    · simp [hone]
  · intro request body actions later hmem hrun
    have hone : state.notifications = [(request, body)] := by
      rcases hcoherent.single with hnil | ⟨owner, stored, hone, -, -⟩
      · simp [hnil] at hmem
      · rw [hone] at hmem ⊢
        rw [List.mem_singleton.mp hmem]
    exact hcoherent.run_persisted hone hrun
  · intro request body hnot
    exact ⟨release_eq_self hnot, storeResponse_eq_self hnot body⟩

/-! ## A late release after a takeover -/

theorem sampleKey_ne_nil : "cron-42".toList ≠ [] := by decide

theorem sampleId_plain : "6f0b".toList.all plainChar = true := by decide

def threeRequests : KeyedRequests (Fin 3) where
  token request := Nat.toDigits 10 request.val
  token_injective := by
    intro first second heq
    revert first second
    decide
  requestId := "cron-42".toList
  requestId_nonempty := sampleKey_ne_nil

def sampleBody : IngestBody where
  id := plainText "6f0b".toList sampleId_plain
  severity := .error
  severitySource := .rule
  forwardedTo := 2
  storageBackend := .inline

/-- Request 0 fails and request 1 takes over; the release of request 0 then
arrives a second time, and request 2 is answered with the stored body. -/
def takeOverRun : List (IngestAction (Fin 3)) :=
  [.setNx 0 true true, .setNx 1 true true, .setNx 2 true true,
    .failBeforeCommit 0, .release 0 true, .get 1 true, .takeOver 1 true true,
    .resendRelease 0, .commit 1 sampleBody, .resendRelease 0,
    .store 1 true, .get 2 true]

def idleRequests : IngestState (Fin 3) where
  key := none
  notifications := []
  phase := fun _ => .arrived

theorem idempotent_ingestion_takeOver :
    ∃ state, (ingestMachine threeRequests).run idleRequests takeOverRun =
        some state ∧
      state.notifications.length ≤ 1 ∧
      ∃ owner stored, state.notifications = [(owner, stored)] ∧
        sampleBody.record = stored.record := by
  have hstart : (ingestMachine threeRequests).Reachable idleRequests :=
    .initial ⟨rfl, rfl, fun _ => rfl⟩
  obtain ⟨state, hrun, hreplayed⟩ :
      ∃ state, (ingestMachine threeRequests).run idleRequests takeOverRun =
          some state ∧ state.phase 2 = .replayed sampleBody.record :=
    ⟨_, rfl, by decide +kernel⟩
  have hall := idempotent_ingestion threeRequests (hstart.run hrun)
  exact ⟨state, hrun, hall.2.2.1, hall.2.2.2.2.1 2 _ hreplayed⟩

end NotifyHub
