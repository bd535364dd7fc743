import NotifyHub.DomainTypes
import NotifyHub.GuardedStore
import NotifyHub.RelationalTables
import NotifyHub.RowTransactions
import NotifyHub.TransitionMachine
import Mathlib.Tactic

/-!
# The body limits of a tenant and of its receivers

Creating a receiver, changing its `max_body_bytes` and changing the one of the
tenant all start with `lock_tenant_settings`, and compare only what they read
after it.  A PATCH of a receiver which leaves `max_body_bytes` alone takes no
lock of the tenant; its UPDATE waits for the row of the receiver.
-/

namespace NotifyHub

/-- The committed `max_body_bytes` of the tenant and of its receivers. -/
structure LimitStore (Key : Type) where
  tenant : ℤ
  receivers : Table Key ℤ

/-- The request, with the `max_body_bytes` of its body if there is one. -/
inductive LimitRequest (Key : Type)
  | createReceiver (key : Key) (maxBodyBytes : Option ℤ)
  | updateReceiver (key : Key) (maxBodyBytes : Option ℤ)
  | updateTenant (maxBodyBytes : Option ℤ)
  deriving DecidableEq

/-- What a request is about to store; an UPDATE of a receiver carries the value
which it has loaded. -/
inductive LimitWrite (Key : Type)
  | insert (key : Key) (value : ℤ)
  | update (key : Key) (loaded value : ℤ)
  | tenant (value : ℤ)
  deriving DecidableEq

inductive LimitAnswer (Key : Type)
  | succeeded
  | refused (problem : Problem)
  | conflicting (problem : Problem) (receivers : Finset Key)
  | failed
  deriving DecidableEq

/-- `locked` has read the limit of the tenant behind its lock; `checking` is a
PATCH of the tenant which is about to look for receivers above the new limit;
`editing` and `edited` are a PATCH of a receiver without `max_body_bytes`. -/
inductive LimitPhase (Key : Type)
  | idle
  | awaiting (request : LimitRequest Key) (loaded : Option ℤ)
  | locked (request : LimitRequest Key) (loaded : Option ℤ) (tenant : ℤ)
  | checking (limit : ℤ)
  | ready (write : LimitWrite Key)
  | written (write : LimitWrite Key)
  | editing (key : Key)
  | edited
  | answered (answer : LimitAnswer Key)
  deriving DecidableEq

/-- `others` tells whether the request changes other columns too. -/
inductive LimitAction (Process : Type*) (Key : Type)
  | start
      (process : Process) (request : LimitRequest Key)
      (denied : Option Problem)
  | lock (process : Process)
  | compare (process : Process)
  | check (process : Process)
  | flush (process : Process) (others : Bool)
  | commit (process : Process)
  | abort (process : Process) (refusal : Option Problem)

def LimitAction.process {Process : Type*} {Key : Type} :
    LimitAction Process Key → Process
  | .start process .. | .lock process | .compare process | .check process
  | .flush process _ | .commit process | .abort process _ => process

structure LimitState (Process : Type*) (Key : Type) where
  core : GuardedState Process (LimitStore Key) (LimitPhase Key)
  rowHolder : Key → Option Process

variable {Process : Type*} {Key : Type}

def exceedsTenantCap (limit : ℤ) : Problem :=
  conflict
    ("max_body_bytes exceeds tenant cap of " ++ toString limit ++
      " bytes.").toList

def receiversAboveLimit : Problem :=
  conflict
    "Some receivers have a higher max_body_bytes than requested.".toList

/-- `_validate_max_body_bytes`, with the limit of the tenant which it has read
behind the lock. -/
def validateMaxBodyBytes (tenant : ℤ) (requested : Option ℤ) :
    Except Problem ℤ :=
  match requested with
  | none => .ok tenant
  | some value =>
      if tenant < value then .error (exceedsTenantCap tenant) else .ok value

/-- The receivers which a lower limit of the tenant would leave out. -/
def LimitStore.conflicting (store : LimitStore Key) (limit : ℤ) : Finset Key :=
  store.receivers.select fun _ value => decide (limit < value)

/-- How a request goes on which has read the limit of the tenant. -/
def LimitRequest.compare (loaded : Option ℤ) (tenant : ℤ) :
    LimitRequest Key → Except Problem (LimitPhase Key)
  | .createReceiver key requested =>
      (validateMaxBodyBytes tenant requested).map fun value =>
        .ready (.insert key value)
  | .updateReceiver key requested =>
      (validateMaxBodyBytes tenant requested).map fun value =>
        .ready (.update key (loaded.getD value) value)
  | .updateTenant requested =>
      match requested with
      | none => .ok (.ready (.tenant tenant))
      | some value =>
          if value < tenant then .ok (.checking value)
          else .ok (.ready (.tenant value))

variable [DecidableEq Key]

def LimitStore.apply (store : LimitStore Key) :
    LimitWrite Key → LimitStore Key
  | .insert key value =>
      { store with
        receivers :=
          ⟨insert key store.receivers.ids,
            Function.update store.receivers.row key value⟩ }
  | .update key loaded value =>
      { store with
        receivers :=
          ⟨store.receivers.ids,
            Function.update store.receivers.row key
              (writeBack loaded value (store.receivers.row key))⟩ }
  | .tenant value => { store with tenant := value }

variable [DecidableEq Process]

namespace LimitState

def goto
    (state : LimitState Process Key) (process : Process)
    (phase : LimitPhase Key) : LimitState Process Key :=
  { state with core := state.core.goto process phase }

def lockRow
    (state : LimitState Process Key) (process : Process) (key : Key)
    (phase : LimitPhase Key) : LimitState Process Key where
  core := state.core.goto process phase
  rowHolder := Function.update state.rowHolder key (some process)

/-- The end of a transaction. -/
def finish
    (state : LimitState Process Key) (process : Process)
    (answer : LimitAnswer Key) : LimitState Process Key where
  core := state.core.release process (.answered answer)
  rowHolder key :=
    if state.rowHolder key = some process then none else state.rowHolder key

def commit
    (state : LimitState Process Key) (process : Process)
    (write : LimitWrite Key) : LimitState Process Key :=
  { state.finish process .succeeded with
    core := state.core.commit process (.answered .succeeded)
      (state.core.store.apply write) }

/-- The UPDATE of a receiver, once no other transaction holds its row; a
receiver which is gone ends the request. -/
def sendUpdate
    (state : LimitState Process Key) (process : Process) (key : Key)
    (phase : LimitPhase Key) : Option (LimitState Process Key) :=
  if state.rowHolder key ≠ none then none
  else if key ∈ state.core.store.receivers.ids then
    some (state.lockRow process key phase)
  else some (state.finish process .failed)

def step (state : LimitState Process Key) :
    LimitAction Process Key → Option (LimitState Process Key)
  | .start process request denied =>
      match state.core.phase process with
      | .idle =>
          match denied with
          | some problem =>
              some (state.goto process (.answered (.refused problem)))
          | none =>
              match request with
              | .updateReceiver key requested =>
                  if key ∈ state.core.store.receivers.ids then
                    some (state.goto process
                      (if requested.isSome then
                        .awaiting request
                          (some (state.core.store.receivers.row key))
                      else .editing key))
                  else
                    some (state.goto process (.answered
                      (.refused (notFound "Receiver not found.".toList))))
              | _ => some (state.goto process (.awaiting request none))
      | _ => none
  | .lock process =>
      match state.core.phase process with
      | .awaiting request loaded =>
          if state.core.holder = none then
            some { state with
              core := state.core.take process
                (.locked request loaded state.core.store.tenant) }
          else none
      | _ => none
  | .compare process =>
      match state.core.phase process with
      | .locked request loaded tenant =>
          match request.compare loaded tenant with
          | .ok phase => some (state.goto process phase)
          | .error problem => some (state.finish process (.refused problem))
      | _ => none
  | .check process =>
      match state.core.phase process with
      | .checking limit =>
          let conflicting := state.core.store.conflicting limit
          if conflicting = ∅ then
            some (state.goto process (.ready (.tenant limit)))
          else
            some (state.finish process
              (.conflicting receiversAboveLimit conflicting))
      | _ => none
  | .flush process others =>
      match state.core.phase process with
      | .ready (.insert key value) =>
          if key ∈ state.core.store.receivers.ids then
            some (state.finish process (.refused integrityConflict))
          else some (state.goto process (.written (.insert key value)))
      | .ready (.update key loaded value) =>
          if value = loaded ∧ others = false then
            some (state.goto process (.written (.update key loaded value)))
          else state.sendUpdate process key (.written (.update key loaded value))
      | .ready (.tenant value) =>
          some (state.goto process (.written (.tenant value)))
      | .editing key =>
          if others then state.sendUpdate process key .edited
          else some (state.goto process .edited)
      | _ => none
  | .commit process =>
      match state.core.phase process with
      | .written write => some (state.commit process write)
      | .edited => some (state.finish process .succeeded)
      | _ => none
  | .abort process refusal =>
      match state.core.phase process with
      | .idle | .answered _ => none
      | _ =>
          some (state.finish process
            (match refusal with
              | some problem => .refused problem
              | none => .failed))

end LimitState

/-- Any number of requests, on limits which nest at the start. -/
def limitMachine
    (Process : Type*) (Key : Type) [DecidableEq Process] [DecidableEq Key] :
    Machine (LimitState Process Key) (LimitAction Process Key) where
  Initial state :=
    (∀ key ∈ state.core.store.receivers.ids,
      state.core.store.receivers.row key ≤ state.core.store.tenant) ∧
    state.core.holder = none ∧ (∀ key, state.rowHolder key = none) ∧
    ∀ process, state.core.phase process = .idle
  step := LimitState.step

/-! ## The limits nest -/

section Store

omit [DecidableEq Process] [DecidableEq Key]

/-- No receiver is above the limit of its tenant. -/
def LimitStore.Nested (store : LimitStore Key) : Prop :=
  ∀ key ∈ store.receivers.ids, store.receivers.row key ≤ store.tenant

/-- What the checks have established for a write. -/
def LimitWrite.Within (store : LimitStore Key) : LimitWrite Key → Prop
  | .insert _ value | .update _ _ value => value ≤ store.tenant
  | .tenant value =>
      ∀ key ∈ store.receivers.ids, store.receivers.row key ≤ value

def limitGuard (Key : Type) : Guard (LimitStore Key) (LimitPhase Key) where
  locked
    | .locked .. | .checking _ | .ready _ | .written _ => true
    | _ => false
  Relies store
    | .locked _ _ tenant => tenant = store.tenant
    | .ready write | .written write => write.Within store
    | _ => True

theorem validateMaxBodyBytes_le
    {tenant value : ℤ} {requested : Option ℤ}
    (hvalid : validateMaxBodyBytes tenant requested = .ok value) :
    value ≤ tenant := by
  unfold validateMaxBodyBytes at hvalid
  split at hvalid
  · exact (Except.ok.inj hvalid).ge
  · split at hvalid
    · contradiction
    next hle =>
      rw [← Except.ok.inj hvalid]
      exact not_lt.mp hle

theorem LimitStore.conflicting_eq_empty
    {store : LimitStore Key} {limit : ℤ} :
    store.conflicting limit = ∅ ↔
      ∀ key ∈ store.receivers.ids, store.receivers.row key ≤ limit := by
  simp [conflicting, Table.select, Finset.filter_eq_empty_iff]

theorem LimitRequest.compare_relies
    {store : LimitStore Key} {request : LimitRequest Key}
    {loaded : Option ℤ} {phase : LimitPhase Key} (hnested : store.Nested)
    (hcompare : request.compare loaded store.tenant = .ok phase) :
    (limitGuard Key).Relies store phase := by
  cases request with
  | createReceiver key requested =>
      obtain ⟨value, hvalid, rfl⟩ := Except.map_eq_ok.mp hcompare
      exact validateMaxBodyBytes_le hvalid
  | updateReceiver key requested =>
      obtain ⟨value, hvalid, rfl⟩ := Except.map_eq_ok.mp hcompare
      exact validateMaxBodyBytes_le hvalid
  | updateTenant requested =>
      simp only [compare] at hcompare
      split at hcompare
      · rw [← Except.ok.inj hcompare]
        exact hnested
      next value =>
        split at hcompare
        · rw [← Except.ok.inj hcompare]
          trivial
        next hle =>
          rw [← Except.ok.inj hcompare]
          exact fun key hkey => (hnested key hkey).trans (not_lt.mp hle)

end Store

omit [DecidableEq Process] in
theorem LimitStore.Nested.apply
    {store : LimitStore Key} (hnested : store.Nested)
    {write : LimitWrite Key} (hwithin : write.Within store) :
    (store.apply write).Nested := by
  cases write with
  | insert key value =>
      have hvalue : value ≤ store.tenant := hwithin
      intro other hother
      by_cases heq : other = key
      · subst heq
        simpa [LimitStore.apply] using hvalue
      · simp only [LimitStore.apply, Function.update_of_ne heq]
        exact hnested other (Finset.mem_of_mem_insert_of_ne hother heq)
  | update key loaded value =>
      have hvalue : value ≤ store.tenant := hwithin
      intro other hother
      by_cases heq : other = key
      · subst heq
        simp only [LimitStore.apply, Function.update_self, writeBack]
        split
        · exact hnested other hother
        · exact hvalue
      · simp only [LimitStore.apply, Function.update_of_ne heq]
        exact hnested other hother
  | tenant value => exact hwithin

namespace LimitState

variable {state next : LimitState Process Key} {process : Process}

/-- Whoever is under the lock has compared with the limit as it is, and the
limits nest. -/
structure Bounded (state : LimitState Process Key) : Prop where
  nested : state.core.store.Nested
  sound : state.core.Sound (limitGuard Key)

omit [DecidableEq Key] [DecidableEq Process] in
theorem Bounded.underLock
    (hbounded : state.Bounded) {phase : LimitPhase Key}
    (hphase : state.core.phase process = phase)
    (hlocked : (limitGuard Key).locked phase = true) :
    state.core.holder = some process ∧
      (limitGuard Key).Relies state.core.store phase := by
  subst hphase
  exact hbounded.sound process hlocked

omit [DecidableEq Key] in
theorem Bounded.goto
    (hbounded : state.Bounded) {phase : LimitPhase Key}
    (hphase : (limitGuard Key).locked phase = true →
      state.core.holder = some process ∧
        (limitGuard Key).Relies state.core.store phase) :
    (state.goto process phase).Bounded where
  nested := hbounded.nested
  sound :=
    have hmoves : GuardedState.Moves (limitGuard Key) state.core process
        (state.core.goto process phase) := .goto phase hphase
    hmoves.sound hbounded.sound

omit [DecidableEq Key] in
theorem Bounded.finish
    (hbounded : state.Bounded) (answer : LimitAnswer Key) :
    (state.finish process answer).Bounded where
  nested := hbounded.nested
  sound :=
    have hmoves : GuardedState.Moves (limitGuard Key) state.core process
        (state.core.release process (.answered answer)) := .release _ rfl
    hmoves.sound hbounded.sound

theorem Bounded.sendUpdate
    (hbounded : state.Bounded) {key : Key} {phase : LimitPhase Key}
    (hphase : (limitGuard Key).locked phase = true →
      state.core.holder = some process ∧
        (limitGuard Key).Relies state.core.store phase)
    (hsend : state.sendUpdate process key phase = some next) :
    next.Bounded := by
  unfold LimitState.sendUpdate at hsend
  split at hsend
  · contradiction
  · split at hsend
    · obtain rfl := Option.some.inj hsend
      exact ⟨hbounded.nested, (hbounded.goto hphase).sound⟩
    · exact Option.some.inj hsend ▸ hbounded.finish .failed

theorem Bounded.commit
    (hbounded : state.Bounded) {write : LimitWrite Key}
    (hphase : state.core.phase process = .written write) :
    (state.commit process write).Bounded where
  nested := hbounded.nested.apply (hbounded.underLock hphase rfl).2
  sound :=
    have hmoves : GuardedState.Moves (limitGuard Key) state.core process
        (state.core.commit process (.answered .succeeded)
          (state.core.store.apply write)) :=
      .commit _ _ (by rw [hphase]; rfl) rfl
    hmoves.sound hbounded.sound

theorem Bounded.step
    {action : LimitAction Process Key} (hbounded : state.Bounded)
    (hstep : state.step action = some next) : next.Bounded := by
  cases action with
  | start process request denied =>
      simp only [LimitState.step] at hstep
      split at hstep
      · split at hstep
        · exact Option.some.inj hstep ▸ hbounded.goto nofun
        · split at hstep
          · split at hstep
            · obtain rfl := Option.some.inj hstep
              apply hbounded.goto
              split <;> exact nofun
            · exact Option.some.inj hstep ▸ hbounded.goto nofun
          · exact Option.some.inj hstep ▸ hbounded.goto nofun
      · contradiction
  | lock process =>
      simp only [LimitState.step] at hstep
      split at hstep
      next request loaded hphase =>
        split at hstep
        next hfree =>
          obtain rfl := Option.some.inj hstep
          have hmoves : GuardedState.Moves (limitGuard Key) state.core process
              (state.core.take process
                (.locked request loaded state.core.store.tenant)) :=
            .take _ hfree rfl
          exact ⟨hbounded.nested, hmoves.sound hbounded.sound⟩
        · contradiction
      · contradiction
  | compare process =>
      simp only [LimitState.step] at hstep
      split at hstep
      next request loaded tenant hphase =>
        obtain ⟨hheld, htenant⟩ := hbounded.underLock hphase rfl
        obtain rfl : tenant = state.core.store.tenant := htenant
        split at hstep
        next phase hcompare =>
          obtain rfl := Option.some.inj hstep
          exact hbounded.goto fun _ => ⟨hheld,
            LimitRequest.compare_relies hbounded.nested hcompare⟩
        · exact Option.some.inj hstep ▸ hbounded.finish _
      · contradiction
  | check process =>
      simp only [LimitState.step] at hstep
      split at hstep
      next limit hphase =>
        obtain ⟨hheld, -⟩ := hbounded.underLock hphase rfl
        split at hstep
        next hempty =>
          obtain rfl := Option.some.inj hstep
          exact hbounded.goto fun _ =>
            ⟨hheld, LimitStore.conflicting_eq_empty.mp hempty⟩
        · exact Option.some.inj hstep ▸ hbounded.finish _
      · contradiction
  | flush process others =>
      simp only [LimitState.step] at hstep
      split at hstep
      next key value hphase =>
        have hready := hbounded.underLock hphase rfl
        split at hstep
        · exact Option.some.inj hstep ▸ hbounded.finish _
        · exact Option.some.inj hstep ▸ hbounded.goto fun _ => hready
      next key loaded value hphase =>
        have hready := hbounded.underLock hphase rfl
        split at hstep
        · exact Option.some.inj hstep ▸ hbounded.goto fun _ => hready
        · refine hbounded.sendUpdate ?_ hstep
          exact fun _ => hready
      next value hphase =>
        have hready := hbounded.underLock hphase rfl
        exact Option.some.inj hstep ▸ hbounded.goto fun _ => hready
      · split at hstep
        · refine hbounded.sendUpdate ?_ hstep
          exact nofun
        · exact Option.some.inj hstep ▸ hbounded.goto nofun
      · contradiction
  | commit process =>
      simp only [LimitState.step] at hstep
      split at hstep
      next write hphase =>
        exact Option.some.inj hstep ▸ hbounded.commit hphase
      · exact Option.some.inj hstep ▸ hbounded.finish _
      · contradiction
  | abort process refusal =>
      simp only [LimitState.step] at hstep
      split at hstep
      · contradiction
      · contradiction
      · exact Option.some.inj hstep ▸ hbounded.finish _

end LimitState

/-- In every committed state no receiver is above the limit of its tenant. -/
theorem bodyLimits_nest
    (state : LimitState Process Key)
    (hreach : (limitMachine Process Key).Reachable state)
    (key : Key) (hkey : key ∈ state.core.store.receivers.ids) :
    state.core.store.receivers.row key ≤ state.core.store.tenant := by
  have hbounded : state.Bounded := by
    refine hreach.invariant (fun start hinitial => ?_) ?_
    · obtain ⟨hnested, -, -, hidle⟩ := hinitial
      refine ⟨hnested, .of_initial fun process => ?_⟩
      rw [hidle process]
      rfl
    · exact fun _ _ _ hbounded hstep => hbounded.step hstep
  exact hbounded.nested key hkey

/-- A tenant with a limit of 100 and receiver 0 at 50. -/
def limitsAtRest : LimitState (Fin 2) ℕ where
  core := ⟨⟨100, ⟨{0}, fun _ => 50⟩⟩, none, fun _ => .idle⟩
  rowHolder _ := none

theorem limitsAtRest_initial :
    (limitMachine (Fin 2) ℕ).Initial limitsAtRest :=
  ⟨by decide, rfl, fun _ => rfl, fun _ => rfl⟩

/-- Request 0 raises receiver 0 to 90 while request 1 waits to lower the limit
to 80. -/
def raiseAndLower : List (LimitAction (Fin 2) ℕ) :=
  [.start 0 (.updateReceiver 0 (some 90)) none,
    .start 1 (.updateTenant (some 80)) none, .lock 0, .compare 0,
    .flush 0 false, .commit 0, .lock 1, .compare 1, .check 1]

theorem bodyLimits_nest_raiseAndLower :
    ∃ state : LimitState (Fin 2) ℕ,
      (limitMachine (Fin 2) ℕ).run limitsAtRest raiseAndLower = some state ∧
      state.core.phase 1 =
        .answered (.conflicting receiversAboveLimit {0}) ∧
      state.core.store.receivers.row 0 ≤ state.core.store.tenant := by
  obtain ⟨state, hrun, hrefused, hmem⟩ : ∃ state : LimitState (Fin 2) ℕ,
      (limitMachine (Fin 2) ℕ).run limitsAtRest raiseAndLower = some state ∧
      state.core.phase 1 =
        .answered (.conflicting receiversAboveLimit {0}) ∧
      0 ∈ state.core.store.receivers.ids :=
    ⟨_, rfl, by decide +kernel, by decide +kernel⟩
  have hreach : (limitMachine (Fin 2) ℕ).Reachable state :=
    .run (.initial limitsAtRest_initial) hrun
  exact ⟨state, hrun, hrefused, bodyLimits_nest state hreach 0 hmem⟩

end NotifyHub
