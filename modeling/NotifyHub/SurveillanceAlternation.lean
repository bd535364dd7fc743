import NotifyHub.SurveillanceRecovery
import Mathlib.Tactic

/-!
# Alternation of alerts

Between two MISSING notifications of a receiver there is a RECOVERED
notification or a PATCH which re-arms the surveillance.  The one way around
it is a PATCH which has read a receiver with the surveillance off and an
alert left over, and clears that alert after another PATCH has switched the
surveillance on again.
-/

namespace NotifyHub

def ReceiverEvent.isRecovered : ReceiverEvent → Bool
  | .recovered _ => true
  | .missing _ _ | .ingested _ _ | .patched _ _ _ => false

/-- From the first row to the second the surveillance is switched on, or the
receiver is re-activated. -/
def Receiver.switchedOn (earlier later : Receiver) : Bool :=
  (!earlier.isWatched && later.isWatched) ||
    (earlier.status == .disabled && later.status == .active)

/-- A PATCH which switches the surveillance on or re-activates the receiver,
in the row which it has loaded or in the stored one. -/
def ReceiverEvent.rearms (library : ScheduleLibrary) : ReceiverEvent → Bool
  | .patched patch before after =>
      before.switchedOn after ||
        match patch.final library with
        | .ok final => patch.loaded.switchedOn final
        | .error _ => false
  | .missing _ _ | .recovered _ | .ingested _ _ => false

/-- A MISSING notification to which neither a RECOVERED one nor a re-arming
PATCH has answered; the newest event comes first. -/
def outstanding (library : ScheduleLibrary) : List ReceiverEvent → Bool
  | [] => false
  | .missing _ _ :: _ => true
  | event :: earlier =>
      !(event.isRecovered || event.rearms library) &&
        outstanding library earlier

def alternates (library : ScheduleLibrary) : List ReceiverEvent → Bool
  | [] => true
  | .missing _ _ :: earlier =>
      !outstanding library earlier && alternates library earlier
  | _ :: earlier => alternates library earlier

/-- Between any two MISSING notifications there is an answer. -/
def Alternates
    (library : ScheduleLibrary) (log : List ReceiverEvent) : Prop :=
  ∀ newer between older severity now severity' now',
    log = newer ++ .missing severity now ::
      (between ++ .missing severity' now' :: older) →
    ∃ event ∈ between, event.isRecovered = true ∨ event.rearms library = true

section Lists

variable {library : ScheduleLibrary}

theorem outstanding_append_missing
    {between older : List ReceiverEvent} {severity : Severity} {now : Instant}
    (hbetween : ∀ event ∈ between,
      event.isRecovered = false ∧ event.rearms library = false) :
    outstanding library (between ++ .missing severity now :: older) =
      true := by
  induction between with
  | nil => rfl
  | cons event rest ih =>
      have hevent := hbetween event List.mem_cons_self
      have hrest := ih fun other hmem =>
        hbetween other (List.mem_cons_of_mem _ hmem)
      cases event with
      | missing severity now => rfl
      | _ => simpa [outstanding, hevent.1, hevent.2] using hrest

theorem outstanding_split
    {log : List ReceiverEvent} (hlog : outstanding library log = true) :
    ∃ between severity now older,
      log = between ++ .missing severity now :: older ∧
        ∀ event ∈ between,
          event.isRecovered = false ∧ event.rearms library = false := by
  induction log with
  | nil => contradiction
  | cons event earlier ih =>
      by_cases hmissing : ∃ severity now, event = .missing severity now
      · obtain ⟨severity, now, rfl⟩ := hmissing
        exact ⟨[], severity, now, earlier, rfl, by simp⟩
      · have hcons : (event.isRecovered = false ∧
            event.rearms library = false) ∧
              outstanding library earlier = true := by
          cases event with
          | missing severity now => exact absurd ⟨_, _, rfl⟩ hmissing
          | _ => simpa [outstanding] using hlog
        obtain ⟨between, severity, now, older, rfl, hbetween⟩ := ih hcons.2
        refine ⟨event :: between, severity, now, older, rfl,
          fun other hmem => ?_⟩
        rcases List.mem_cons.mp hmem with rfl | hmem
        · exact hcons.1
        · exact hbetween other hmem

theorem Alternates.tail
    {event : ReceiverEvent} {earlier : List ReceiverEvent}
    (hlog : Alternates library (event :: earlier)) :
    Alternates library earlier := by
  intro newer between older severity now severity' now' hsplit
  exact hlog (event :: newer) between older severity now severity' now'
    (by rw [hsplit]; rfl)

theorem alternates_cons_missing
    {severity : Severity} {now : Instant} {earlier : List ReceiverEvent} :
    Alternates library (.missing severity now :: earlier) ↔
      outstanding library earlier = false ∧ Alternates library earlier := by
  constructor
  · intro hlog
    refine ⟨?_, hlog.tail⟩
    by_contra hopen
    obtain ⟨between, severity', now', older, rfl, hbetween⟩ :=
      outstanding_split (Bool.eq_true_of_not_eq_false hopen)
    obtain ⟨answer, hmem, hanswer⟩ :=
      hlog [] between older severity now severity' now' rfl
    obtain ⟨hunrecovered, hunarmed⟩ := hbetween answer hmem
    rcases hanswer with hanswer | hanswer
    · rw [hunrecovered] at hanswer
      contradiction
    · rw [hunarmed] at hanswer
      contradiction
  · rintro ⟨hclosed, hearlier⟩ newer between older severity' now' severity''
      now'' hsplit
    cases newer with
    | nil =>
        obtain ⟨-, rfl⟩ := List.cons.inj hsplit
        by_contra hunanswered
        push Not at hunanswered
        have hopen := @outstanding_append_missing library between older
          severity'' now'' (by simpa using hunanswered)
        rw [hopen] at hclosed
        contradiction
    | cons first rest =>
        obtain ⟨-, hrest⟩ := List.cons.inj hsplit
        exact hearlier rest between older severity' now' severity'' now''
          hrest

theorem alternates_cons_other
    {event : ReceiverEvent} {earlier : List ReceiverEvent}
    (hevent : ∀ severity now, event ≠ .missing severity now) :
    Alternates library (event :: earlier) ↔ Alternates library earlier := by
  refine ⟨Alternates.tail, fun hearlier => ?_⟩
  intro newer between older severity now severity' now' hsplit
  cases newer with
  | nil => exact absurd (List.cons.inj hsplit).1 (hevent _ _)
  | cons first rest =>
      obtain ⟨-, hrest⟩ := List.cons.inj hsplit
      exact hearlier rest between older severity now severity' now' hrest

/-- The check on a list decides the alternation. -/
theorem alternates_iff {log : List ReceiverEvent} :
    alternates library log = true ↔ Alternates library log := by
  induction log with
  | nil =>
      refine iff_of_true rfl fun newer between older _ _ _ _ hsplit => ?_
      simp at hsplit
  | cons event earlier ih =>
      cases event with
      | missing severity now =>
          rw [alternates_cons_missing, ← ih]
          simp [alternates]
      | _ =>
          rw [alternates_cons_other (by simp), ← ih]
          rfl

end Lists

/-! ## Runs without stale clearing -/

/-- A PATCH which sends a field of the policy, has loaded a receiver with the
surveillance off and an alert left over, and keeps it off, while the stored row
has the surveillance on and an alert of its own. -/
def ReceiverPatch.clearsStale
    (library : ScheduleLibrary) (patch : ReceiverPatch) (before : Receiver) :
    Bool :=
  patch.body.touchesExpected && !patch.loaded.isWatched &&
    patch.loaded.missingAlertedAt.isSome && before.isWatched &&
    before.missingAlertedAt.isSome &&
    match patch.final library with
    | .ok final => !final.isWatched
    | .error _ => false

def ReceiverEvent.clearsStale (library : ScheduleLibrary) :
    ReceiverEvent → Bool
  | .patched patch before _ => patch.clearsStale library before
  | .missing _ _ | .recovered _ | .ingested _ _ => false

variable {Process : Type*} [DecidableEq Process]

/-- No such PATCH commits. -/
def NoStaleClearing
    (library : ScheduleLibrary) (state : SurveillanceState Process)
    (action : SurveillanceAction Process) : Prop :=
  match action.move, state.receiver.phase action.process with
  | .commit, .writing (some (_, event)) => event.clearsStale library = false
  | _, _ => True

instance
    (library : ScheduleLibrary) (state : SurveillanceState Process)
    (action : SurveillanceAction Process) :
    Decidable (NoStaleClearing library state action) := by
  unfold NoStaleClearing
  split
  · exact inferInstanceAs (Decidable (_ = _))
  · exact .isTrue trivial

namespace Receiver

variable {library : ScheduleLibrary} {receiver next : Receiver}

/-- A PATCH which neither re-arms nor clears a stale alert leaves an alert
which is still open in the row. -/
theorem patched_keeps_alert
    {patch : ReceiverPatch} {before after : Receiver}
    (heffect : receiverEffect library receiver (.patched patch before after) =
      some next)
    (hunarmed : (ReceiverEvent.patched patch before after).rearms library =
      false)
    (hclean : patch.clearsStale library before = false)
    (hopen : receiver.missingAlertedAt ≠ none ∨ receiver.isWatched = false) :
    next.missingAlertedAt ≠ none ∨ next.isWatched = false := by
  obtain ⟨final, hfinal, rfl, hafter, -, rfl⟩ := patched_effect heffect
  simp only [ReceiverEvent.rearms, hfinal, Bool.or_eq_false_iff,
    switchedOn] at hunarmed
  obtain ⟨hstored, hrequested⟩ := hunarmed
  by_cases hon : next.isWatched = true
  · left
    -- the stored row was watched before, and the alert was in it
    have hwatched : before.isWatched = true := by
      simpa [hon] using hstored.1
    have halert : before.missingAlertedAt ≠ none := by
      simpa [hwatched] using hopen
    have hkept : final.missingAlertedAt = patch.loaded.missingAlertedAt := by
      by_contra hchanged
      rcases updateReceiver_missingAlertedAt hfinal with
        hsame | ⟨hnone, ⟨htouches, hoff⟩ | ⟨hloaded, hfinalOn⟩ | ⟨hdisabled, hactive⟩⟩
      · exact hchanged hsame
      · -- switched off: the loaded row was off as well, or the UPDATE
        -- would have switched the stored row off
        have hloadedOff : patch.loaded.isWatched = false := by
          by_contra hloadedOn
          have hsevered : final.expected.missingSeverity ≠
              patch.loaded.expected.missingSeverity := by
            intro hsame
            rw [isWatched, ← hsame] at hloadedOn
            exact hloadedOn hoff
          have hnextOff : next.isWatched = final.isWatched := by
            rw [hafter]
            exact congrArg Option.isSome (writeBack_of_ne hsevered _)
          rw [hnextOff, hoff] at hon
          contradiction
        have hleft : patch.loaded.missingAlertedAt.isSome = true := by
          rw [Option.isSome_iff_ne_none]
          intro hloadedNone
          exact hchanged (hnone.trans hloadedNone.symm)
        have hstoredAlert := Option.isSome_iff_ne_none.mpr halert
        simp [ReceiverPatch.clearsStale, htouches, hloadedOff, hleft, hwatched,
          hstoredAlert, hfinal, hoff] at hclean
      · simp [hloaded, hfinalOn] at hrequested
      · simp [hdisabled, hactive] at hrequested
    rw [hafter]
    show NotifyHub.writeBack _ _ _ ≠ none
    rw [writeBack_of_eq hkept]
    exact halert
  · exact Or.inr (Bool.eq_false_iff.mpr hon)

/-- An alert which is still open is in the row, or the surveillance is off;
and so far the alerts alternate. -/
structure Alternating
    (library : ScheduleLibrary) (receiver : Receiver)
    (log : List ReceiverEvent) : Prop where
  kept : outstanding library log = true →
    receiver.missingAlertedAt ≠ none ∨ receiver.isWatched = false
  alternates : Alternates library log

theorem Alternating.effect
    {log : List ReceiverEvent} {event : ReceiverEvent}
    (hlog : receiver.Alternating library log)
    (hclean : event.clearsStale library = false)
    (heffect : receiverEffect library receiver event = some next) :
    next.Alternating library (event :: log) := by
  cases event with
  | missing severity now =>
      obtain ⟨hverdict, rfl⟩ := missing_effect.mp heffect
      obtain ⟨harmed, schedule, -, -, hschedule, -⟩ :=
        verdict_eq_missing hverdict
      refine ⟨fun _ => Or.inl (Option.some_ne_none now),
        alternates_cons_missing.mpr ⟨?_, hlog.alternates⟩⟩
      by_contra hopen
      rcases hlog.kept (Bool.eq_true_of_not_eq_false hopen) with
        halerted | hoff
      · exact halerted harmed
      · rw [← scheduleFromReceiver_isSome, hschedule] at hoff
        contradiction
  | recovered now =>
      exact ⟨fun hopen => by simp [outstanding, ReceiverEvent.isRecovered]
        at hopen, (alternates_cons_other (by simp)).mpr hlog.alternates⟩
  | ingested phase receivedAt =>
      obtain rfl := Option.some.inj heffect
      obtain ⟨halerted, hexpected⟩ := @beat_frame receiver phase receivedAt
      refine ⟨fun hopen => ?_,
        (alternates_cons_other (by simp)).mpr hlog.alternates⟩
      rw [halerted, isWatched, hexpected]
      exact hlog.kept (by simpa [outstanding, ReceiverEvent.isRecovered,
        ReceiverEvent.rearms] using hopen)
  | patched patch before after =>
      refine ⟨fun hopen => ?_,
        (alternates_cons_other (by simp)).mpr hlog.alternates⟩
      simp only [outstanding, Bool.and_eq_true, Bool.not_eq_true',
        Bool.or_eq_false_iff] at hopen
      exact patched_keeps_alert heffect hopen.1.2 hclean
        (hlog.kept hopen.2)

theorem Alternating.of_created : receiver.Alternating library [] :=
  ⟨fun hopen => by contradiction, alternates_iff.mp rfl⟩

end Receiver

namespace SurveillanceState

variable {library : ScheduleLibrary} {state next : SurveillanceState Process}

/-- An event is added by the commit of the transaction which has prepared
it. -/
theorem commit_of_prepared
    {action : SurveillanceAction Process} {receiver : Receiver}
    {event : ReceiverEvent}
    (hstep : surveillanceStep library state action = some next)
    (hprepared : (receiverProtocol library).prepared
      (state.receiver.phase action.process) = some (receiver, event))
    (hlog : next.receiver.log = event :: state.receiver.log) :
    action.move = .commit ∧
      state.receiver.phase action.process =
        .writing (some (receiver, event)) := by
  have hphase : state.receiver.phase action.process =
      .writing (some (receiver, event)) := by
    cases hcurrent : state.receiver.phase action.process with
    | writing write =>
        rw [hcurrent] at hprepared
        exact congrArg _ hprepared
    | _ =>
        rw [hcurrent] at hprepared
        contradiction
  refine ⟨?_, hphase⟩
  cases hmove : action.move with
  | commit => rfl
  | abort =>
      simp only [surveillanceStep, hmove, hphase] at hstep
      obtain rfl := Option.some.inj hstep
      exact absurd hlog.symm (List.cons_ne_self _ _)
  | _ =>
      simp only [surveillanceStep, hmove, hphase] at hstep
      contradiction

theorem alternating
    (hreach : (surveillanceMachine library Process).ReachableWhere
      (NoStaleClearing library) state) :
    state.receiver.row.Alternating library state.receiver.log := by
  have hboth : (∃ first, state.receiver.Recorded (receiverProtocol library)
      first) ∧
      state.receiver.row.Alternating library state.receiver.log := by
    refine @Machine.ReachableWhere.invariant _ _ _ _
      (fun current : SurveillanceState Process =>
        (∃ first, current.receiver.Recorded (receiverProtocol library)
          first) ∧
        current.receiver.row.Alternating library current.receiver.log)
      ?_ ?_ _ hreach
    · intro start hinitial
      obtain ⟨first, -, -, -, hrecorded⟩ :=
        surveillance_recorded (Machine.ReachableWhere.initial hinitial :
          (surveillanceMachine library Process).Reachable start)
      obtain ⟨-, -, hlog, -⟩ := hinitial
      refine ⟨⟨first, hrecorded⟩, ?_⟩
      rw [hlog]
      exact .of_created
    · rintro current action next ⟨⟨first, hrecorded⟩, halternating⟩ hclean
        hstep
      have hmoves := surveillanceStep_moves hstep
      refine ⟨⟨first, hmoves.recorded hrecorded⟩, ?_⟩
      rcases hmoves.row_log hrecorded with
        ⟨hrow, hlog⟩ | ⟨event, hprepared, heffect, hlog⟩
      · rw [hrow, hlog]
        exact halternating
      · obtain ⟨hmove, hphase⟩ := commit_of_prepared hstep hprepared hlog
        rw [hlog]
        refine halternating.effect ?_ heffect
        simpa [NoStaleClearing, hmove, hphase] using hclean
  exact hboth.2

end SurveillanceState

/-- A RECOVERED notification answers the last synthetic notification, a
MISSING one, and a real notification received later than it. -/
def RecoveriesAnswer (log : List ReceiverEvent) : Prop :=
  ∀ newer now older, log = newer ++ .recovered now :: older →
    ∃ since severity alertedAt before,
      older = since ++ .missing severity alertedAt :: before ∧
      (∀ event ∈ since, event.isSynthetic = false) ∧
      ∃ event ∈ older, ∃ receivedAt, event.realAt = some receivedAt ∧
        alertedAt < receivedAt

theorem recoveriesAnswer_of_replay
    {library : ScheduleLibrary} {first receiver : Receiver}
    {body : ReceiverCreate} {created : Instant}
    (hcreate : createReceiver library body created = .ok first)
    {log : List ReceiverEvent}
    (hlog : (receiverProtocol library).replay first log = some receiver) :
    RecoveriesAnswer log := by
  rintro newer now older rfl
  obtain ⟨after, hafter⟩ := RowProtocol.replay_append hlog
  obtain ⟨before, hbefore, heffect⟩ := Option.bind_eq_some_iff.mp hafter
  obtain ⟨hheard, halerted⟩ : before.Heard older ∧ before.Alerted older :=
    @RowProtocol.replay_invariant _ _ _ _ _
      (fun row events => row.Heard events ∧ row.Alerted events)
      ⟨.of_created hcreate, .of_created hcreate⟩
      (fun _ _ _ _ hrow heffect =>
        ⟨hrow.1.effect heffect, hrow.2.effect heffect⟩) _ _ hbefore
  obtain ⟨alertedAt, lastAt, halert, hlast, hlater⟩ :=
    Receiver.hasRecovered_iff.mp (Receiver.hasRecovered_of_verdict
      (Receiver.recovered_effect.mp heffect).1)
  obtain ⟨since, severity, earlier, hsplit, hsince⟩ :=
    halerted alertedAt halert
  obtain ⟨event, hmem, hreal⟩ := hheard.real lastAt hlast
  exact ⟨since, severity, alertedAt, earlier, hsplit, hsince, event, hmem,
    lastAt, hreal, hlater⟩

/-- Only the commit of a real notification moves `last_notification_at`. -/
theorem SurveillanceState.lastNotificationAt_eq
    {library : ScheduleLibrary} {state next : SurveillanceState Process}
    {first : Receiver}
    (hrecorded : state.receiver.Recorded (receiverProtocol library) first)
    {action : SurveillanceAction Process}
    (hstep : surveillanceStep library state action = some next)
    (hsilent : ∀ event, next.receiver.log = event :: state.receiver.log →
      event.realAt = none) :
    next.receiver.row.lastNotificationAt =
      state.receiver.row.lastNotificationAt := by
  rcases (surveillanceStep_moves hstep).row_log hrecorded with
    ⟨hrow, -⟩ | ⟨event, -, heffect, hlog⟩
  · rw [hrow]
  · rcases Receiver.effect_lastNotificationAt heffect with
      ⟨hsame, -⟩ | ⟨receivedAt, hreal, -⟩
    · exact hsame
    · rw [hsilent event hlog] at hreal
      contradiction

/-- The surveillance alternates in every run without stale clearing. -/
theorem surveillance_alternates
    {library : ScheduleLibrary} {state : SurveillanceState Process}
    (hreach : (surveillanceMachine library Process).ReachableWhere
      (NoStaleClearing library) state) :
    Alternates library state.receiver.log ∧
      RecoveriesAnswer state.receiver.log ∧
      ∀ (action : SurveillanceAction Process)
        (next : SurveillanceState Process),
        surveillanceStep library state action = some next →
        (∀ event, next.receiver.log = event :: state.receiver.log →
          event.realAt = none) →
        next.receiver.row.lastNotificationAt =
          state.receiver.row.lastNotificationAt := by
  obtain ⟨first, body, created, hcreate, hrecorded⟩ :=
    surveillance_recorded hreach
  refine ⟨(SurveillanceState.alternating hreach).alternates,
    recoveriesAnswer_of_replay hcreate hrecorded.replayed, ?_⟩
  intro action next hstep hsilent
  exact SurveillanceState.lastNotificationAt_eq hrecorded hstep hsilent

/-- An alert, a recovery and another alert. -/
def fullCycleRun : List (SurveillanceAction ℕ) :=
  alertRun []
      [⟨1, timedeltaSeconds 62, .startIngest none false⟩,
        ⟨1, timedeltaSeconds 63, .stamp⟩,
        ⟨1, timedeltaSeconds 63, .beat⟩,
        ⟨1, timedeltaSeconds 63, .commit⟩] ++
    [⟨2, timedeltaSeconds 121, .watch⟩, ⟨2, timedeltaSeconds 121, .commit⟩,
      ⟨3, timedeltaSeconds 181, .startPass⟩,
      ⟨3, timedeltaSeconds 181, .lockTenant⟩,
      ⟨3, timedeltaSeconds 181, .watch⟩,
      ⟨3, timedeltaSeconds 181, .commit⟩]

theorem surveillance_alternates_fullCycle :
    ∃ state, (surveillanceMachine noCron ℕ).run (createdReceiver ℕ)
        fullCycleRun = some state ∧
      state.receiver.log = [.missing .error (timedeltaSeconds 181),
        .recovered (timedeltaSeconds 121),
        .ingested none (timedeltaSeconds 63),
        .missing .error (timedeltaSeconds 61)] ∧
      Alternates noCron state.receiver.log := by
  obtain ⟨state, hrun, hlog⟩ : ∃ state,
      (surveillanceMachine noCron ℕ).run (createdReceiver ℕ) fullCycleRun =
          some state ∧
        state.receiver.log = [.missing .error (timedeltaSeconds 181),
          .recovered (timedeltaSeconds 121),
          .ingested none (timedeltaSeconds 63),
          .missing .error (timedeltaSeconds 61)] :=
    ⟨_, rfl, by decide +kernel⟩
  have hallowed : (surveillanceMachine noCron ℕ).AllowedAlong
      (NoStaleClearing noCron) (createdReceiver ℕ) fullCycleRun := by
    decide +kernel
  have hreach := Machine.ReachableWhere.run
    (.initial (createdReceiver_initial ℕ)) hallowed hrun
  exact ⟨state, hrun, hlog, (surveillance_alternates hreach).1⟩

/-! ## A stale PATCH -/

/-- A PATCH which switches the surveillance off. -/
def switchOff : ReceiverUpdate where
  status := none
  durationThresholdSeconds := none
  durationSeverity := none
  expectedEverySeconds := some none
  expectedCron := some none
  expectedTimezone := some none
  expectedGraceSeconds := some none
  missingSeverity := some none

def switchOn : ReceiverUpdate :=
  { switchOff with
    expectedEverySeconds := some (some ⟨60, int4_minute_inRange⟩)
    expectedGraceSeconds := some (some ⟨0, int4_zero_inRange⟩)
    missingSeverity := some (some .error) }

/-- PATCH 1 is computed before the alert of pass 0 and committed after it, so
the alert is left over.  PATCH 2 loads that row; PATCH 3 switches the
surveillance on; pass 4 raises an alert, and then PATCH 2 clears it. -/
def staleClearingRun : List (SurveillanceAction ℕ) :=
  let pass (process : ℕ) (seconds : ℤ) : List (SurveillanceAction ℕ) :=
    [.startPass, .lockTenant, .watch, .commit].map
      (⟨process, timedeltaSeconds seconds, ·⟩)
  let compute (process : ℕ) (seconds : ℤ) (body : ReceiverUpdate) :
      List (SurveillanceAction ℕ) :=
    [.load body, .update].map (⟨process, timedeltaSeconds seconds, ·⟩)
  let write (process : ℕ) (seconds : ℤ) : List (SurveillanceAction ℕ) :=
    [.flush, .commit].map (⟨process, timedeltaSeconds seconds, ·⟩)
  compute 1 60 switchOff ++ pass 0 61 ++ write 1 62 ++
    compute 2 63 switchOff ++ compute 3 70 switchOn ++ write 3 70 ++
    pass 4 140 ++ write 2 141 ++ pass 5 200

theorem alerts_do_not_alternate :
    ∃ state, (surveillanceMachine noCron ℕ).run (createdReceiver ℕ)
        staleClearingRun = some state ∧
      (surveillanceMachine noCron ℕ).AllowedAlong SurveillanceOnTime
        (createdReceiver ℕ) staleClearingRun ∧
      ¬Alternates noCron state.receiver.log := by
  obtain ⟨state, hrun, hfalse⟩ : ∃ state,
      (surveillanceMachine noCron ℕ).run (createdReceiver ℕ)
          staleClearingRun = some state ∧
        alternates noCron state.receiver.log = false :=
    ⟨_, rfl, by decide +kernel⟩
  refine ⟨state, hrun, by decide +kernel, fun halternates => ?_⟩
  rw [alternates_iff.mpr halternates] at hfalse
  contradiction

end NotifyHub
