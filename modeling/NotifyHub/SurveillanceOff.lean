import NotifyHub.SurveillanceAlternation
import Mathlib.Tactic

/-!
# A receiver without surveillance

A PATCH which switches the surveillance off clears `expected_since` and
`missing_alerted_at` in the row it has loaded.  A column which was null there
gives no UPDATE, and a PATCH which re-activates the receiver writes
`expected_since` without looking at the policy again.  The rules below say
when the row is clean nevertheless.
-/

namespace NotifyHub

/-- With the surveillance off, nothing of it is left in the row. -/
def Receiver.NoResidue (receiver : Receiver) : Prop :=
  receiver.isWatched = false →
    receiver.expectedSince = none ∧ receiver.missingAlertedAt = none

instance (receiver : Receiver) : Decidable receiver.NoResidue :=
  inferInstanceAs (Decidable (_ → _ ∧ _))

/-- The PATCH has loaded the surveillance on and switches it off. -/
def ReceiverPatch.SwitchesOff (patch : ReceiverPatch) : Prop :=
  patch.loaded.isWatched = true ∧ patch.body.missingSeverity = some none

/-- The PATCH has loaded a watched receiver disabled and re-activates it, with
the severity of the policy as it is. -/
def ReceiverPatch.Reactivates (patch : ReceiverPatch) : Prop :=
  patch.loaded.isWatched = true ∧ patch.loaded.status = .disabled ∧
    patch.body.status = some .active ∧
    patch.body.missingSeverity.getD patch.loaded.expected.missingSeverity =
      patch.loaded.expected.missingSeverity ∧
    patch.loaded.expectedSince ≠ some patch.now

/-- The columns which a PATCH counts on when it is sent: one which switches
the surveillance off finds null what it has loaded null, and one which
re-activates the receiver finds the surveillance on. -/
def ReceiverPatch.Fits (patch : ReceiverPatch) (stored : Receiver) : Prop :=
  (patch.SwitchesOff →
    (patch.loaded.expectedSince = none → stored.expectedSince = none) ∧
      (patch.loaded.missingAlertedAt = none →
        stored.missingAlertedAt = none)) ∧
    (patch.Reactivates → stored.isWatched = true)

instance (patch : ReceiverPatch) : Decidable patch.SwitchesOff :=
  inferInstanceAs (Decidable (_ ∧ _))

instance (patch : ReceiverPatch) : Decidable patch.Reactivates :=
  inferInstanceAs (Decidable (_ ∧ _ ∧ _ ∧ _ ∧ _))

instance (patch : ReceiverPatch) (stored : Receiver) :
    Decidable (patch.Fits stored) :=
  inferInstanceAs (Decidable ((_ → _) ∧ (_ → _)))

/-! ## What a PATCH computes -/

theorem isWatched_of_missingSeverity
    {first second : Receiver}
    (hsame : first.expected.missingSeverity =
      second.expected.missingSeverity) : first.isWatched = second.isWatched := by
  rw [Receiver.isWatched, Receiver.isWatched, hsame]

theorem applyExpectedPolicy_window
    {library : ScheduleLibrary} {receiver final : Receiver}
    {body : ReceiverUpdate} {now : Instant}
    (happly : applyExpectedPolicy library receiver body now = .ok final) :
    final.status = receiver.status ∧
      final.expected.missingSeverity =
        body.missingSeverity.getD receiver.expected.missingSeverity ∧
      (final.isWatched = false ∧ final.expectedSince = none ∧
          final.missingAlertedAt = none ∨
        receiver.isWatched = false ∧ final.isWatched = true ∨
        final.isWatched = receiver.isWatched ∧
          final.expectedSince = receiver.expectedSince ∧
          final.missingAlertedAt = receiver.missingAlertedAt) := by
  unfold applyExpectedPolicy at happly
  split at happly
  · simp only at happly
    split at happly
    · contradiction
    · split at happly
      next hoff =>
        rw [← Except.ok.inj happly]
        refine ⟨rfl, rfl, .inl ⟨?_, rfl, rfl⟩⟩
        simpa [Receiver.isWatched] using hoff
      next hon =>
        have hwatched :
            (body.finalExpected receiver.expected).missingSeverity.isSome =
              true := by
          rw [Bool.not_eq_true] at hon
          rw [← Option.not_isNone, hon]
          rfl
        split at happly
        next hunwatched =>
          rw [← Except.ok.inj happly]
          exact ⟨rfl, rfl, .inr (.inl ⟨hunwatched, hwatched⟩)⟩
        next hwasWatched =>
          rw [← Except.ok.inj happly]
          refine ⟨rfl, rfl, .inr (.inr ⟨?_, rfl, rfl⟩)⟩
          rw [Bool.not_eq_false] at hwasWatched
          rw [hwasWatched]
          exact hwatched
  next huntouched =>
    rw [← Except.ok.inj happly]
    refine ⟨rfl, ?_, .inr (.inr ⟨rfl, rfl, rfl⟩)⟩
    simp only [ReceiverUpdate.touchesExpected, Bool.or_eq_true,
      not_or] at huntouched
    rw [Option.not_isSome_iff_eq_none.mp huntouched.2]
    rfl

/-- What a PATCH does to the window: it clears it with the surveillance off,
switches the surveillance on, re-activates the receiver, or keeps it. -/
theorem updateReceiver_window
    {library : ScheduleLibrary} {loaded final : Receiver}
    {body : ReceiverUpdate} {now : Instant}
    (hupdate : updateReceiver library loaded body now = .ok final) :
    final.expected.missingSeverity =
        body.missingSeverity.getD loaded.expected.missingSeverity ∧
      (final.isWatched = false ∧ final.expectedSince = none ∧
          final.missingAlertedAt = none ∨
        loaded.isWatched = false ∧ final.isWatched = true ∨
        loaded.status = .disabled ∧ body.status = some .active ∧
          final.isWatched = true ∧ final.expectedSince = some now ∧
          final.missingAlertedAt = none ∨
        final.isWatched = loaded.isWatched ∧
          final.expectedSince = loaded.expectedSince ∧
          final.missingAlertedAt = loaded.missingAlertedAt) := by
  unfold updateReceiver at hupdate
  simp only at hupdate
  split at hupdate
  · contradiction
  · obtain ⟨changed, happly, hfinal⟩ := Except.bind_eq_ok.mp hupdate
    obtain ⟨hstatus, hseverity, hwindow⟩ := applyExpectedPolicy_window happly
    rw [← Except.ok.inj hfinal]
    by_cases hreactivated : loaded.status = .disabled ∧
        changed.status = .active ∧ changed.isWatched = true
    · rw [if_pos hreactivated]
      refine ⟨hseverity, .inr (.inr (.inl ⟨hreactivated.1, ?_,
        hreactivated.2.2, rfl, rfl⟩))⟩
      have hactive : body.status.getD loaded.status = .active := by
        rw [← hreactivated.2.1, hstatus]
      cases hbody : body.status with
      | none =>
          rw [hbody, Option.getD_none, hreactivated.1] at hactive
          contradiction
      | some status =>
          rw [hbody, Option.getD_some] at hactive
          rw [hactive]
    · rw [if_neg hreactivated]
      refine ⟨hseverity, ?_⟩
      rcases hwindow with hoff | hon | hkept
      · exact .inl hoff
      · exact .inr (.inl hon)
      · exact .inr (.inr (.inr hkept))

/-- The UPDATE of a PATCH which fits leaves nothing behind. -/
theorem noResidue_writeBack
    {library : ScheduleLibrary} {patch : ReceiverPatch}
    {final stored : Receiver}
    (hloaded : patch.loaded.NoResidue) (hstored : stored.NoResidue)
    (hfits : patch.Fits stored) (hfinal : patch.final library = .ok final) :
    (patch.loaded.writeBack final stored).NoResidue := by
  obtain ⟨hseverity, hwindow⟩ := updateReceiver_window hfinal
  intro hoff
  by_cases hsame :
      final.expected.missingSeverity = patch.loaded.expected.missingSeverity
  · -- the severity is not written, so the surveillance is off in the row
    have hwatched : (patch.loaded.writeBack final stored).isWatched =
        stored.isWatched :=
      isWatched_of_missingSeverity (writeBack_of_eq hsame _)
    rw [hwatched] at hoff
    obtain ⟨hsince, halerted⟩ := hstored hoff
    have hloadedWatched := isWatched_of_missingSeverity hsame
    have hclears : final.missingAlertedAt = patch.loaded.missingAlertedAt ∨
        final.missingAlertedAt = none →
          (patch.loaded.writeBack final stored).missingAlertedAt = none := by
      intro hnone
      simp only [Receiver.writeBack, writeBack]
      split
      · exact halerted
      next hchanged => exact hnone.resolve_left hchanged
    rcases hwindow with ⟨hunwatched, hnone, hnoAlert⟩ | ⟨hunwatched, hon⟩ |
        ⟨hdisabled, hactive, hon, hnow, hnoAlert⟩ | ⟨-, hkept, hkeptAlert⟩
    · rw [hunwatched] at hloadedWatched
      have hloadedNone := (hloaded hloadedWatched.symm).1
      refine ⟨?_, hclears (.inr hnoAlert)⟩
      exact (writeBack_of_eq (hnone.trans hloadedNone.symm) _).trans hsince
    · rw [hunwatched, hon] at hloadedWatched
      contradiction
    · refine ⟨?_, hclears (.inr hnoAlert)⟩
      by_cases hnew : patch.loaded.expectedSince = some patch.now
      · exact (writeBack_of_eq (hnow.trans hnew.symm) _).trans hsince
      · have hreactivates : patch.Reactivates :=
          ⟨hloadedWatched ▸ hon, hdisabled, hactive, hseverity ▸ hsame, hnew⟩
        rw [hfits.2 hreactivates] at hoff
        contradiction
    · refine ⟨?_, hclears (.inl hkeptAlert)⟩
      exact (writeBack_of_eq hkept _).trans hsince
  · -- the severity is written, so the PATCH switches the surveillance off
    have hwatched : (patch.loaded.writeBack final stored).isWatched =
        final.isWatched :=
      isWatched_of_missingSeverity (writeBack_of_ne hsame _)
    rw [hwatched] at hoff
    have hnone : final.expected.missingSeverity = none := by
      simpa [Receiver.isWatched] using hoff
    have hloadedOn : patch.loaded.isWatched = true := by
      rw [Receiver.isWatched, Option.isSome_iff_ne_none]
      exact fun hloadedNone => hsame (hnone.trans hloadedNone.symm)
    have hbody : patch.body.missingSeverity = some none := by
      rw [hnone] at hseverity
      cases hsent : patch.body.missingSeverity with
      | none =>
          rw [hsent] at hseverity
          exact absurd (hnone.trans hseverity) hsame
      | some sent =>
          rw [hsent] at hseverity
          exact congrArg some hseverity.symm
    obtain ⟨hsince, halerted⟩ := hfits.1 ⟨hloadedOn, hbody⟩
    have hcleared : final.expectedSince = none ∧
        final.missingAlertedAt = none := by
      rcases hwindow with ⟨-, hcleared⟩ | ⟨hunwatched, -⟩ |
          ⟨-, -, hon, -⟩ | ⟨hkept, -⟩
      · exact hcleared
      · rw [hloadedOn] at hunwatched
        contradiction
      · rw [hoff] at hon
        contradiction
      · rw [hoff, hloadedOn] at hkept
        contradiction
    constructor
    · simp only [Receiver.writeBack, writeBack, hcleared.1]
      split
      next hunwritten => exact hsince hunwritten.symm
      · rfl
    · simp only [Receiver.writeBack, writeBack, hcleared.2]
      split
      next hunwritten => exact halerted hunwritten.symm
      · rfl

theorem createReceiver_noResidue
    {library : ScheduleLibrary} {body : ReceiverCreate} {now : Instant}
    {receiver : Receiver}
    (hcreate : createReceiver library body now = .ok receiver) :
    receiver.NoResidue := by
  unfold createReceiver at hcreate
  simp only at hcreate
  split at hcreate
  · contradiction
  · obtain ⟨⟨⟩, -, hreceiver⟩ := Except.bind_eq_ok.mp hcreate
    rw [← Except.ok.inj hreceiver]
    intro hoff
    refine ⟨if_neg ?_, rfl⟩
    rw [Bool.not_eq_true]
    exact hoff

/-! ## Runs -/

variable {Process : Type*} [DecidableEq Process]

/-- The rows which a process in some phase has in hand. -/
def SurveillancePhase.inHand : SurveillancePhase → List Receiver
  | .loaded receiver _ => [receiver]
  | .updated patch => [patch.loaded]
  | .writing (some (row, _)) => [row]
  | _ => []

/-- The PATCH whose UPDATE an action is about to send. -/
def pendingPatch
    (state : SurveillanceState Process) (action : SurveillanceAction Process) :
    Option ReceiverPatch :=
  match action.move, state.receiver.phase action.process with
  | .flush, .updated patch => some patch
  | _, _ => none

def PatchesFit
    (state : SurveillanceState Process) (action : SurveillanceAction Process) :
    Prop :=
  ∀ patch ∈ pendingPatch state action, patch.Fits state.receiver.row

instance
    (state : SurveillanceState Process) (action : SurveillanceAction Process) :
    Decidable (PatchesFit state action) :=
  inferInstanceAs (Decidable (∀ patch ∈ pendingPatch state action, _))

structure SurveillanceState.NoResidue (state : SurveillanceState Process) :
    Prop where
  row : state.receiver.row.NoResidue
  inHand : ∀ process, ∀ receiver ∈ (state.receiver.phase process).inHand,
    receiver.NoResidue

omit [DecidableEq Process] in
theorem beat_noResidue
    {receiver : Receiver} (hreceiver : receiver.NoResidue)
    (phase : Option NotificationPhase) (receivedAt : Instant) :
    (receiver.beat phase receivedAt).NoResidue := by
  cases phase with
  | none => exact hreceiver
  | some phase =>
      cases phase with
      | start => exact hreceiver
      | finish => exact hreceiver

omit [DecidableEq Process] in
theorem SurveillancePhase.mem_inHand_of_prepared
    {library : ScheduleLibrary} {phase : SurveillancePhase}
    {row : Receiver} {event : ReceiverEvent}
    (hprepared : (receiverProtocol library).prepared phase =
      some (row, event)) : row ∈ phase.inHand := by
  cases phase with
  | writing write =>
      have hwrite : write = some (row, event) := hprepared
      rw [hwrite]
      exact List.mem_singleton_self row
  | _ => contradiction

/-- What the process which moves has in hand afterwards. -/
theorem SurveillanceState.NoResidue.inHand_step
    {library : ScheduleLibrary} {state next : SurveillanceState Process}
    {action : SurveillanceAction Process} (hclean : state.NoResidue)
    (hfits : PatchesFit state action)
    (hstep : surveillanceStep library state action = some next) :
    ∀ receiver ∈ (next.receiver.phase action.process).inHand,
      receiver.NoResidue := by
  obtain ⟨process, now, move⟩ := action
  simp only [surveillanceStep] at hstep
  split at hstep
  case h_1 =>
    obtain rfl := Option.some.inj hstep
    simp [SurveillanceState.goto, SurveillancePhase.inHand]
  case h_2 =>
    split at hstep
    · obtain rfl := Option.some.inj hstep
      simp [SurveillanceState.lockTenant, SurveillanceState.goto,
        SurveillancePhase.inHand]
    · contradiction
  case h_3 =>
    split at hstep
    next hselected =>
      split at hstep <;> obtain rfl := Option.some.inj hstep
      · simp [takeReceiver, SurveillancePhase.inHand]
      · simp [SurveillanceState.finish, SurveillancePhase.inHand]
      · intro receiver hmem
        simp only [takeReceiver, RowState.take_phase, RowState.goto_phase_self,
          SurveillancePhase.inHand, List.mem_singleton] at hmem
        subst hmem
        exact fun hoff => ⟨(hclean.row hoff).1, rfl⟩
      · intro receiver hmem
        simp only [takeReceiver, RowState.take_phase, RowState.goto_phase_self,
          SurveillancePhase.inHand, List.mem_singleton] at hmem
        subst hmem
        intro hoff
        have hoff : state.receiver.row.isWatched = false := hoff
        rw [hselected.2.1] at hoff
        contradiction
    · obtain rfl := Option.some.inj hstep
      simp [SurveillanceState.goto, SurveillancePhase.inHand]
  case h_4 quota _ =>
    split at hstep <;> obtain rfl := Option.some.inj hstep
    · cases quota <;> simp [SurveillanceState.goto, SurveillancePhase.inHand]
    · simp [SurveillanceState.goto, SurveillancePhase.inHand]
  case h_5 =>
    split at hstep
    · obtain rfl := Option.some.inj hstep
      simp [SurveillanceState.lockTenant, SurveillanceState.goto,
        SurveillancePhase.inHand]
    · contradiction
  case h_6 =>
    obtain rfl := Option.some.inj hstep
    simp [SurveillanceState.goto, SurveillancePhase.inHand]
  case h_7 =>
    split at hstep
    · obtain rfl := Option.some.inj hstep
      simpa [takeReceiver, SurveillancePhase.inHand] using
        beat_noResidue hclean.row _ _
    · contradiction
  case h_8 =>
    obtain rfl := Option.some.inj hstep
    simpa [SurveillanceState.goto, SurveillancePhase.inHand] using hclean.row
  case h_9 hphase =>
    have hhand := hclean.inHand process
    rw [hphase] at hhand
    split at hstep <;> obtain rfl := Option.some.inj hstep
    · simp [SurveillanceState.goto, SurveillancePhase.inHand]
    · simpa [SurveillanceState.goto, SurveillancePhase.inHand] using hhand
  case h_10 patch hphase =>
    have hloaded : patch.loaded.NoResidue :=
      hclean.inHand process patch.loaded
        (by rw [hphase]; exact List.mem_singleton_self _)
    have hpending : pendingPatch state ⟨process, now, .flush⟩ = some patch := by
      simp [pendingPatch, hphase]
    have hfits : patch.Fits state.receiver.row := hfits patch hpending
    split at hstep
    · contradiction
    next final hfinal =>
      split at hstep
      · obtain rfl := Option.some.inj hstep
        simp [SurveillanceState.goto, SurveillancePhase.inHand]
      · split at hstep
        · contradiction
        · split at hstep <;> obtain rfl := Option.some.inj hstep
          · simpa [takeReceiver, SurveillancePhase.inHand] using
              noResidue_writeBack hloaded hclean.row hfits hfinal
          · simp [SurveillanceState.finish, SurveillancePhase.inHand]
  case h_11 =>
    obtain rfl := Option.some.inj hstep
    simp [SurveillanceState.finish, SurveillancePhase.inHand]
  case h_12 =>
    obtain rfl := Option.some.inj hstep
    simp [SurveillanceState.commit, SurveillancePhase.inHand]
  case h_13 => contradiction
  case h_14 =>
    obtain rfl := Option.some.inj hstep
    simp [SurveillanceState.finish, SurveillancePhase.inHand]
  case h_15 => contradiction

theorem SurveillanceState.NoResidue.step
    {library : ScheduleLibrary} {state next : SurveillanceState Process}
    {action : SurveillanceAction Process} (hclean : state.NoResidue)
    (hfits : PatchesFit state action)
    (hstep : surveillanceStep library state action = some next) :
    next.NoResidue := by
  have hmoves := surveillanceStep_moves hstep
  refine ⟨?_, fun other => ?_⟩
  · have hrow : next.receiver.row = state.receiver.row ∨
        next.receiver.row ∈
          (state.receiver.phase action.process).inHand := by
      generalize next.receiver = after at hmoves
      cases hmoves with
      | commit phase row event hwrites _ =>
          exact .inr (SurveillancePhase.mem_inHand_of_prepared hwrites)
      | _ => exact .inl rfl
    rcases hrow with hsame | hmem
    · rw [hsame]
      exact hclean.row
    · exact hclean.inHand action.process _ hmem
  · by_cases hother : other = action.process
    · subst hother
      exact hclean.inHand_step hfits hstep
    · rw [hmoves.phase_of_ne hother]
      exact hclean.inHand other

/-- In every run whose PATCHes fit, a receiver without surveillance has
nothing of it left. -/
theorem surveillanceOff_leaves_nothing
    {library : ScheduleLibrary} {state : SurveillanceState Process}
    (hreach : (surveillanceMachine library Process).ReachableWhere PatchesFit
      state)
    (hoff : state.receiver.row.expected.missingSeverity = none) :
    state.receiver.row.expectedSince = none ∧
      state.receiver.row.missingAlertedAt = none := by
  have hclean : state.NoResidue := by
    refine hreach.invariant (fun start hinitial => ?_) ?_
    · obtain ⟨⟨body, created, hcreate⟩, -, -, hidle, -⟩ := hinitial
      refine ⟨createReceiver_noResidue hcreate, fun process receiver hmem => ?_⟩
      rw [hidle process] at hmem
      contradiction
    · exact fun _ _ _ hclean hfits hstep => hclean.step hfits hstep
  apply hclean.row
  rw [Receiver.isWatched, hoff]
  rfl

def stepsAt
    (process : ℕ) (seconds : ℤ) (moves : List SurveillanceMove) :
    List (SurveillanceAction ℕ) :=
  moves.map (⟨process, timedeltaSeconds seconds, ·⟩)

def passAt (process : ℕ) (seconds : ℤ) : List (SurveillanceAction ℕ) :=
  stepsAt process seconds [.startPass, .lockTenant, .watch, .commit]

/-- Pass 0 raises an alert, and PATCH 1 switches the surveillance off. -/
def offAfterAlert : List (SurveillanceAction ℕ) :=
  passAt 0 61 ++ stepsAt 1 62 [.load switchOff, .update, .flush, .commit]

theorem surveillanceOff_leaves_nothing_offAfterAlert :
    ∃ state, (surveillanceMachine noCron ℕ).run (createdReceiver ℕ)
        offAfterAlert = some state ∧
      state.receiver.row.expectedSince = none ∧
      state.receiver.row.missingAlertedAt = none := by
  obtain ⟨state, hrun, hoff⟩ : ∃ state,
      (surveillanceMachine noCron ℕ).run (createdReceiver ℕ) offAfterAlert =
        some state ∧
      state.receiver.row.expected.missingSeverity = none :=
    ⟨_, rfl, by decide +kernel⟩
  have hallowed : (surveillanceMachine noCron ℕ).AllowedAlong PatchesFit
      (createdReceiver ℕ) offAfterAlert := by
    decide +kernel
  have hreach := Machine.ReachableWhere.run
    (.initial (createdReceiver_initial ℕ)) hallowed hrun
  exact ⟨state, hrun, surveillanceOff_leaves_nothing hreach hoff⟩

/-- PATCH 1 has loaded the receiver before pass 0 raises an alert: the
surveillance is off and the alert is left. -/
theorem surveillanceOff_leaves_alert :
    ∃ state : SurveillanceState ℕ,
      (surveillanceMachine noCron ℕ).Reachable state ∧
      state.receiver.row.expected.missingSeverity = none ∧
      state.receiver.row.missingAlertedAt = some (timedeltaSeconds 61) := by
  obtain ⟨state, hrun, hleft⟩ : ∃ state,
      (surveillanceMachine noCron ℕ).run (createdReceiver ℕ)
        (stepsAt 1 60 [.load switchOff, .update] ++ passAt 0 61 ++
          stepsAt 1 62 [.flush, .commit]) = some state ∧
      state.receiver.row.expected.missingSeverity = none ∧
      state.receiver.row.missingAlertedAt = some (timedeltaSeconds 61) :=
    ⟨_, rfl, by decide +kernel⟩
  exact ⟨state, .run (.initial (createdReceiver_initial ℕ)) hrun, hleft⟩

end NotifyHub
