import NotifyHub.DomainTypes
import NotifyHub.PendingRows
import NotifyHub.RowTransactions
import NotifyHub.TransitionMachine
import Mathlib.Tactic

/-!
# Who has handled a notification

The six columns of a notification which say whether it has been read and
verified, when, and by whom.  A PATCH decides from the version which it has
loaded and writes the columns whose value it has changed; a bulk read is one
UPDATE of many rows; nobody locks a row before writing it.

Each mark is three columns.  What holds them together is that nobody ever
writes one of the three alone: as a loaded mark is whole, a change of its flag
changes the other two columns as well.
-/

namespace NotifyHub.Handling

/-! ## Marks -/

section Marks

variable {User : Type}

/-- A mark is whole: who and when are known exactly when the flag is set. -/
def Marked (flag : Prop) (by_ : Option User) (at_ : Option Instant) : Prop :=
  (flag ↔ by_ ≠ none) ∧ (flag ↔ at_ ≠ none)

theorem Marked.iff_both
    {flag : Prop} {by_ : Option User} {at_ : Option Instant}
    (hmarked : Marked flag by_ at_) :
    flag ↔ by_.isSome ∧ at_.isSome := by
  rw [Option.isSome_iff_ne_none, Option.isSome_iff_ne_none, ← hmarked.1,
    ← hmarked.2, and_self]

theorem ne_of_flag
    {α : Type} {flag other : Prop} {value final : Option α}
    (hvalue : flag ↔ value ≠ none) (hfinal : other ↔ final ≠ none)
    (hflip : other ↔ ¬flag) : final ≠ value := by
  intro hsame
  rw [hsame, ← hvalue] at hfinal
  by_cases hflag : flag
  · exact hflip.mp (hfinal.mpr hflag) hflag
  · exact hflag (hfinal.mp (hflip.mpr hflag))

/-- An UPDATE leaves a whole mark or writes a whole mark. -/
theorem marked_writeBack [DecidableEq User]
    {α : Type} [DecidableEq α] {set loaded final stored : α}
    {loadedBy finalBy storedBy : Option User}
    {loadedAt finalAt storedAt : Option Instant}
    (hloaded : Marked (loaded = set) loadedBy loadedAt)
    (hstored : Marked (stored = set) storedBy storedAt)
    (hfinal : (final = loaded ∧ finalBy = loadedBy ∧ finalAt = loadedAt) ∨
      (Marked (final = set) finalBy finalAt ∧
        (final = set ↔ ¬loaded = set))) :
    Marked (writeBack loaded final stored = set)
      (writeBack loadedBy finalBy storedBy)
      (writeBack loadedAt finalAt storedAt) := by
  rcases hfinal with ⟨hsame, hsameBy, hsameAt⟩ | ⟨hmarked, hflip⟩
  · rw [writeBack_of_eq hsame, writeBack_of_eq hsameBy, writeBack_of_eq hsameAt]
    exact hstored
  · have hflag : final ≠ loaded := by
      intro hsame
      rw [hsame] at hflip
      exact iff_not_self hflip
    have hby : finalBy ≠ loadedBy := ne_of_flag hloaded.1 hmarked.1 hflip
    have hat : finalAt ≠ loadedAt := ne_of_flag hloaded.2 hmarked.2 hflip
    rw [writeBack_of_ne hflag, writeBack_of_ne hby, writeBack_of_ne hat]
    exact hmarked

end Marks

/-! ## Rows -/

structure Notification (User : Type) where
  status : NotificationStatus
  readBy : Option User
  readAt : Option Instant
  verified : Bool
  verifiedBy : Option User
  verifiedAt : Option Instant
  deriving DecidableEq

variable {User : Type}

/-- `persist_notification`; what it does not name has its default. -/
def persistNotification : Notification User where
  status := .unread
  readBy := none
  readAt := none
  verified := false
  verifiedBy := none
  verifiedAt := none

/-- `_synthetic_notification`. -/
def syntheticNotification : Notification User where
  status := .unread
  readBy := none
  readAt := none
  verified := false
  verifiedBy := none
  verifiedAt := none

structure MarkStatusIn where
  status : Option NotificationStatus
  verified : Option Bool
  requiresAtLeastOne : ¬(status = none ∧ verified = none)
  deriving DecidableEq

/-- The first `if` of `mark_notification_status`. -/
def markStatus
    (status : Option NotificationStatus) (actorId : User) (now : Instant)
    (notification : Notification User) : Notification User :=
  match status with
  | none => notification
  | some status =>
      if status ≠ notification.status then
        let read := decide (status = .read)
        { notification with
          status := status
          readBy := if read then some actorId else none
          readAt := if read then some now else none }
      else notification

/-- The second one. -/
def markVerified
    (verified : Option Bool) (actorId : User) (now : Instant)
    (notification : Notification User) : Notification User :=
  match verified with
  | none => notification
  | some verified =>
      if verified ≠ notification.verified then
        { notification with
          verified := verified
          verifiedBy := if verified then some actorId else none
          verifiedAt := if verified then some now else none }
      else notification

def markNotificationStatus
    (body : MarkStatusIn) (actorId : User) (now : Instant)
    (notification : Notification User) : Notification User :=
  markVerified body.verified actorId now
    (markStatus body.status actorId now notification)

/-- The stored row after the UPDATE of a request which has loaded one version
and computed another. -/
def merge [DecidableEq User] (loaded final stored : Notification User) :
    Notification User where
  status := writeBack loaded.status final.status stored.status
  readBy := writeBack loaded.readBy final.readBy stored.readBy
  readAt := writeBack loaded.readAt final.readAt stored.readAt
  verified := writeBack loaded.verified final.verified stored.verified
  verifiedBy := writeBack loaded.verifiedBy final.verifiedBy stored.verifiedBy
  verifiedAt := writeBack loaded.verifiedAt final.verifiedAt stored.verifiedAt

/-- The filters of a bulk read; those on columns which nobody changes select
the same notifications at any time. -/
structure BulkReadIn (Id : Type) where
  selects : Id → Bool
  verified : Option Bool
  status : Option NotificationStatus

/-- The conditions of the UPDATE. -/
def BulkReadIn.conditions
    {Id : Type} (body : BulkReadIn Id) (id : Id)
    (notification : Notification User) : Bool :=
  body.selects id && body.verified.all (· == notification.verified) &&
    body.status.all (· == notification.status) &&
    notification.status == .unread

/-- The values of the UPDATE. -/
def bulkMarkRead
    (actorId : User) (now : Instant) (notification : Notification User) :
    Notification User :=
  { notification with
    status := .read
    readBy := some actorId
    readAt := some now }

/-- Both marks are whole. -/
structure Notification.Whole (notification : Notification User) : Prop where
  read : Marked (notification.status = .read) notification.readBy
    notification.readAt
  verified : Marked (notification.verified = true) notification.verifiedBy
    notification.verifiedAt

/-! ## Writers and their rows -/

theorem persistNotification_whole :
    (persistNotification : Notification User).Whole where
  read := ⟨by simp [persistNotification], by simp [persistNotification]⟩
  verified := ⟨by simp [persistNotification], by simp [persistNotification]⟩

theorem syntheticNotification_whole :
    (syntheticNotification : Notification User).Whole :=
  persistNotification_whole

theorem bulkMarkRead_whole
    {notification : Notification User} (hwhole : notification.Whole)
    (actorId : User) (now : Instant) :
    (bulkMarkRead actorId now notification).Whole where
  read := ⟨by simp [bulkMarkRead], by simp [bulkMarkRead]⟩
  verified := hwhole.verified

section Patches

theorem marked_ite
    {flag : Prop} [Decidable flag] (actorId : User) (now : Instant) :
    Marked flag (if flag then some actorId else none)
      (if flag then some now else none) := by
  by_cases hflag : flag
  · simp [Marked, hflag]
  · simp [Marked, hflag]

/-- A mark is left as it is, or it is turned as a whole. -/
theorem markStatus_cases
    (status : Option NotificationStatus) (actorId : User) (now : Instant)
    (loaded : Notification User) :
    let final := markStatus status actorId now loaded
    (final.status = loaded.status ∧ final.readBy = loaded.readBy ∧
        final.readAt = loaded.readAt) ∨
      (Marked (final.status = .read) final.readBy final.readAt ∧
        (final.status = .read ↔ ¬loaded.status = .read)) := by
  intro final
  cases status with
  | none => exact .inl ⟨rfl, rfl, rfl⟩
  | some status =>
      by_cases hsame : status = loaded.status
      · have hfinal : final = loaded := if_neg (not_not.mpr hsame)
        rw [hfinal]
        exact .inl ⟨rfl, rfl, rfl⟩
      · have hfinal : final = { loaded with
            status := status
            readBy := if decide (status = .read) then some actorId else none
            readAt := if decide (status = .read) then some now else none } :=
          if_pos hsame
        rw [hfinal]
        simp only [decide_eq_true_eq]
        refine .inr ⟨marked_ite actorId now, ?_⟩
        cases hloaded : loaded.status with
        | read => cases status <;> simp_all
        | unread => cases status <;> simp_all

theorem markVerified_cases
    (verified : Option Bool) (actorId : User) (now : Instant)
    (loaded : Notification User) :
    let final := markVerified verified actorId now loaded
    (final.verified = loaded.verified ∧ final.verifiedBy = loaded.verifiedBy ∧
        final.verifiedAt = loaded.verifiedAt) ∨
      (Marked (final.verified = true) final.verifiedBy final.verifiedAt ∧
        (final.verified = true ↔ ¬loaded.verified = true)) := by
  intro final
  cases verified with
  | none => exact .inl ⟨rfl, rfl, rfl⟩
  | some verified =>
      by_cases hsame : verified = loaded.verified
      · have hfinal : final = loaded := if_neg (not_not.mpr hsame)
        rw [hfinal]
        exact .inl ⟨rfl, rfl, rfl⟩
      · have hfinal : final = { loaded with
            verified := verified
            verifiedBy := if verified then some actorId else none
            verifiedAt := if verified then some now else none } :=
          if_pos hsame
        rw [hfinal]
        refine .inr ⟨marked_ite actorId now, ?_⟩
        cases hloaded : loaded.verified with
        | true => simpa [hloaded] using hsame
        | false => simpa [hloaded] using hsame

theorem markVerified_read
    (verified : Option Bool) (actorId : User) (now : Instant)
    (notification : Notification User) :
    let final := markVerified verified actorId now notification
    final.status = notification.status ∧ final.readBy = notification.readBy ∧
      final.readAt = notification.readAt := by
  unfold markVerified
  cases verified with
  | none => exact ⟨rfl, rfl, rfl⟩
  | some verified => dsimp only; split <;> exact ⟨rfl, rfl, rfl⟩

theorem markStatus_verified
    (status : Option NotificationStatus) (actorId : User) (now : Instant)
    (notification : Notification User) :
    let final := markStatus status actorId now notification
    final.verified = notification.verified ∧
      final.verifiedBy = notification.verifiedBy ∧
      final.verifiedAt = notification.verifiedAt := by
  unfold markStatus
  cases status with
  | none => exact ⟨rfl, rfl, rfl⟩
  | some status => dsimp only; split <;> exact ⟨rfl, rfl, rfl⟩

/-- The UPDATE of a PATCH keeps both marks whole, whatever has been written
since it loaded the row. -/
theorem merge_whole [DecidableEq User]
    {loaded stored : Notification User} (hloaded : loaded.Whole)
    (hstored : stored.Whole) (body : MarkStatusIn) (actorId : User)
    (now : Instant) :
    (merge loaded (markNotificationStatus body actorId now loaded)
      stored).Whole where
  read := by
    apply marked_writeBack hloaded.read hstored.read
    obtain ⟨hstatus, hby, hat⟩ := markVerified_read body.verified actorId now
      (markStatus body.status actorId now loaded)
    rw [markNotificationStatus, hstatus, hby, hat]
    exact markStatus_cases body.status actorId now loaded
  verified := by
    apply marked_writeBack hloaded.verified hstored.verified
    obtain ⟨hverified, hby, hat⟩ := markStatus_verified body.status actorId now
      loaded
    rw [← hverified, ← hby, ← hat]
    exact markVerified_cases body.verified actorId now
      (markStatus body.status actorId now loaded)

end Patches

/-! ## Transactions -/

/-- What the transaction of a process has done: it has written new rows or
removed rows, it has loaded a row for a PATCH, or it is in a bulk UPDATE. -/
inductive Phase (Id User : Type)
  | idle
  | writing
  | loaded (id : Id) (row : Notification User) (body : MarkStatusIn)
      (actorId : User) (now : Instant)
  | marking (body : BulkReadIn Id) (actorId : User) (now : Instant)

/-- A process is one transaction after the other.  `mark` is what a bulk UPDATE
does at one row; a removal comes from the retention or from the receiver. -/
inductive Action (Process Id User : Type)
  | ingest (process : Process) (id : Id)
  | synthesize (process : Process) (id : Id)
  | remove (process : Process) (id : Id)
  | load (process : Process) (id : Id) (body : MarkStatusIn) (actorId : User)
      (now : Instant)
  | flush (process : Process)
  | bulkRead (process : Process) (body : BulkReadIn Id) (actorId : User)
      (now : Instant)
  | mark (process : Process) (id : Id)
  | commit (process : Process)
  | abort (process : Process)

structure State (Process Id User : Type) where
  table : PendingRows Process Id (Notification User)
  phase : Process → Phase Id User

section Machine

variable {Process Id User : Type}
  [DecidableEq Process] [DecidableEq Id] [DecidableEq User]

def State.goto
    (state : State Process Id User) (process : Process) (phase : Phase Id User) :
    State Process Id User :=
  { state with phase := Function.update state.phase process phase }

def State.write
    (state : State Process Id User) (process : Process) (id : Id)
    (version : Option (Notification User)) : State Process Id User :=
  { state with table := state.table.write process id version }

/-- An INSERT, in a transaction which inserts or removes. -/
def insert
    (state : State Process Id User) (process : Process) (id : Id)
    (row : Notification User) : Option (State Process Id User) :=
  match state.phase process, state.table.find process id with
  | .idle, some none | .writing, some none =>
      some ((state.write process id (some row)).goto process .writing)
  | _, _ => none

def step (state : State Process Id User) :
    Action Process Id User → Option (State Process Id User)
  | .ingest process id => insert state process id persistNotification
  | .synthesize process id => insert state process id syntheticNotification
  | .remove process id =>
      match state.phase process, state.table.find process id with
      | .idle, some (some _) | .writing, some (some _) =>
          some ((state.write process id none).goto process .writing)
      | _, _ => none
  | .load process id body actorId now =>
      match state.phase process, state.table.rows id with
      | .idle, some row =>
          some (state.goto process (.loaded id row body actorId now))
      | _, _ => none
  | .flush process =>
      match state.phase process with
      | .loaded id row body actorId now =>
          let final := markNotificationStatus body actorId now row
          if final = row then some (state.goto process .writing)
          else
            match state.table.find process id with
            | some (some stored) =>
                some ((state.write process id
                  (some (merge row final stored))).goto process .writing)
            -- the UPDATE has matched no row, and the session is rolled back
            | some none => some { state.goto process .idle with
                table := state.table.finish process }
            | none => none
      | _ => none
  | .bulkRead process body actorId now =>
      match state.phase process with
      | .idle =>
          if body.status = some .read then some state
          else some (state.goto process (.marking body actorId now))
      | _ => none
  | .mark process id =>
      match state.phase process, state.table.find process id with
      | .marking body actorId now, some (some stored) =>
          if body.conditions id stored then
            some (state.write process id
              (some (bulkMarkRead actorId now stored)))
          else none
      | _, _ => none
  | .commit process =>
      some { state.goto process .idle with table := state.table.commit process }
  | .abort process =>
      some { state.goto process .idle with table := state.table.finish process }

/-- No transaction runs, and no mark is half set. -/
def machine (Process Id User : Type)
    [DecidableEq Process] [DecidableEq Id] [DecidableEq User] :
    Machine (State Process Id User) (Action Process Id User) where
  Initial state :=
    (∃ rows, state.table = .atRest rows ∧ ∀ id, ∀ row ∈ rows id, row.Whole) ∧
      ∀ process, state.phase process = .idle
  step := step

/-! ## Runs -/

/-- Every version of a row is whole, also the loaded and the uncommitted ones. -/
structure State.Sound (state : State Process Id User) : Prop where
  table : state.table.Lawful Notification.Whole
  loaded : ∀ process id row body actorId now,
    state.phase process = .loaded id row body actorId now → row.Whole

section Steps

variable {state next : State Process Id User} {process : Process}

omit [DecidableEq Id] [DecidableEq User] in
theorem State.Sound.goto
    (hsound : state.Sound) {phase : Phase Id User}
    (hphase : ∀ id row body actorId now,
      phase = .loaded id row body actorId now → row.Whole) :
    (state.goto process phase).Sound where
  table := hsound.table
  loaded other id row body actorId now hloaded := by
    by_cases hother : other = process
    · simp only [State.goto, hother, Function.update_self] at hloaded
      exact hphase id row body actorId now hloaded
    · simp only [State.goto, Function.update_of_ne hother] at hloaded
      exact hsound.loaded other id row body actorId now hloaded

omit [DecidableEq Process] [DecidableEq User] in
theorem State.Sound.write
    (hsound : state.Sound) {id : Id} {version : Option (Notification User)}
    (hversion : ∀ row ∈ version, row.Whole) :
    (state.write process id version).Sound where
  table := hsound.table.write hversion
  loaded := hsound.loaded

omit [DecidableEq User] in
theorem State.Sound.insert
    (hsound : state.Sound) {id : Id} {row : Notification User}
    (hrow : row.Whole) (hinsert : insert state process id row = some next) :
    next.Sound := by
  have hwritten : ((state.write process id (some row)).goto process
      .writing).Sound :=
    (hsound.write (by simpa using hrow)).goto (by simp)
  unfold Handling.insert at hinsert
  split at hinsert
  · exact Option.some.inj hinsert ▸ hwritten
  · exact Option.some.inj hinsert ▸ hwritten
  · cases hinsert

theorem State.Sound.flush
    (hsound : state.Sound) (hflush : step state (.flush process) = some next) :
    next.Sound := by
  simp only [step] at hflush
  cases hphase : state.phase process with
  | loaded id row body actorId now =>
      have hrow := hsound.loaded process id row body actorId now hphase
      simp only [hphase] at hflush
      split at hflush
      · exact Option.some.inj hflush ▸ hsound.goto (by simp)
      · split at hflush
        next stored hfind =>
          have hstored : stored.Whole := hsound.table.find hfind stored rfl
          have hmerged := merge_whole hrow hstored body actorId now
          exact Option.some.inj hflush ▸
            (hsound.write (by simpa using hmerged)).goto (by simp)
        next =>
          rw [← Option.some.inj hflush]
          exact ⟨hsound.table.finish, (hsound.goto (by simp)).loaded⟩
        next => cases hflush
  | _ =>
      simp only [hphase] at hflush
      cases hflush

theorem State.Sound.mark
    (hsound : state.Sound) {id : Id}
    (hmark : step state (.mark process id) = some next) : next.Sound := by
  simp only [step] at hmark
  split at hmark
  next body actorId now stored hphase hfind =>
    split at hmark
    next =>
      have hstored : stored.Whole := hsound.table.find hfind stored rfl
      have hmarked := bulkMarkRead_whole hstored actorId now
      exact Option.some.inj hmark ▸ hsound.write (by simpa using hmarked)
    next => cases hmark
  next => cases hmark

theorem State.Sound.step
    (hsound : state.Sound) {action : Action Process Id User}
    (hstep : step state action = some next) : next.Sound := by
  cases action with
  | ingest process id => exact hsound.insert persistNotification_whole hstep
  | synthesize process id => exact hsound.insert syntheticNotification_whole hstep
  | remove process id =>
      have hremoved : ((state.write process id none).goto process
          .writing).Sound :=
        (hsound.write (by simp)).goto (by simp)
      simp only [Handling.step] at hstep
      split at hstep
      · exact Option.some.inj hstep ▸ hremoved
      · exact Option.some.inj hstep ▸ hremoved
      · cases hstep
  | load process id body actorId now =>
      simp only [Handling.step] at hstep
      split at hstep
      next row hphase hrow =>
        have hwhole : row.Whole := hsound.table.rows id row hrow
        rw [← Option.some.inj hstep]
        apply hsound.goto
        intro other loaded _ _ _ heq
        cases heq
        exact hwhole
      next => cases hstep
  | flush process => exact hsound.flush hstep
  | bulkRead process body actorId now =>
      simp only [Handling.step] at hstep
      split at hstep
      · split at hstep
        · exact Option.some.inj hstep ▸ hsound
        · exact Option.some.inj hstep ▸ hsound.goto (by simp)
      · cases hstep
  | mark process id => exact hsound.mark hstep
  | commit process =>
      rw [← Option.some.inj hstep]
      exact ⟨hsound.table.commit, (hsound.goto (by simp)).loaded⟩
  | abort process =>
      rw [← Option.some.inj hstep]
      exact ⟨hsound.table.finish, (hsound.goto (by simp)).loaded⟩

theorem sound_of_reachable
    (hreach : (machine Process Id User).Reachable state) : state.Sound := by
  apply hreach.invariant
  · rintro first ⟨⟨rows, htable, hrows⟩, hidle⟩
    constructor
    · rw [htable]
      exact .atRest hrows
    · intro process id row body actorId now hloaded
      rw [hidle] at hloaded
      cases hloaded
  · intro state action next hsound hstep
    exact hsound.step hstep

end Steps

/-- In every committed state a notification is read exactly when it is known
by whom and when, and so for the verification. -/
theorem handling_consistent
    {state : State Process Id User}
    (hreach : (machine Process Id User).Reachable state) (id : Id) :
    ∀ row ∈ state.table.rows id,
      (row.status = .read ↔ row.readBy.isSome ∧ row.readAt.isSome) ∧
        (row.verified = true ↔
          row.verifiedBy.isSome ∧ row.verifiedAt.isSome) := by
  intro row hrow
  have hwhole := (sound_of_reachable hreach).table.rows id row hrow
  exact ⟨hwhole.read.iff_both, hwhole.verified.iff_both⟩

def emptyState : State ℕ ℕ ℕ := ⟨.atRest fun _ => none, fun _ => .idle⟩

/-- Users 10 and 20 load a new notification, a bulk read of user 30 marks it,
and both PATCHes are written after that. -/
def overlappingPatches : List (Action ℕ ℕ ℕ) :=
  [.ingest 0 7, .commit 0,
    .load 1 7 ⟨some .read, some true, by simp⟩ 10 100,
    .load 2 7 ⟨some .unread, some true, by simp⟩ 20 200,
    .bulkRead 3 ⟨fun _ => true, none, none⟩ 30 300, .mark 3 7, .commit 3,
    .flush 1, .commit 1, .flush 2, .commit 2]

theorem handling_consistent_overlapping :
    ∃ state, (machine ℕ ℕ ℕ).run emptyState overlappingPatches = some state ∧
      state.table.rows 7 =
        some ⟨.read, some 10, some 100, true, some 20, some 200⟩ ∧
      ∀ row ∈ state.table.rows 7,
        (row.status = .read ↔ row.readBy.isSome ∧ row.readAt.isSome) ∧
          (row.verified = true ↔
            row.verifiedBy.isSome ∧ row.verifiedAt.isSome) := by
  have hempty : (machine ℕ ℕ ℕ).Reachable emptyState :=
    .initial ⟨⟨fun _ => none, rfl, by simp⟩, fun _ => rfl⟩
  have hrow : ((machine ℕ ℕ ℕ).run emptyState overlappingPatches).bind
      (fun state => state.table.rows 7) =
        some ⟨.read, some 10, some 100, true, some 20, some 200⟩ := rfl
  obtain ⟨state, hrun, hstate⟩ := Option.bind_eq_some_iff.mp hrow
  exact ⟨state, hrun, hstate, handling_consistent (hempty.run hrun) 7⟩

end Machine

end NotifyHub.Handling
