import NotifyHub.CursorText
import NotifyHub.RotatedFiles
import Mathlib.Tactic

/-!
# Rotating logs

The log of a service is a file with a number of backups.  A line which would
make the file too long goes to a new file.  Opening, moving and writing may fail
at any line, the container may be restarted at any time, and the files then
still hold an unbroken end of all that was written.
-/

namespace NotifyHub.LogRotation

open RotatedFiles

/-! ## The log -/

/-- `RotatingLog`; the handle is that of the newest file. -/
structure RotatingLog where
  maxBytes : ℤ
  backups : ℤ
  opened : Bool
  size : ℕ

/-- The log and the files at its path: the newest one, and those with a number
behind the name. -/
structure State where
  log : RotatingLog
  files : Files UInt8

/-- The operations which raise an `OSError` while a line is written, and how
many bytes of the line are in the file when writing it does. -/
structure Faults where
  opens : Bool
  replaces : ℕ → Bool
  unlinks : Bool
  reopens : Bool
  written : Option ℕ

def Faults.never : Faults := ⟨false, fun _ => false, false, false, none⟩

/-- `_open`. -/
def openFile (fails : Bool) (state : State) : State :=
  if fails then { state with log := { state.log with opened := false } }
  else
    { log :=
        { state.log with
          opened := true, size := (content state.files 0).length }
      files := Function.update state.files 0 (some (content state.files 0)) }

/-- `RotatingLog(path, max_bytes, backups)`. -/
def init (maxBytes backups : ℤ) (files : Files UInt8) (fails : Bool) : State :=
  openFile fails ⟨⟨maxBytes, backups, false, 0⟩, files⟩

/-- The moves of `_rotate`, with the file closed. -/
def moveFiles (backups : ℤ) (faults : Faults) (files : Files UInt8) :
    Files UInt8 :=
  match shift faults.replaces (backups - 1).toNat files with
  | .error files => files
  | .ok files =>
      if 0 < backups then
        if faults.replaces 0 || (files 0).isNone then files
        else rename files 0 1
      else if faults.unlinks then files
      else Function.update files 0 none

/-- `_rotate`. -/
def rotate (faults : Faults) (state : State) : State :=
  if state.log.opened then
    openFile faults.reopens
      ⟨{ state.log with opened := false },
        moveFiles state.log.backups faults state.files⟩
  else state

/-- The line with its end, in bytes. -/
def encoded (line : Text) : List UInt8 := utf8Encode (line ++ ['\n'])

/-- `handle.write` and `flush`; after an error the file is closed. -/
def append (faults : Faults) (line : Text) (state : State) : State :=
  match faults.written with
  | none =>
      { log := { state.log with size := state.log.size + (encoded line).length }
        files := Function.update state.files 0
          (some (content state.files 0 ++ encoded line)) }
  | some count =>
      { log := { state.log with opened := false }
        files := Function.update state.files 0
          (some (content state.files 0 ++ (encoded line).take count)) }

def needsRotation (line : Text) (state : State) : Prop :=
  0 < state.log.maxBytes ∧
    state.log.maxBytes < state.log.size + (encoded line).length

instance (line : Text) (state : State) : Decidable (needsRotation line state) :=
  inferInstanceAs (Decidable (_ ∧ _))

/-- `write`. -/
def write (faults : Faults) (line : Text) (state : State) : State :=
  let state := if state.log.opened then state else openFile faults.opens state
  if state.log.opened then
    let state := if needsRotation line state then rotate faults state else state
    if state.log.opened then append faults line state else state
  else state

/-- What happens to a log: a line, or a start of the container, which makes a
new object for the files there are. -/
inductive Event
  | line (text : Text) (faults : Faults)
  | restart (fails : Bool)

def next (state : State) : Event → State
  | .line text faults => write faults text state
  | .restart fails =>
      init state.log.maxBytes state.log.backups state.files fails

def run (state : State) (events : List Event) : State :=
  events.foldl next state

/-! ## What a rotation keeps -/

section Moves

variable {backups : ℤ} {files : Files UInt8} {faults : Faults}

/-- Without backups the file is deleted. -/
theorem moveFiles_of_nonpos
    (hbackups : ¬0 < backups) :
    moveFiles backups faults files =
      if faults.unlinks then files else Function.update files 0 none := by
  have hzero : (backups - 1).toNat = 0 := by omega
  rw [moveFiles, hzero, shift]
  simp only [if_neg hbackups]

/-- With backups the newest file becomes the first one of them, if all moves
are made. -/
theorem moveFiles_of_pos
    (faults : Faults) (files : Files UInt8) {last : ℕ}
    (hbackups : backups = last + 1) :
    (∃ stopped, shift faults.replaces last files = .error stopped ∧
      moveFiles backups faults files = stopped) ∨
    ∃ moved, shift faults.replaces last files = .ok moved ∧
      moveFiles backups faults files =
        if faults.replaces 0 || (files 0).isNone then moved
        else rename moved 0 1 := by
  have hlast : (backups - 1).toNat = last := by omega
  have hpositive : 0 < backups := by omega
  have hnewest := shift_other faults.replaces files last 0 (.inl rfl)
  rw [moveFiles, hlast]
  cases hmoved : shift faults.replaces last files with
  | error stopped => exact .inl ⟨stopped, rfl, rfl⟩
  | ok moved =>
      rw [hmoved] at hnewest
      right
      refine ⟨moved, rfl, ?_⟩
      simp only [if_pos hpositive]
      rw [show moved 0 = files 0 from hnewest]

theorem moveFiles_other
    {number : ℕ} (hnumber : backups.toNat < number) :
    moveFiles backups faults files number = files number := by
  by_cases hpositive : 0 < backups
  · obtain ⟨last, rfl⟩ : ∃ last : ℕ, backups = last + 1 :=
      ⟨(backups - 1).toNat, by omega⟩
    have hshift := shift_other faults.replaces files last number (by omega)
    rcases moveFiles_of_pos faults files rfl with
      ⟨stopped, hstopped, hfiles⟩ | ⟨moved, hmoved, hfiles⟩
    · rw [hstopped] at hshift
      rw [hfiles]
      exact hshift
    · rw [hmoved] at hshift
      rw [hfiles]
      split
      next hfails => exact hshift
      next hmade =>
        rw [rename, if_neg (by omega), if_neg (by omega)]
        exact hshift
  · rw [moveFiles_of_nonpos hpositive]
    split
    next hfails => rfl
    next hmade => rw [Function.update_of_ne (by omega)]

/-- A rotation loses at most the oldest file. -/
theorem joined_moveFiles
    (backups : ℤ) (faults : Faults) (files : Files UInt8) :
    joined (moveFiles backups faults files) backups.toNat <:+
      joined files backups.toNat := by
  by_cases hpositive : 0 < backups
  · obtain ⟨last, rfl⟩ : ∃ last : ℕ, backups = last + 1 :=
      ⟨(backups - 1).toNat, by omega⟩
    have hlast : ((last : ℤ) + 1).toNat = last + 1 := rfl
    have hshift := joined_shift_last faults.replaces files last
    rw [hlast]
    rcases moveFiles_of_pos faults files rfl with
      ⟨stopped, hstopped, hfiles⟩ | ⟨moved, hmoved, hfiles⟩
    · rw [hstopped] at hshift
      rw [hfiles]
      exact hshift
    · rw [hmoved] at hshift
      rw [hfiles]
      split
      next hfails => exact hshift
      next hmade =>
        cases last with
        | zero =>
            rw [joined_rename_last]
            exact (joined_suffix_succ moved 0).trans hshift
        | succ last =>
            rw [joined_rename (shift_ok_first hmoved) (Nat.succ_pos _)]
            exact hshift
  · have hlast : backups.toNat = 0 := by omega
    rw [moveFiles_of_nonpos hpositive, hlast]
    split
    next hfails => exact List.suffix_rfl
    next hmade =>
      rw [joined, content, Function.update_self]
      exact List.nil_suffix

/-- A rotation makes no file. -/
theorem moveFiles_source
    {number : ℕ} {held : List UInt8}
    (hheld : moveFiles backups faults files number = some held) :
    ∃ source, files source = some held := by
  have hsource : ∀ {last number : ℕ} {result : Except _ _},
      shift faults.replaces last files = result →
        left result number = some held → ∃ source, files source = some held := by
    rintro last number result rfl hheld
    obtain ⟨source, -, hsource⟩ := shift_source faults.replaces hheld
    exact ⟨source, hsource⟩
  by_cases hpositive : 0 < backups
  · obtain ⟨last, rfl⟩ : ∃ last : ℕ, backups = last + 1 :=
      ⟨(backups - 1).toNat, by omega⟩
    rcases moveFiles_of_pos faults files rfl with
      ⟨stopped, hstopped, hfiles⟩ | ⟨moved, hmoved, hfiles⟩
    · rw [hfiles] at hheld
      exact hsource hstopped hheld
    · rw [hfiles] at hheld
      split at hheld
      next hfails => exact hsource hmoved hheld
      next hmade =>
        rw [rename] at hheld
        split at hheld
        next hzero => contradiction
        next hother =>
          split at hheld
          next hone => exact hsource hmoved hheld
          next hsame => exact hsource hmoved hheld
  · rw [moveFiles_of_nonpos hpositive] at hheld
    split at hheld
    next hfails => exact ⟨number, hheld⟩
    next hmade =>
      rw [Function.update_apply] at hheld
      split at hheld
      next hzero => contradiction
      next hother => exact ⟨number, hheld⟩

end Moves

/-! ## An unbroken end -/

/-- The files hold an end of what they held before, with some bytes more. -/
structure Moves (before after : State) (piece : List UInt8) : Prop where
  maxBytes : after.log.maxBytes = before.log.maxBytes
  backups : after.log.backups = before.log.backups
  kept : joined after.files before.log.backups.toNat <:+
    joined before.files before.log.backups.toNat ++ piece
  other : ∀ number, before.log.backups.toNat < number →
    after.files number = before.files number

section Steps

variable {state middle final : State} {first second : List UInt8}

theorem Moves.trans
    (hfirst : Moves state middle first) (hsecond : Moves middle final second) :
    Moves state final (first ++ second) where
  maxBytes := hsecond.maxBytes.trans hfirst.maxBytes
  backups := hsecond.backups.trans hfirst.backups
  kept := by
    have hkept := hsecond.kept
    rw [hfirst.backups] at hkept
    obtain ⟨lost, hlost⟩ := hfirst.kept
    refine hkept.trans ⟨lost, ?_⟩
    rw [← List.append_assoc, hlost, List.append_assoc]
  other number hnumber := by
    have hlater := hsecond.other number (hfirst.backups ▸ hnumber)
    exact hlater.trans (hfirst.other number hnumber)

theorem Moves.refl (state : State) : Moves state state [] where
  maxBytes := rfl
  backups := rfl
  kept := by rw [List.append_nil]
  other _ _ := rfl

theorem content_update_self (files : Files UInt8) (number : ℕ) :
    content (Function.update files 0 (some (content files 0))) number =
      content files number := by
  rw [content, Function.update_apply]
  split
  next hzero => rw [hzero]; rfl
  next hother => rfl

theorem content_openFile (fails : Bool) (state : State) (number : ℕ) :
    content (openFile fails state).files number =
      content state.files number := by
  cases fails with
  | true => rfl
  | false => exact content_update_self state.files number

theorem openFile_other
    (fails : Bool) (state : State) {number : ℕ} (hnumber : 0 < number) :
    (openFile fails state).files number = state.files number := by
  cases fails with
  | true => rfl
  | false => exact Function.update_of_ne (Nat.ne_of_gt hnumber) _ _

theorem moves_openFile (fails : Bool) (state : State) :
    Moves state (openFile fails state) [] where
  maxBytes := by cases fails <;> rfl
  backups := by cases fails <;> rfl
  kept := by
    rw [List.append_nil,
      joined_congr fun number _ => content_openFile fails state number]
  other _ hnumber := openFile_other fails state (Nat.zero_lt_of_lt hnumber)

theorem moves_rotate (faults : Faults) (state : State) :
    Moves state (rotate faults state) [] := by
  rw [rotate]
  split
  next hopened =>
    have hmoved : Moves state ⟨{ state.log with opened := false },
        moveFiles state.log.backups faults state.files⟩ [] :=
      { maxBytes := rfl
        backups := rfl
        kept := by
          rw [List.append_nil]
          exact joined_moveFiles state.log.backups faults state.files
        other := fun number hnumber => moveFiles_other hnumber }
    exact hmoved.trans (moves_openFile faults.reopens _)
  next hclosed => exact Moves.refl state

/-- The bytes of a line which are in the file at the end. -/
def Faults.piece (faults : Faults) (line : Text) : List UInt8 :=
  match faults.written with
  | none => encoded line
  | some count => (encoded line).take count

theorem append_files (faults : Faults) (line : Text) (state : State) :
    (append faults line state).files =
      Function.update state.files 0
        (some (content state.files 0 ++ faults.piece line)) := by
  rw [append, Faults.piece]
  cases faults.written <;> rfl

theorem moves_append (faults : Faults) (line : Text) (state : State) :
    Moves state (append faults line state) (faults.piece line) where
  maxBytes := by rw [append]; cases faults.written <;> rfl
  backups := by rw [append]; cases faults.written <;> rfl
  kept := by
    have hjoined : joined (append faults line state).files
        state.log.backups.toNat =
          joined state.files state.log.backups.toNat ++ faults.piece line := by
      apply joined_append
      · rw [append_files, content, Function.update_self, Option.getD_some]
      · intro number
        rw [append_files, content,
          Function.update_of_ne (Nat.succ_ne_zero number)]
        rfl
    rw [hjoined]
  other number hnumber := by
    rw [append_files, Function.update_of_ne (by omega)]

/-- The file which `write` writes to, if there is one. -/
def ready (faults : Faults) (state : State) : State :=
  if state.log.opened then state else openFile faults.opens state

def rotated (faults : Faults) (line : Text) (state : State) : State :=
  if needsRotation line state then rotate faults state else state

theorem write_eq (faults : Faults) (line : Text) (state : State) :
    write faults line state =
      if (ready faults state).log.opened then
        if (rotated faults line (ready faults state)).log.opened then
          append faults line (rotated faults line (ready faults state))
        else rotated faults line (ready faults state)
      else ready faults state := rfl

theorem moves_ready (faults : Faults) (state : State) :
    Moves state (ready faults state) [] := by
  rw [ready]
  split
  next hopened => exact Moves.refl state
  next hclosed => exact moves_openFile faults.opens state

theorem moves_rotated (faults : Faults) (line : Text) (state : State) :
    Moves state (rotated faults line state) [] := by
  rw [rotated]
  split
  next hneeds => exact moves_rotate faults state
  next hfits => exact Moves.refl state

theorem opened_openFile (state : State) :
    (openFile false state).log.opened = true := rfl

theorem opened_ready
    {faults : Faults} (hopens : faults.opens = false) (state : State) :
    (ready faults state).log.opened = true := by
  rw [ready]
  split
  next hopened => exact hopened
  next hclosed => rw [hopens, opened_openFile]

theorem opened_rotated
    {faults : Faults} (hreopens : faults.reopens = false) (line : Text)
    (hopened : state.log.opened = true) :
    (rotated faults line state).log.opened = true := by
  rw [rotated]
  split
  next hneeds => rw [rotate, if_pos hopened, hreopens, opened_openFile]
  next hfits => exact hopened

/-- The file can be opened, and the line written. -/
def Faults.Writes (faults : Faults) : Prop :=
  faults.opens = false ∧ faults.reopens = false ∧ faults.written = none

theorem write_of_writes
    {faults : Faults} (hwrites : faults.Writes) (line : Text) (state : State) :
    write faults line state =
      append faults line (rotated faults line (ready faults state)) := by
  have hready := opened_ready hwrites.1 state
  rw [write_eq, if_pos hready, if_pos (opened_rotated hwrites.2.1 line hready)]

/-- The bytes which an event adds to the log: a line, or a part of it when an
operation fails. -/
def Event.Adds (event : Event) (piece : List UInt8) : Prop :=
  match event with
  | .line text faults =>
      piece <+: encoded text ∧ (faults.Writes → piece = encoded text)
  | .restart _ => piece = []

theorem moves_write (faults : Faults) (line : Text) (state : State) :
    ∃ piece, (Event.line line faults).Adds piece ∧
      Moves state (write faults line state) piece := by
  have hready := moves_ready faults state
  have hrotated := hready.trans (moves_rotated faults line (ready faults state))
  have hwritten := hrotated.trans (moves_append faults line _)
  by_cases hwrites : faults.Writes
  · have hpiece : faults.piece line = encoded line := by
      rw [Faults.piece, hwrites.2.2]
    rw [write_of_writes hwrites]
    rw [hpiece] at hwritten
    exact ⟨encoded line, ⟨List.prefix_rfl, fun _ => rfl⟩, hwritten⟩
  · have hpiece : faults.piece line <+: encoded line := by
      rw [Faults.piece]
      cases faults.written with
      | none => exact List.prefix_rfl
      | some count => exact List.take_prefix count _
    rw [write_eq]
    split
    next hopened =>
      split
      next hstill =>
        exact ⟨_, ⟨hpiece, fun hnow => absurd hnow hwrites⟩, hwritten⟩
      next hlost =>
        exact ⟨[], ⟨List.nil_prefix, fun hnow => absurd hnow hwrites⟩, hrotated⟩
    next hclosed =>
      exact ⟨[], ⟨List.nil_prefix, fun hnow => absurd hnow hwrites⟩, hready⟩

theorem moves_next (state : State) (event : Event) :
    ∃ piece, event.Adds piece ∧ Moves state (next state event) piece := by
  cases event with
  | line text faults => exact moves_write faults text state
  | restart fails =>
      refine ⟨[], rfl, ?_⟩
      have hclosed : Moves state ⟨⟨state.log.maxBytes, state.log.backups, false,
          0⟩, state.files⟩ [] :=
        { maxBytes := rfl
          backups := rfl
          kept := by rw [List.append_nil]
          other := fun _ _ => rfl }
      exact hclosed.trans (moves_openFile fails _)

theorem moves_run (state : State) (events : List Event) :
    ∃ pieces, List.Forall₂ Event.Adds events pieces ∧
      Moves state (run state events) pieces.flatten := by
  induction events generalizing state with
  | nil => exact ⟨[], .nil, Moves.refl state⟩
  | cons event rest ih =>
      obtain ⟨piece, hadds, hstep⟩ := moves_next state event
      obtain ⟨pieces, hall, hrest⟩ := ih (next state event)
      exact ⟨piece :: pieces, .cons hadds hall, hstep.trans hrest⟩

end Steps

/-! ## The size of the files -/

/-- An open file is there, and the log knows its size. -/
def Sound (state : State) : Prop :=
  state.log.opened = true →
    state.files 0 ≠ none ∧ state.log.size = (content state.files 0).length

/-- No move fails. -/
def Faults.Rotates (faults : Faults) : Prop :=
  (∀ index, faults.replaces index = false) ∧ faults.unlinks = false

def Bounded (limit : ℕ) (files : Files UInt8) : Prop :=
  ∀ number, (content files number).length ≤ limit

section Sizes

variable {state : State} {faults : Faults} {line : Text} {limit : ℕ}

theorem sound_openFile (fails : Bool) (state : State) :
    Sound (openFile fails state) := by
  cases fails with
  | true => exact fun hopened => absurd hopened Bool.false_ne_true
  | false =>
      intro _
      constructor
      · simp [openFile]
      · exact congrArg List.length (content_openFile false state 0).symm

theorem sound_ready
    (faults : Faults) (hsound : Sound state) : Sound (ready faults state) := by
  rw [ready]
  split
  next hopened => exact hsound
  next hclosed => exact sound_openFile _ _

theorem sound_rotated
    (faults : Faults) (line : Text) (hsound : Sound state) :
    Sound (rotated faults line state) := by
  rw [rotated]
  split
  next hneeds =>
    rw [rotate]
    split
    next hopened => exact sound_openFile _ _
    next hclosed => exact hsound
  next hfits => exact hsound

theorem sound_append
    (hopened : state.log.opened = true) (hsound : Sound state) :
    Sound (append faults line state) := by
  rw [append]
  cases faults.written with
  | none =>
      intro _
      refine ⟨by simp, ?_⟩
      simp [content, (hsound hopened).2]
  | some count => exact fun hstill => absurd hstill Bool.false_ne_true

theorem sound_write (hsound : Sound state) :
    Sound (write faults line state) := by
  have hready := sound_ready faults hsound
  have hrotated := sound_rotated faults line hready
  rw [write_eq]
  split
  next hopened =>
    split
    next hstill => exact sound_append hstill hrotated
    next hlost => exact hrotated
  next hclosed => exact hready

theorem sound_next (hsound : Sound state) (event : Event) :
    Sound (next state event) := by
  cases event with
  | line text faults => exact sound_write hsound
  | restart fails => exact sound_openFile _ _

theorem bounded_openFile
    (hbounded : Bounded limit state.files) (fails : Bool) :
    Bounded limit (openFile fails state).files := by
  intro number
  rw [content_openFile]
  exact hbounded number

theorem moveFiles_newest
    (hrotates : faults.Rotates) {files : Files UInt8} (hfile : files 0 ≠ none)
    (backups : ℤ) : moveFiles backups faults files 0 = none := by
  by_cases hpositive : 0 < backups
  · obtain ⟨last, rfl⟩ : ∃ last : ℕ, backups = last + 1 :=
      ⟨(backups - 1).toNat, by omega⟩
    obtain ⟨moved, hmoved⟩ := shift_isOk hrotates.1 last files
    rcases moveFiles_of_pos faults files rfl with
      ⟨stopped, hstopped, -⟩ | ⟨other, -, hfiles⟩
    · rw [hmoved] at hstopped
      contradiction
    · rw [hfiles, hrotates.1, Bool.false_or,
        if_neg (by simpa [Option.isNone_iff_eq_none] using hfile), rename,
        if_pos rfl]
  · rw [moveFiles_of_nonpos hpositive, hrotates.2,
      if_neg Bool.false_ne_true, Function.update_self]

theorem bounded_moveFiles
    {files : Files UInt8} (hbounded : Bounded limit files) (backups : ℤ) :
    Bounded limit (moveFiles backups faults files) := by
  intro number
  cases hheld : moveFiles backups faults files number with
  | none => simp [content, hheld]
  | some held =>
      obtain ⟨source, hsource⟩ := moveFiles_source hheld
      have hlength := hbounded source
      rw [content, hsource] at hlength
      rw [content, hheld]
      exact hlength

/-- Before a line is written there is room for it. -/
theorem bounded_rotated
    (hrotates : faults.Rotates) (hsound : Sound state)
    (hopened : state.log.opened = true) (hpositive : 0 < state.log.maxBytes)
    (hmaximum : state.log.maxBytes ≤ limit)
    (hline : (encoded line).length ≤ limit)
    (hbounded : Bounded limit state.files) :
    Bounded limit (rotated faults line state).files ∧
      (content (rotated faults line state).files 0).length +
        (encoded line).length ≤ limit := by
  obtain ⟨hfile, hsize⟩ := hsound hopened
  rw [rotated]
  split
  next hneeds =>
    rw [rotate, if_pos hopened]
    refine ⟨bounded_openFile (bounded_moveFiles hbounded _) _, ?_⟩
    have hnewest := moveFiles_newest hrotates hfile state.log.backups
    rw [content_openFile, content, show State.files _ 0 = none from hnewest]
    simpa using hline
  next hfits =>
    refine ⟨hbounded, ?_⟩
    rw [needsRotation, not_and, not_lt] at hfits
    have hroom := hfits hpositive
    rw [hsize] at hroom
    omega

theorem bounded_append
    (hbounded : Bounded limit state.files)
    (hroom : (content state.files 0).length + (encoded line).length ≤ limit) :
    Bounded limit (append faults line state).files := by
  have hpiece : (faults.piece line).length ≤ (encoded line).length := by
    rw [Faults.piece]
    cases faults.written with
    | none => exact le_rfl
    | some count => exact List.length_take_le' _ _
  intro number
  rw [append_files, content, Function.update_apply]
  split
  next hzero =>
    rw [Option.getD_some, List.length_append]
    omega
  next hother => exact hbounded number

theorem bounded_write
    (hrotates : faults.Rotates) (hsound : Sound state)
    (hpositive : 0 < state.log.maxBytes)
    (hmaximum : state.log.maxBytes ≤ limit)
    (hline : (encoded line).length ≤ limit)
    (hbounded : Bounded limit state.files) :
    Bounded limit (write faults line state).files := by
  have hready : Bounded limit (ready faults state).files := by
    rw [ready]
    split
    next hopened => exact hbounded
    next hclosed => exact bounded_openFile hbounded _
  rw [write_eq]
  split
  next hopened =>
    have hsame := (moves_ready faults state).maxBytes
    obtain ⟨hrotated, hroom⟩ := bounded_rotated hrotates (sound_ready faults hsound)
      hopened (hsame ▸ hpositive) (hsame ▸ hmaximum) hline hready
    split
    next hstill => exact bounded_append hrotated hroom
    next hlost => exact hrotated
  next hclosed => exact hready

/-- A line of at most some bytes, for which the moves do not fail. -/
def Event.Fits (limit : ℕ) : Event → Prop
  | .line text faults => faults.Rotates ∧ (encoded text).length ≤ limit
  | .restart _ => True

theorem bounded_run
    {events : List Event} (hfits : ∀ event ∈ events, event.Fits limit)
    (hsound : Sound state) (hpositive : 0 < state.log.maxBytes)
    (hmaximum : state.log.maxBytes ≤ limit)
    (hbounded : Bounded limit state.files) :
    Bounded limit (run state events).files := by
  induction events generalizing state with
  | nil => exact hbounded
  | cons event rest ih =>
      obtain ⟨hfirst, hrest⟩ := List.forall_mem_cons.mp hfits
      obtain ⟨piece, -, hmoves⟩ := moves_next state event
      apply ih hrest (sound_next hsound event)
      · rw [hmoves.maxBytes]
        exact hpositive
      · rw [hmoves.maxBytes]
        exact hmaximum
      · cases event with
        | line text faults =>
            exact bounded_write hfirst.1 hsound hpositive hmaximum hfirst.2
              hbounded
        | restart fails =>
            rw [next, init]
            apply bounded_openFile
            exact hbounded

end Sizes

/-! ## How much is kept -/

/-- Nothing has been lost, or all the backups are there; and a backup lacks less
than one line of the maximum. -/
structure Retains (longest : ℕ) (written : List UInt8) (state : State) :
    Prop where
  sound : Sound state
  gapless : ∀ number, 0 < number → number < state.log.backups.toNat →
    state.files number = none → state.files (number + 1) = none
  long : ∀ number held, 0 < number → number ≤ state.log.backups.toNat →
    state.files number = some held → state.log.maxBytes < held.length + longest
  kept : joined state.files state.log.backups.toNat = written ∨
    ∀ number, 0 < number → number ≤ state.log.backups.toNat →
      state.files number ≠ none

section Retention

variable {state after : State} {longest : ℕ} {written : List UInt8}

/-- Whatever happens to the newest file. -/
theorem Retains.of_backups
    {piece : List UInt8} (hretains : Retains longest written state)
    (hsound : Sound after) (hmaxBytes : after.log.maxBytes = state.log.maxBytes)
    (hbackups : after.log.backups = state.log.backups)
    (hother : ∀ number, 0 < number →
      after.files number = state.files number)
    (hnewest : content after.files 0 = content state.files 0 ++ piece) :
    Retains longest (written ++ piece) after where
  sound := hsound
  gapless number hpositive hnumber hnone := by
    rw [hother number hpositive] at hnone
    rw [hother (number + 1) (Nat.succ_pos number)]
    rw [hbackups] at hnumber
    exact hretains.gapless number hpositive hnumber hnone
  long number held hpositive hnumber hheld := by
    rw [hother number hpositive] at hheld
    rw [hbackups] at hnumber
    rw [hmaxBytes]
    exact hretains.long number held hpositive hnumber hheld
  kept := by
    rw [hbackups]
    rcases hretains.kept with hall | hfull
    · left
      rw [joined_append hnewest, hall]
      intro number
      rw [content, hother (number + 1) (Nat.succ_pos number)]
      rfl
    · right
      intro number hpositive hnumber
      rw [hother number hpositive]
      exact hfull number hpositive hnumber

theorem retains_openFile
    (hretains : Retains longest written state) (fails : Bool) :
    Retains longest written (openFile fails state) := by
  have hmoves := moves_openFile fails state
  rw [← List.append_nil written]
  apply hretains.of_backups (sound_openFile fails state) hmoves.maxBytes
    hmoves.backups fun number hnumber => openFile_other fails state hnumber
  rw [content_openFile, List.append_nil]

/-- All moves made, each file has the next number. -/
theorem moveFiles_never
    {backups : ℤ} {files : Files UInt8} (hfile : files 0 ≠ none)
    (hgapless : ∀ number, 0 < number → number < backups.toNat →
      files number = none → files (number + 1) = none)
    {number : ℕ} (hnumber : number < backups.toNat) :
    moveFiles backups .never files (number + 1) = files number := by
  obtain ⟨last, rfl⟩ : ∃ last : ℕ, backups = last + 1 :=
    ⟨(backups - 1).toNat, by omega⟩
  have hlast : ((last : ℤ) + 1).toNat = last + 1 := rfl
  rw [hlast] at hgapless hnumber
  obtain ⟨moved, hmoved⟩ := shift_isOk (fun _ => rfl : ∀ index,
    Faults.never.replaces index = false) last files
  rcases moveFiles_of_pos .never files rfl with
    ⟨stopped, hstopped, -⟩ | ⟨other, hother, hfiles⟩
  · rw [hmoved] at hstopped
    contradiction
  · rw [hfiles]
    have hsome : (Faults.never.replaces 0 || (files 0).isNone) = false := by
      simpa [Faults.never, Option.isNone_eq_false_iff,
        Option.isSome_iff_ne_none] using hfile
    have hnewest := shift_other Faults.never.replaces files last 0 (.inl rfl)
    rw [hother] at hnewest
    rw [hsome, if_neg Bool.false_ne_true, rename, if_neg (Nat.succ_ne_zero _)]
    rcases Nat.eq_zero_or_pos number with rfl | hpositive
    · exact hnewest
    · rw [if_neg (by omega)]
      apply shift_ok hother _ hpositive (Nat.le_of_lt_succ hnumber)
      intro hnone
      rcases Nat.eq_zero_or_pos last with rfl | hsome
      · exact absurd hnone hfile
      · exact hgapless last hsome (Nat.lt_succ_self last) hnone

theorem joined_moveFiles_never
    {backups : ℤ} {files : Files UInt8} (hfile : files 0 ≠ none)
    (hgapless : ∀ number, 0 < number → number < backups.toNat →
      files number = none → files (number + 1) = none)
    (hbackups : 0 < backups.toNat) (hfree : files backups.toNat = none) :
    joined (moveFiles backups .never files) backups.toNat =
      joined files backups.toNat := by
  have hnext : ∀ number < backups.toNat,
      content (moveFiles backups .never files) (number + 1) =
        content files number := by
    intro number hnumber
    rw [content, moveFiles_never hfile hgapless hnumber]
    rfl
  have hnewest : content (moveFiles backups .never files) 0 = [] := by
    rw [content, moveFiles_newest ⟨fun _ => rfl, rfl⟩ hfile]
    rfl
  obtain ⟨last, hlast⟩ : ∃ last, backups.toNat = last + 1 :=
    ⟨backups.toNat - 1, by omega⟩
  rw [hlast] at hnext hfree ⊢
  rw [joined_next hnewest fun number hnumber =>
    hnext number (Nat.lt_succ_of_le hnumber), joined, content, hfree]
  rfl

/-- Without gaps the files above a missing one are missing. -/
theorem missing_of_gapless
    {files : Files UInt8} {last number : ℕ}
    (hgapless : ∀ number, 0 < number → number < last →
      files number = none → files (number + 1) = none)
    (hpositive : 0 < number) (hnumber : number ≤ last)
    (hnone : files number = none) : files last = none := by
  induction hnumber using Nat.decreasingInduction with
  | self => exact hnone
  | of_succ before hbefore ih =>
      exact ih (Nat.succ_pos before) (hgapless before hpositive hbefore hnone)

theorem retains_moveFiles
    (hretains : Retains longest written state)
    (hopened : state.log.opened = true)
    (hlong : state.log.maxBytes < state.log.size + longest) :
    Retains longest written
      ⟨{ state.log with opened := false },
        moveFiles state.log.backups .never state.files⟩ := by
  obtain ⟨hfile, hsize⟩ := hretains.sound hopened
  have hmoved : ∀ number < state.log.backups.toNat,
      moveFiles state.log.backups .never state.files (number + 1) =
        state.files number :=
    fun number hnumber => moveFiles_never hfile hretains.gapless hnumber
  constructor
  · exact fun hstill => absurd hstill Bool.false_ne_true
  · intro number hpositive hnumber hnone
    simp only at hnumber hnone ⊢
    obtain ⟨before, rfl⟩ := Nat.exists_eq_succ_of_ne_zero hpositive.ne'
    rw [hmoved before (by omega)] at hnone
    rw [hmoved (before + 1) hnumber]
    rcases Nat.eq_zero_or_pos before with rfl | hbefore
    · exact absurd hnone hfile
    · exact hretains.gapless before hbefore (by omega) hnone
  · intro number held hpositive hnumber hheld
    simp only at hnumber hheld ⊢
    obtain ⟨before, rfl⟩ := Nat.exists_eq_succ_of_ne_zero hpositive.ne'
    rw [hmoved before (by omega)] at hheld
    rcases Nat.eq_zero_or_pos before with rfl | hbefore
    · rw [content, hheld, Option.getD_some] at hsize
      rw [← hsize]
      exact hlong
    · exact hretains.long before held hbefore (by omega) hheld
  · rcases Nat.eq_zero_or_pos state.log.backups.toNat with hnone | hbackups
    · right
      intro number hpositive hnumber
      simp only at hnumber
      omega
    · by_cases hlost : (∀ number, 0 < number →
          number ≤ state.log.backups.toNat → state.files number ≠ none)
      · right
        intro number hpositive hnumber
        simp only at hnumber ⊢
        obtain ⟨before, rfl⟩ := Nat.exists_eq_succ_of_ne_zero hpositive.ne'
        rw [hmoved before (by omega)]
        rcases Nat.eq_zero_or_pos before with rfl | hbefore
        · exact hfile
        · exact hlost before hbefore (by omega)
      · left
        push Not at hlost
        obtain ⟨number, hpositive, hnumber, hnone⟩ := hlost
        have hfree := missing_of_gapless hretains.gapless hpositive hnumber hnone
        have hall := hretains.kept.resolve_right fun hfull =>
          hfull _ hbackups le_rfl hfree
        exact (joined_moveFiles_never hfile hretains.gapless hbackups
          hfree).trans hall

theorem retains_rotated
    {line : Text} (hretains : Retains longest written state)
    (hopened : state.log.opened = true)
    (hline : (encoded line).length ≤ longest) :
    Retains longest written (rotated .never line state) := by
  rw [rotated]
  split
  next hneeds =>
    rw [rotate, if_pos hopened]
    apply retains_openFile
    apply retains_moveFiles hretains hopened
    have hfull := hneeds.2
    omega
  next hfits => exact hretains

theorem retains_write
    {line : Text} (hretains : Retains longest written state)
    (hline : (encoded line).length ≤ longest) :
    Retains longest (written ++ encoded line) (write .never line state) := by
  have hwrites : Faults.never.Writes := ⟨rfl, rfl, rfl⟩
  have hready : Retains longest written (ready .never state) := by
    rw [ready]
    split
    next hopened => exact hretains
    next hclosed => exact retains_openFile hretains _
  have hopened := opened_ready hwrites.1 state
  have hrotated := retains_rotated hready hopened hline
  have hmoves := moves_append .never line
    (rotated .never line (ready .never state))
  rw [write_of_writes hwrites]
  apply hrotated.of_backups
    (sound_append (opened_rotated hwrites.2.1 line hopened) hrotated.sound)
    hmoves.maxBytes hmoves.backups
  · intro number hnumber
    rw [append_files, Function.update_of_ne (Nat.ne_of_gt hnumber)]
  · rw [append_files, content, Function.update_self]
    rfl

/-- A line of at most some bytes, without a fault. -/
def Event.Clean (longest : ℕ) : Event → Prop
  | .line text faults => faults = .never ∧ (encoded text).length ≤ longest
  | .restart _ => True

/-- The bytes of an event. -/
def Event.bytes : Event → List UInt8
  | .line text _ => encoded text
  | .restart _ => []

theorem retains_run
    {events : List Event} (hclean : ∀ event ∈ events, event.Clean longest)
    (hretains : Retains longest written state) :
    Retains longest (written ++ events.flatMap Event.bytes)
      (run state events) := by
  induction events generalizing state written with
  | nil =>
      rw [List.flatMap_nil, List.append_nil]
      exact hretains
  | cons event rest ih =>
      obtain ⟨hfirst, hrest⟩ := List.forall_mem_cons.mp hclean
      rw [List.flatMap_cons, ← List.append_assoc]
      apply ih hrest
      cases event with
      | line text faults =>
          obtain ⟨rfl, hlength⟩ := hfirst
          exact retains_write hretains hlength
      | restart fails =>
          rw [Event.bytes, List.append_nil, next, init]
          apply retains_openFile
          exact
            { sound := fun hstill => absurd hstill Bool.false_ne_true
              gapless := hretains.gapless
              long := hretains.long
              kept := hretains.kept }

theorem Retains.length_joined
    (hretains : Retains longest written state)
    (hlost : joined state.files state.log.backups.toNat ≠ written) :
    state.log.backups.toNat * (state.log.maxBytes + 1 - longest).toNat ≤
      (joined state.files state.log.backups.toNat).length := by
  apply RotatedFiles.length_joined
  intro number hpositive hnumber
  have hthere := hretains.kept.resolve_left hlost number hpositive hnumber
  obtain ⟨held, hheld⟩ := Option.ne_none_iff_exists'.mp hthere
  have hlong := hretains.long number held hpositive hnumber hheld
  rw [content, hheld, Option.getD_some]
  omega

end Retention

/-- Over any lines, faults and restarts: the files hold an unbroken end of what
they held and what was written since, a line being whole unless its file could
not be opened or written; files above the backups are left alone.  If no move
fails and the maximum is positive, no file grows beyond the larger of the maximum
and the longest line, provided none was at the start.  And without faults,
starting with no file, what is lost is lost to a full set of backups. -/
theorem logs_kept
    (maxBytes backups : ℤ) (files : Files UInt8) (fails : Bool)
    (events : List Event) :
    let final := run (init maxBytes backups files fails) events
    (∃ pieces, List.Forall₂ Event.Adds events pieces ∧
      joined final.files backups.toNat <:+
        joined files backups.toNat ++ pieces.flatten) ∧
    (∀ number, backups.toNat < number → final.files number = files number) ∧
    (∀ limit : ℕ, 0 < maxBytes → maxBytes ≤ limit →
      (∀ event ∈ events, event.Fits limit) → Bounded limit files →
        Bounded limit final.files) ∧
    ∀ longest : ℕ, (∀ event ∈ events, event.Clean longest) →
      (∀ number, files number = none) →
        joined final.files backups.toNat = events.flatMap Event.bytes ∨
          backups.toNat * (maxBytes + 1 - longest).toNat ≤
            (joined final.files backups.toNat).length := by
  intro final
  let start := init maxBytes backups files fails
  have hinit : Moves ⟨⟨maxBytes, backups, false, 0⟩, files⟩ start [] :=
    moves_openFile fails _
  obtain ⟨pieces, hadds, hrun⟩ := moves_run start events
  have hmoves := hinit.trans hrun
  have hsound : Sound start := sound_openFile fails _
  refine ⟨⟨pieces, hadds, hmoves.kept⟩, hmoves.other, ?_, ?_⟩
  · intro limit hpositive hmaximum hfits hbounded
    apply bounded_run hfits hsound
    · rw [hinit.maxBytes]
      exact hpositive
    · rw [hinit.maxBytes]
      exact hmaximum
    · exact bounded_openFile hbounded fails
  · intro longest hclean hempty
    have hretains : Retains longest [] start := by
      apply retains_openFile
      exact
        { sound := fun hstill => absurd hstill Bool.false_ne_true
          gapless := fun number _ _ _ => hempty (number + 1)
          long := fun number held _ _ hheld =>
            absurd (hheld.symm.trans (hempty number)) (Option.some_ne_none held)
          kept := .inl (joined_eq_nil hempty) }
    have hfinal := retains_run hclean hretains
    have hlength := hfinal.length_joined
    rw [show (run start events).log.backups = backups from hmoves.backups,
      show (run start events).log.maxBytes = maxBytes from hmoves.maxBytes]
      at hlength
    rw [or_iff_not_imp_left]
    exact hlength

/-! Five lines of two bytes, in files of four bytes with one backup. -/

def sampleEvents : List Event :=
  List.replicate 2 (.line ['a'] .never) ++ .restart false ::
    List.replicate 3 (.line ['b'] .never)

theorem sample_clean : ∀ event ∈ sampleEvents, event.Clean 2 := by
  intro event hevent
  simp only [sampleEvents, List.mem_append, List.mem_cons, List.mem_replicate]
    at hevent
  rcases hevent with ⟨-, rfl⟩ | rfl | ⟨-, rfl⟩
  · exact ⟨rfl, by decide⟩
  · trivial
  · exact ⟨rfl, by decide⟩

theorem logs_kept_fiveLines :
    Bounded 4 (run (init 4 1 (fun _ => none) false) sampleEvents).files ∧
      (joined (run (init 4 1 (fun _ => none) false) sampleEvents).files 1 =
          sampleEvents.flatMap Event.bytes ∨
        1 * (4 + 1 - 2 : ℤ).toNat ≤
          (joined (run (init 4 1 (fun _ => none) false) sampleEvents).files
            1).length) ∧
      joined (run (init 4 1 (fun _ => none) false) sampleEvents).files 1 =
        encoded ['b'] ++ encoded ['b'] ++ encoded ['b'] := by
  obtain ⟨-, -, hsizes, hlosses⟩ :=
    logs_kept 4 1 (fun _ => none) false sampleEvents
  refine ⟨?_, hlosses 2 sample_clean fun _ => rfl, by decide⟩
  apply hsizes 4 (by decide) (by decide)
  · intro event hevent
    have hclean := sample_clean event hevent
    cases event with
    | line text faults =>
        obtain ⟨rfl, hlength⟩ := hclean
        exact ⟨⟨fun _ => rfl, rfl⟩, hlength.trans (by decide)⟩
    | restart fails => trivial
  · exact fun number => Nat.zero_le 4

end NotifyHub.LogRotation
