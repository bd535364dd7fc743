import NotifyHub.CronSearch
import NotifyHub.WallClock
import Mathlib.Tactic

/-!
# Cron expressions in a time zone

From the search for a local time to the instants of the preview.  A zone enters
as its offset from UTC at every instant.  Two loops of the source have no bound
of their own, and run here for a number of rounds: the search for a local time
which exists, and the repeated search after a local time which does not.
-/

namespace NotifyHub.Cron

/-- `offsetAt` of a zone. -/
abbrev Offsets := ℤ → ℤ

def utc : Offsets := fun _ => 0

structure Moment where
  wall : ℤ
  instant : ℤ
  offset : ℤ
  deriving DecidableEq

def momentAt (offsetAt : Offsets) (instant : ℤ) : Moment :=
  ⟨instant + offsetAt instant, instant, offsetAt instant⟩

/-- The instants of a local time, in ascending order. -/
def instantsOf (offsetAt : Offsets) (wall : ℤ) : List ℤ :=
  let offsets := [offsetAt (wall - dayMs), offsetAt wall, offsetAt (wall + dayMs)]
  ((offsets.filter fun offset => offsetAt (wall - offset) = offset).map
    (wall - ·)).dedup.insertionSort (· ≤ ·)

/-- The next local time which exists, minute by minute, and its first
instant. -/
def moveOn (offsetAt : Offsets) : ℕ → ℤ → Option (ℤ × ℤ)
  | 0, _ => none
  | rounds + 1, wall =>
      match instantsOf offsetAt (wall + minuteMs) with
      | [] => moveOn offsetAt rounds (wall + minuteMs)
      | instant :: _ => some (wall + minuteMs, instant)

/-- The moment of a local time, and whether the local time exists. -/
structure Zoned where
  moment : Moment
  exists_ : Bool
  deriving DecidableEq

/-- Of several instants the first one counts, or the last one if the first one
does not come after `now`. -/
def chosenInstant (now first : ℤ) (rest : List ℤ) : ℤ :=
  if rest ≠ [] ∧ ¬now < first then rest.getLastD first else first

def addTimezone (offsetAt : Offsets) (rounds : ℕ) (wall : ℤ) (now : Moment) :
    Option Zoned :=
  match instantsOf offsetAt wall with
  | [] =>
      (moveOn offsetAt rounds wall).map fun moved =>
        ⟨⟨moved.1, moved.2, moved.1 - moved.2⟩, false⟩
  | first :: rest =>
      let instant := chosenInstant now.instant first rest
      some ⟨⟨wall, instant, wall - instant⟩, true⟩

/-- A computation with the exceptions of the source, and with no value where the
rounds are used up. -/
abbrev CronM := ExceptT CronError Option

def ofSearch (result : Except CronError ℤ) : CronM ℤ :=
  ExceptT.mk (some result)

def ofRounds {α : Type} (result : Option α) : CronM α :=
  ExceptT.mk (result.map .ok)

/-- A computation ends with a value. -/
def Returns {α : Type} (computation : CronM α) (value : α) : Prop :=
  computation.run = some (.ok value)

section Returns

variable {α β : Type} {value : α} {result : β}

theorem returns_pure {other : α} : Returns (pure value) other ↔ value = other := by
  constructor
  · intro hreturns
    cases hreturns
    rfl
  · rintro rfl
    rfl

theorem returns_bind
    {computation : CronM α} {next : α → CronM β} :
    Returns (computation >>= next) result ↔
      ∃ value, Returns computation value ∧ Returns (next value) result := by
  unfold Returns
  rw [ExceptT.run_bind]
  cases computation.run with
  | none => simp
  | some ended =>
      cases ended with
      | error error => simp
      | ok value => simp

theorem returns_ofSearch {found : Except CronError ℤ} {wall : ℤ} :
    Returns (ofSearch found) wall ↔ found = .ok wall :=
  Option.some_inj

theorem returns_ofRounds {ended : Option α} :
    Returns (ofRounds ended) value ↔ ended = some value := by
  cases ended with
  | none => simp [Returns, ofRounds]
  | some other => simp [Returns, ofRounds]

end Returns

/-- The search is repeated until a local time exists. -/
def searchExisting
    (offsetAt : Offsets) (rounds : ℕ) (now : Moment) (fields : CronFields)
    (schedule : CronSchedule) : ℕ → ℤ → CronM Moment
  | 0, _ => ofRounds none
  | left + 1, wall => do
      let wall ← ofSearch (searchWall wall fields schedule)
      let zoned ← ofRounds (addTimezone offsetAt rounds wall now)
      if zoned.exists_ then pure zoned.moment
      else searchExisting offsetAt rounds now fields schedule left wall

/-- The first occurrence of a search. -/
def firstMoment
    (offsetAt : Offsets) (rounds : ℕ) (now : Moment) (fields : CronFields)
    (schedule : CronSchedule) : CronM Moment := do
  let wall ← ofSearch (searchWall now.wall fields schedule)
  let zoned ← ofRounds (addTimezone offsetAt rounds wall now)
  if zoned.exists_ = false ∧
      (¬now.instant < zoned.moment.instant ∨ .star ∈ fields.hour) then
    searchExisting offsetAt rounds now fields schedule rounds wall
  else pure zoned.moment

/-- The occurrence which a search with the other offset finds. -/
def alternativeMoment
    (offsetAt : Offsets) (rounds : ℕ) (now : Moment) (fields : CronFields)
    (schedule : CronSchedule) (offsetDelta : ℤ) : CronM Moment := do
  let wall ← ofSearch (searchWall (now.wall + offsetDelta) fields schedule)
  let zoned ← ofRounds (addTimezone offsetAt rounds wall now)
  pure zoned.moment

def calcAware
    (offsetAt : Offsets) (rounds : ℕ) (now : Moment) (fields : CronFields)
    (schedule : CronSchedule) : CronM Moment := do
  let moment ← firstMoment offsetAt rounds now fields schedule
  let offsetDelta := moment.offset - now.offset
  if offsetDelta = 0 then pure moment
  else do
    let alternative ←
      alternativeMoment offsetAt rounds now fields schedule offsetDelta
    if ¬now.instant < alternative.instant then pure moment
    else if alternative.instant < moment.instant then pure alternative
    else pure moment

def nextFireAfter
    (offsetAt : Offsets) (rounds : ℕ) (schedule : CronSchedule) (instant : ℤ) :
    CronM ℤ := do
  let now := momentAt offsetAt instant
  let fields := schedule.fields
  if .star ∉ fields.day ∧ .star ∉ fields.dow then do
    let byDay ←
      calcAware offsetAt rounds now { fields with dow := [.star] } schedule
    let byWeekday ←
      calcAware offsetAt rounds now { fields with day := [.star] } schedule
    pure (if byDay.wall < byWeekday.wall then byDay else byWeekday).instant
  else do
    let moment ← calcAware offsetAt rounds now fields schedule
    pure moment.instant

/-- The dates of the preview until `count` are there or an exception ends
them. -/
def executionsAfter
    (offsetAt : Offsets) (rounds : ℕ) (schedule : CronSchedule) :
    ℕ → ℤ → Option (List ℤ)
  | 0, _ => some []
  | count + 1, cursor =>
      match (nextFireAfter offsetAt rounds schedule cursor).run with
      | none => none
      | some (.error _) => some []
      | some (.ok next) =>
          (executionsAfter offsetAt rounds schedule count next).map (next :: ·)

def nextCronExecutions
    (lower : Text → Text) (offsetAt : Offsets) (rounds : ℕ) (expression : Text)
    (now : ℤ) (count : ℕ) : Option (List ℤ) :=
  match expandSchedule lower (trim expression) with
  | .error _ => some []
  | .ok schedule => executionsAfter offsetAt rounds schedule count now

/-! ## Validation -/

def cronMaxChars : ℕ := 100

def emptyMessage : Text :=
  "L'espressione cron è vuota.".toList

def tooLongMessage : Text :=
  "L'espressione cron supera ".toList ++ natText cronMaxChars ++
    " caratteri.".toList

def randomMessage : Text :=
  ("H e R (valore casuale) non sono ammessi: la sorveglianza ha bisogno di " ++
    "un orario fisso, scrivi il minuto e l'ora esatti.").toList

/-- The message of `validateCronExpression` at the time of a clock; the outer
option has no value where the rounds are used up. -/
def validateCronExpression
    (lower : Text → Text) (rounds : ℕ) (clock : ℤ) (expression : Text) :
    Option (Option Text) :=
  let candidate := trim expression
  if candidate = [] then some (some emptyMessage)
  else if cronMaxChars < candidate.length then some (some tooLongMessage)
  else if (splitSpaces candidate).length ≠ 5 then some (some fiveFieldsMessage)
  else
    match expandSchedule lower candidate with
    | .error .random => some (some randomMessage)
    | .error _ =>
        some (some ("Espressione cron non valida: ".toList ++ candidate))
    | .ok schedule =>
        (nextFireAfter utc rounds schedule clock).run.map fun result =>
          match result with
          | .ok _ => none
          | .error _ =>
              some ("L'espressione cron non scatta mai: ".toList ++ candidate)

end NotifyHub.Cron
