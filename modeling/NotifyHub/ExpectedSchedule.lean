import NotifyHub.DomainTypes
import Mathlib.Tactic

/-!
# Expected schedules

The calculation of `app.services.surveillance`: when the wait of a watched
receiver ends.  The cron library and the database of time zones are not part
of the repository and enter as a `ScheduleLibrary`.
-/

namespace NotifyHub

/-- What `croniter` and `zoneinfo` answer.  `getNext` takes the expression,
the zone and the start; its error is the text of an exception which the
service catches.  `reprText` is the `repr` of a text. -/
structure ScheduleLibrary where
  cronIsValid : Text → Bool
  getNext : Text → Text → Instant → Except Text Instant
  zoneExists : Text → Bool
  reprText : Text → Text

/-- The exceptions which a calculation of this module can end with. -/
inductive ScheduleError
  | invalidSchedule (message : Text)
  | overflow
  | assertion
  deriving DecidableEq, Repr

/-- The policy of a receiver. -/
structure ExpectedSchedule where
  graceSeconds : ℤ
  severity : Severity
  everySeconds : Option ℤ
  cron : Option Text
  timezone : Option Text
  deriving DecidableEq, Repr

def defaultTimezone : Text := "UTC".toList

def cronFields : ℕ := 5

def cronMaxChars : ℕ := 100

/-! ## Validation -/

/-- `str.isspace`. -/
def isSpace (c : Char) : Bool :=
  ('\t' ≤ c && c ≤ '\r') || ('\x1c' ≤ c && c ≤ ' ') ||
    [0x85, 0xa0, 0x1680, 0x2028, 0x2029, 0x202f, 0x205f, 0x3000].contains
      c.toNat ||
    (0x2000 ≤ c.toNat && c.toNat ≤ 0x200a)

/-- `str.split()`. -/
def splitFields (text : Text) : List Text :=
  (text.splitOnP isSpace).filter (· ≠ [])

/-- `str.strip()`. -/
def strip (text : Text) : Text :=
  ((text.dropWhile isSpace).reverse.dropWhile isSpace).reverse

theorem mem_of_mem_strip {text : Text} {c : Char} (hmem : c ∈ strip text) :
    c ∈ text := by
  have hfront := (List.dropWhile_sublist _).mem (List.mem_reverse.mp hmem)
  exact (List.dropWhile_sublist _).mem (List.mem_reverse.mp hfront)

/-- An element of a field which is an extension of croniter. -/
def isRandomOrHash (item : Text) : Bool :=
  match item with
  | [] => false
  | c :: _ => ['h', 'H', 'r', 'R'].contains c

/-- The error is the text of the `InvalidScheduleError`. -/
def validateCron
    (library : ScheduleLibrary) (expression : Text) (now : Instant) :
    Except Text Text :=
  let candidate := strip expression
  let fields := splitFields candidate
  let invalid :=
    "espressione cron non valida: ".toList ++ library.reprText candidate
  if candidate = [] then
    .error "l'espressione cron è vuota".toList
  else if cronMaxChars < candidate.length then
    .error ("l'espressione cron supera ".toList ++
      Nat.toDigits 10 cronMaxChars ++ " caratteri".toList)
  else if fields.length ≠ cronFields then
    .error ("l'espressione cron deve avere 5 campi ".toList ++
      "(minuto ora giorno mese giorno-settimana), ".toList ++
      "come in crontab: ricevuti ".toList ++
      Nat.toDigits 10 fields.length)
  else if fields.any fun field =>
      (field.splitOn ',').any isRandomOrHash then
    .error (invalid ++
      " (H e R non sono cron standard: scrivi valori espliciti)".toList)
  else if library.cronIsValid candidate = false then
    .error invalid
  else
    match library.getNext candidate defaultTimezone now with
    | .ok _ => .ok candidate
    | .error message =>
        .error ("l'espressione cron non scatta mai: ".toList ++
          library.reprText candidate ++ " (".toList ++ message ++
          ")".toList)

def validateTimezone (library : ScheduleLibrary) (name : Text) :
    Except Text Text :=
  let candidate := strip name
  if candidate = [] then
    .error "il fuso orario è vuoto".toList
  else if library.zoneExists candidate then .ok candidate
  else
    .error
      ("fuso orario sconosciuto: ".toList ++ library.reprText candidate)

/-! ## The end of the wait -/

/-- `datetime + timedelta`, as a step of a calculation. -/
def addOrOverflow (moment : Instant) (delta : Duration) :
    Except ScheduleError Instant :=
  match datetimeAdd moment delta with
  | some sum => .ok sum
  | none => .error .overflow

def nextFireAfter
    (library : ScheduleLibrary) (cron : Text) (timezone : Option Text)
    (moment : Instant) : Except ScheduleError Instant :=
  let zone := timezone.getD defaultTimezone
  match library.getNext cron zone moment with
  | .ok following => .ok following
  | .error message =>
      .error (.invalidSchedule ("attesa non calcolabile (cron=".toList ++
        library.reprText cron ++ ", fuso=".toList ++ library.reprText zone ++
        "): ".toList ++ message))

def alertDeadline
    (library : ScheduleLibrary) (schedule : ExpectedSchedule)
    (reference : Instant) : Except ScheduleError Instant :=
  let grace := timedeltaSeconds schedule.graceSeconds
  match schedule.cron with
  | none =>
      match schedule.everySeconds with
      | none => .error .assertion
      | some everySeconds => do
          let following ←
            addOrOverflow reference (timedeltaSeconds everySeconds)
          addOrOverflow following grace
  | some cron => do
      let following ← nextFireAfter library cron schedule.timezone reference
      addOrOverflow following grace

/-- `get_next` does not go back from its start. -/
def ScheduleLibrary.Advances (library : ScheduleLibrary) : Prop :=
  ∀ cron zone moment following,
    library.getNext cron zone moment = .ok following → moment ≤ following

theorem addOrOverflow_eq_ok
    {moment sum : Instant} {delta : Duration}
    (hsum : addOrOverflow moment delta = .ok sum) : sum = moment + delta := by
  unfold addOrOverflow at hsum
  split at hsum
  · next hadd =>
      rw [← Except.ok.inj hsum]
      exact (datetimeAdd_eq_some_iff.mp hadd).2
  · contradiction

theorem nextFireAfter_le
    {library : ScheduleLibrary} (hlibrary : library.Advances)
    {cron : Text} {timezone : Option Text} {moment following : Instant}
    (hnext : nextFireAfter library cron timezone moment = .ok following) :
    moment ≤ following := by
  unfold nextFireAfter at hnext
  simp only at hnext
  split at hnext
  · next hget =>
      rw [← Except.ok.inj hnext]
      exact hlibrary _ _ _ _ hget
  · contradiction

/-- The wait does not end before it starts. -/
theorem alertDeadline_le
    {library : ScheduleLibrary} (hlibrary : library.Advances)
    {schedule : ExpectedSchedule} {reference deadline : Instant}
    (hgrace : 0 ≤ schedule.graceSeconds)
    (hevery : ∀ everySeconds, schedule.everySeconds = some everySeconds →
      0 ≤ everySeconds)
    (hdeadline : alertDeadline library schedule reference = .ok deadline) :
    reference ≤ deadline := by
  have hgraceTime : 0 ≤ timedeltaSeconds schedule.graceSeconds :=
    mul_nonneg hgrace (by decide)
  unfold alertDeadline at hdeadline
  simp only at hdeadline
  split at hdeadline
  · split at hdeadline
    · contradiction
    · next everySeconds heverySeconds =>
        have heveryTime : 0 ≤ timedeltaSeconds everySeconds :=
          mul_nonneg (hevery everySeconds heverySeconds) (by decide)
        cases hfollowing :
            addOrOverflow reference (timedeltaSeconds everySeconds) with
        | error error =>
            rw [hfollowing] at hdeadline
            contradiction
        | ok following =>
            rw [hfollowing] at hdeadline
            rw [addOrOverflow_eq_ok hdeadline, addOrOverflow_eq_ok hfollowing]
            exact le_add_of_le_of_nonneg
              (le_add_of_nonneg_right heveryTime) hgraceTime
  · next cron _ =>
      cases hfollowing :
          nextFireAfter library cron schedule.timezone reference with
      | error error =>
          rw [hfollowing] at hdeadline
          contradiction
      | ok following =>
          rw [hfollowing] at hdeadline
          have hadvance := nextFireAfter_le hlibrary hfollowing
          rw [addOrOverflow_eq_ok hdeadline]
          exact le_add_of_le_of_nonneg hadvance hgraceTime

end NotifyHub
