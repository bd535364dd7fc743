import NotifyHub.BinaryRounding
import NotifyHub.OutboundFormatters
import NotifyHub.WrapperBody
import Mathlib.Tactic

/-!
# Durations as texts

The dashboard writes a duration like the messages and the wrapper, and an
interval like the notifications of an absence.  Its numbers have 53 binary
digits, and its divisions are rounded before `Math.floor`.
-/

namespace NotifyHub

/-- `format_seconds` of `app.services.surveillance`. -/
def formatSeconds (total : ℤ) : Text :=
  if total < 60 then (toString total).toList ++ ['s']
  else
    let minutes := total.toNat / 60
    let seconds := total.toNat % 60
    if minutes < 60 then
      Formatter.natText minutes ++ 'm' :: padded 2 seconds ++ ['s']
    else
      let hours := minutes / 60
      let minutes := minutes % 60
      if hours < 24 then
        Formatter.natText hours ++ 'h' :: padded 2 minutes ++ ['m']
      else
        let days := hours / 24
        let hours := hours % 24
        if hours ≠ 0 then
          Formatter.natText days ++ 'g' :: padded 2 hours ++ ['h']
        else Formatter.natText days ++ ['g']

namespace Dashboard

/-! ## The numbers of the dashboard -/

/-- `Math.trunc`. -/
def trunc (number : ℚ) : ℤ :=
  if number < 0 then ⌈number⌉ else ⌊number⌋

/-- `Math.floor(number / divisor)`. -/
def floorDivide (number divisor : ℕ) : ℕ :=
  ⌊Rounding.roundTo 53 (number / divisor)⌋.toNat

/-- `String` of a number below 2 ^ 53. -/
def numberText (number : ℕ) : Text :=
  Nat.toDigits 10 number

/-- `padStart(width, "0")`. -/
def padStart (width : ℕ) (text : Text) : Text :=
  List.replicate (width - text.length) '0' ++ text

/-- `formatDurationMs`. -/
def formatDurationMs (ms : ℚ) : Text :=
  let total := (max (trunc ms) 0).toNat
  let seconds := floorDivide total 1000
  if seconds < 60 then
    numberText seconds ++ '.' :: padStart 3 (numberText (total % 1000)) ++ ['s']
  else
    let hours := floorDivide seconds 3600
    let minutes := floorDivide (seconds % 3600) 60
    let rest := seconds % 60
    let pad value := padStart 2 (numberText value)
    if 0 < hours then
      numberText hours ++ 'h' :: pad minutes ++ 'm' :: pad rest ++ ['s']
    else numberText minutes ++ 'm' :: pad rest ++ ['s']

/-- `formatIntervalSeconds`. -/
def formatIntervalSeconds (seconds : ℚ) : Text :=
  let total := (max (trunc seconds) 0).toNat
  if total < 60 then numberText total ++ ['s']
  else
    let minutes := floorDivide total 60
    if minutes < 60 then
      numberText minutes ++ 'm' :: padStart 2 (numberText (total % 60)) ++ ['s']
    else
      let hours := floorDivide minutes 60
      if hours < 24 then
        numberText hours ++ 'h' :: padStart 2 (numberText (minutes % 60)) ++ ['m']
      else
        let days := floorDivide hours 24
        let restHours := hours % 24
        if restHours ≠ 0 then
          numberText days ++ 'g' :: padStart 2 (numberText restHours) ++ ['h']
        else numberText days ++ ['g']

section Numbers

variable {number divisor width : ℕ}

theorem trunc_natCast (number : ℕ) : trunc number = number := by
  rw [trunc, if_neg (not_lt.mpr (Nat.cast_nonneg number)), Int.floor_natCast]

theorem floorDivide_eq (hlt : number < 2 ^ 53) (hdivisor : 0 < divisor) :
    floorDivide number divisor = number / divisor := by
  rw [floorDivide, Rounding.floor_roundTo_div 53 hlt hdivisor, Int.toNat_natCast]

theorem numberText_ten_le (hten : 10 ≤ number) :
    numberText number =
      numberText (number / 10) ++ [NotifyHub.digitChar (number % 10)] := by
  have hdigit : ∀ digit < 10, Nat.digitChar digit = NotifyHub.digitChar digit := by
    decide
  rw [numberText, Nat.toDigits_of_base_le (by decide) hten,
    hdigit _ (Nat.mod_lt _ (by decide)), numberText]

theorem numberText_lt_ten (hlt : number < 10) :
    numberText number = [NotifyHub.digitChar number] := by
  have hdigit : ∀ digit < 10, Nat.digitChar digit = NotifyHub.digitChar digit := by
    decide
  rw [numberText, Nat.toDigits_of_lt_base hlt, hdigit number hlt]

theorem padded_zero (width : ℕ) : padded width 0 = List.replicate width '0' := by
  induction width with
  | zero => rfl
  | succ width ih =>
      rw [padded, Nat.zero_div, ih, List.replicate_succ']
      rfl

/-- A number of a fixed width is the number with zeros before it. -/
theorem padded_eq_padStart (hwidth : 0 < width) (hlt : number < 10 ^ width) :
    padded width number = padStart width (numberText number) := by
  induction width generalizing number with
  | zero => cases hwidth
  | succ width ih =>
      rw [padded]
      rcases lt_or_ge number 10 with hsmall | hten
      · rw [Nat.div_eq_of_lt hsmall, padded_zero, Nat.mod_eq_of_lt hsmall,
          numberText_lt_ten hsmall]
        rfl
      · have hquotient : number / 10 < 10 ^ width :=
          Nat.div_lt_of_lt_mul (by rwa [pow_succ, mul_comm] at hlt)
        have hpos : 0 < width := by
          rcases Nat.eq_zero_or_pos width with rfl | hpos
          · omega
          · exact hpos
        rw [ih hpos hquotient, numberText_ten_le hten, padStart, padStart,
          List.length_append, List.length_singleton, Nat.add_sub_add_right,
          List.append_assoc]

end Numbers

end Dashboard

/-! ## The three texts -/

section Texts

open Dashboard

theorem formatter_natText (number : ℕ) :
    Formatter.natText number = numberText number :=
  Nat.toList_repr

theorem wrapper_padded (width number : ℕ) :
    Wrapper.padded width number = padStart width (numberText number) :=
  rfl

theorem padded_two {number : ℕ} (hlt : number < 60) :
    padded 2 number = padStart 2 (numberText number) :=
  padded_eq_padStart (by decide) (hlt.trans (by decide))

theorem formatDurationMs_eq_human (ms : ℕ) :
    Formatter.formatDurationMs ms = Wrapper.humanDuration ms := by
  have htotal : (max (ms : ℤ) 0).toNat = ms := by omega
  have hmillis : padded 3 (ms % 1000) = padStart 3 (numberText (ms % 1000)) :=
    padded_eq_padStart (by decide) (Nat.mod_lt _ (by decide))
  have hminutes := padded_two
    (show ms / 1000 % 3600 / 60 < 60 by omega)
  have hseconds : ms / 1000 % 3600 % 60 = ms / 1000 % 60 := by omega
  have hrest := padded_two (show ms / 1000 % 60 < 60 by omega)
  simp only [Formatter.formatDurationMs, Wrapper.humanDuration, htotal, hmillis,
    hminutes, hseconds, hrest, formatter_natText, wrapper_padded,
    Nat.pos_iff_ne_zero]
  rfl

theorem formatDurationMs_eq_human_dashboard {ms : ℕ} (hms : ms < 2 ^ 53) :
    Dashboard.formatDurationMs ms = Wrapper.humanDuration ms := by
  have htotal : (max (trunc ms) 0).toNat = ms := by
    rw [trunc_natCast]
    omega
  have hseconds := floorDivide_eq hms (show 0 < 1000 by decide)
  have hhours : floorDivide (ms / 1000) 3600 = ms / 1000 / 3600 :=
    floorDivide_eq (by omega) (by decide)
  have hminutes : floorDivide (ms / 1000 % 3600) 60 = ms / 1000 % 3600 / 60 :=
    floorDivide_eq (by omega) (by decide)
  simp only [Dashboard.formatDurationMs, Wrapper.humanDuration, htotal, hseconds,
    hhours, hminutes, wrapper_padded]
  rfl

theorem formatSeconds_eq_interval {seconds : ℕ} (hseconds : seconds < 2 ^ 53) :
    formatSeconds seconds = formatIntervalSeconds seconds := by
  have htotal : (max (trunc seconds) 0).toNat = seconds := by
    rw [trunc_natCast]
    omega
  have hshort : ((seconds : ℤ) < 60) ↔ seconds < 60 := by omega
  have hminutes := floorDivide_eq hseconds (show 0 < 60 by decide)
  have hhours : floorDivide (seconds / 60) 60 = seconds / 60 / 60 :=
    floorDivide_eq (by omega) (by decide)
  have hdays : floorDivide (seconds / 60 / 60) 24 = seconds / 60 / 60 / 24 :=
    floorDivide_eq (by omega) (by decide)
  have hpadSeconds := padded_two (show seconds % 60 < 60 by omega)
  have hpadMinutes := padded_two (show seconds / 60 % 60 < 60 by omega)
  have hpadHours := padded_two (show seconds / 60 / 60 % 24 < 60 by omega)
  have htext : (toString (seconds : ℤ)).toList = numberText seconds :=
    Nat.toList_repr
  simp only [formatSeconds, formatIntervalSeconds, htotal, hshort, hminutes,
    hhours, hdays, hpadSeconds, hpadMinutes, hpadHours, htext,
    Int.toNat_natCast, formatter_natText]

/-- The messages, the dashboard and the wrapper write a duration alike, and the
notifications of an absence and the dashboard an interval. -/
theorem durations_read_alike :
    (∀ ms : ℕ, ms ≤ 2 ^ 53 - 1 →
      Formatter.formatDurationMs ms = Dashboard.formatDurationMs ms ∧
        Dashboard.formatDurationMs ms = Wrapper.humanDuration ms) ∧
      ∀ seconds : ℕ, seconds ≤ 2 ^ 53 - 1 →
        formatSeconds seconds = formatIntervalSeconds seconds := by
  constructor
  · intro ms hms
    have hdashboard := formatDurationMs_eq_human_dashboard
      (show ms < 2 ^ 53 by omega)
    exact ⟨(formatDurationMs_eq_human ms).trans hdashboard.symm, hdashboard⟩
  · intro seconds hseconds
    exact formatSeconds_eq_interval (by omega)

theorem durations_read_alike_twoHours :
    Formatter.formatDurationMs (7265004 : ℕ) =
        Dashboard.formatDurationMs (7265004 : ℕ) ∧
      formatSeconds (90061 : ℕ) = formatIntervalSeconds (90061 : ℕ) :=
  ⟨(durations_read_alike.1 7265004 (by decide)).1,
    durations_read_alike.2 90061 (by decide)⟩

end Texts

end NotifyHub
