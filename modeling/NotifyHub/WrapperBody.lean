import NotifyHub.WrapperRequests
import Mathlib.Data.List.DropRight
import Mathlib.Tactic

/-!
# The body which the wrapper sends

The header, the output of the command and the lines in between, cut to
`--max-bytes`.  The script counts in the 64 bits of bash, which reads a number
with a leading zero in base eight.
-/

namespace NotifyHub.Wrapper

abbrev Bytes := List UInt8

def ascii (text : Text) : Bytes :=
  text.map fun char => UInt8.ofNat char.toNat

@[simp] theorem length_ascii (text : Text) :
    (ascii text).length = text.length :=
  List.length_map _

/-! ## The arithmetic of the shell -/

/-- `is_uint`. -/
def isUint (text : Text) : Bool :=
  text ≠ [] && text.all Char.isDigit

/-- A value of `--max-bytes` which the script accepts. -/
structure MaxBytes where
  text : Text
  isUint : Wrapper.isUint text = true

/-- The number of bytes which the text asks for. -/
def MaxBytes.bytes (maxBytes : MaxBytes) : ℕ :=
  Nat.ofDigitChars 10 maxBytes.text 0

def wrap64 (value : ℤ) : ℤ :=
  (value + 2 ^ 63) % 2 ^ 64 - 2 ^ 63

/-- The value of digits in `$((…))`, with no value for an error. -/
def bashInteger (digits : Text) : Option ℤ :=
  match digits with
  | '0' :: octal =>
      if octal.all (· < '8') then
        some (wrap64 (Nat.ofDigitChars 8 octal 0))
      else none
  | decimal => some (wrap64 (Nat.ofDigitChars 10 decimal 0))

/-! ## The header -/

inductive Signal
  | term
  | int
  | hup
  deriving DecidableEq

def Signal.name : Signal → Text
  | .term => "SIGTERM".toList
  | .int => "SIGINT".toList
  | .hup => "SIGHUP".toList

/-- What the script knows when the command has ended.  `bodyBefore` is what
`$body` expands to before it has been assigned. -/
structure FinishedCommand where
  jobName : Bytes
  commandLine : Bytes
  host : Bytes
  startedAt : Bytes
  interrupted : Option Signal
  hasTimeout : Bool
  rc : ℕ
  durationMs : ℕ
  output : Bytes
  bodyBefore : Bytes

/-- `printf '%02d'` and `printf '%03d'`. -/
def padded (width number : ℕ) : Text :=
  List.replicate (width - (natText number).length) '0' ++ natText number

def humanDuration (totalMs : ℕ) : Text :=
  let secs := totalMs / 1000
  if secs < 60 then natText secs ++ '.' :: padded 3 (totalMs % 1000) ++ ['s']
  else
    let hours := secs / 3600
    let mins := secs % 3600 / 60
    if 0 < hours then
      natText hours ++ 'h' :: padded 2 mins ++ 'm' :: padded 2 (secs % 60) ++ ['s']
    else natText mins ++ 'm' :: padded 2 (secs % 60) ++ ['s']

def FinishedCommand.esito (command : FinishedCommand) : Text :=
  match command.interrupted with
  | some signal => "interrotto-".toList ++ signal.name
  | none =>
      if command.rc = 0 then "ok".toList
      else if command.hasTimeout ∧ (command.rc = 124 ∨ command.rc = 137) then
        "timeout".toList
      else if command.rc = 127 then "comando-non-trovato".toList
      else "errore".toList

def FinishedCommand.header (command : FinishedCommand) : Bytes :=
  ascii "[notifyhub] job=".toList ++ command.jobName ++
    ascii (" esito=".toList ++ command.esito ++ " exit=".toList ++
      natText command.rc ++ " durata=".toList ++
      humanDuration command.durationMs ++ " (".toList ++
      natText command.durationMs ++ "ms) host=".toList) ++ command.host ++
    ascii " avvio=".toList ++ command.startedAt ++
    ascii "\n[notifyhub] comando: ".toList ++ command.commandLine

/-! ## The body -/

def noOutputLine : Bytes :=
  ascii "\n[notifyhub] il comando non ha prodotto output.".toList

def outputLine (outputBytes : ℕ) : Bytes :=
  ascii ("\n[notifyhub] output (".toList ++ natText outputBytes ++
    " byte):\n".toList)

def cutLine (dropped : ℕ) : Bytes :=
  ascii ("\n[notifyhub] ... ".toList ++ natText dropped ++
    " byte omessi ...\n".toList)

/-- `$(tr -d '\000')`: the shell drops the line feeds at the end. -/
def substituted (bytes : Bytes) : Bytes :=
  (bytes.filter (· ≠ 0)).rdropWhile (· = 10)

/-- The margin for the lines of the script. -/
def marginBytes : ℤ := 200

def outputBudget (maxBytes : ℤ) (headerBytes : ℕ) : ℕ :=
  (wrap64 (wrap64 (maxBytes - wrap64 headerBytes) - marginBytes)).toNat

def shown (budget : ℕ) (output : Bytes) : Bytes :=
  if output.length ≤ budget then substituted output
  else
    let half := budget / 2
    let dropped := output.length - 2 * half
    substituted (output.take half) ++ cutLine dropped ++
      substituted (output.drop (output.length - half))

/-- There is no body where the arithmetic fails. -/
def FinishedCommand.body? (command : FinishedCommand) (maxBytes : MaxBytes) : Option Bytes :=
  if command.output = [] then some (command.header ++ noOutputLine)
  else
    (bashInteger maxBytes.text).map fun value =>
      command.header ++ outputLine command.output.length ++
        shown (outputBudget value command.header.length) command.output

/-- `printf '%s' "$body"`. -/
def FinishedCommand.sentBody (command : FinishedCommand) (maxBytes : MaxBytes) : Bytes :=
  (command.body? maxBytes).getD command.bodyBefore

/-! ## Lengths -/

theorem length_natText_le {fewer more : ℕ} (hle : fewer ≤ more) :
    (natText fewer).length ≤ (natText more).length := by
  have hpos : 0 < (natText more).length := Nat.length_toDigits_pos
  have hmore : more < 10 ^ (natText more).length :=
    (Nat.length_toDigits_le_iff (by decide) hpos).mp (le_refl _)
  exact (Nat.length_toDigits_le_iff (by decide) hpos).mpr
    (Nat.lt_of_le_of_lt hle hmore)

theorem length_cutLine_le {fewer more : ℕ} (hle : fewer ≤ more) :
    (cutLine fewer).length ≤ (cutLine more).length := by
  have hdigits := length_natText_le hle
  simp only [cutLine, length_ascii, List.length_append]
  omega

theorem length_substituted_le (bytes : Bytes) :
    (substituted bytes).length ≤ bytes.length :=
  (List.rdropWhile_prefix _ _).length_le.trans (List.length_filter_le _ _)

theorem length_shown_le (budget : ℕ) (output : Bytes) :
    (shown budget output).length ≤
      budget + (cutLine output.length).length := by
  unfold shown
  split
  · next hfits =>
      have hwhole := length_substituted_le output
      omega
  · next hcut =>
      have hhead := length_substituted_le (output.take (budget / 2))
      have htail := length_substituted_le
        (output.drop (output.length - budget / 2))
      have hline : (cutLine (output.length - 2 * (budget / 2))).length ≤
          (cutLine output.length).length :=
        length_cutLine_le (Nat.sub_le _ _)
      simp only [List.length_take, List.length_drop] at hhead htail
      simp only [List.length_append]
      omega

/-- Without a budget the line of the cut is all that is shown. -/
theorem shown_zero {output : Bytes} (hsome : output ≠ []) :
    shown 0 output = cutLine output.length := by
  have hcut : ¬output.length ≤ 0 := by
    rw [Nat.le_zero, List.length_eq_zero_iff]
    exact hsome
  rw [shown, if_neg hcut]
  simp [substituted]

/-- The margin is enough for the lines of the script. -/
theorem length_lines_le {outputBytes : ℕ} (hsize : outputBytes < 2 ^ 62) :
    (outputLine outputBytes).length + (cutLine outputBytes).length ≤ 200 := by
  have hdigits : (natText outputBytes).length ≤ 19 :=
    (Nat.length_toDigits_le_iff (by decide) (by decide)).mpr
      (hsize.trans (by decide))
  have hfixed : ("\n[notifyhub] output (".toList.length +
      " byte):\n".toList.length) + ("\n[notifyhub] ... ".toList.length +
      " byte omessi ...\n".toList.length) = 63 := by
    decide
  simp only [outputLine, cutLine, length_ascii, List.length_append]
  omega

/-! ## The budget -/

theorem ofDigitChars_le
    (digits : Text) {fewer more : ℕ} (hle : fewer ≤ more) :
    Nat.ofDigitChars 8 digits fewer ≤ Nat.ofDigitChars 10 digits more := by
  induction digits generalizing fewer more with
  | nil => exact hle
  | cons digit rest ih =>
      refine ih (Nat.add_le_add_right ?_ _)
      omega

/-- The shell works with no more than the text asks for, up to the 64 bits. -/
theorem exists_of_bashInteger
    {maxBytes : MaxBytes} {value : ℤ}
    (hvalue : bashInteger maxBytes.text = some value) :
    ∃ number : ℕ, value = wrap64 number ∧ number ≤ maxBytes.bytes := by
  unfold bashInteger at hvalue
  unfold MaxBytes.bytes
  split at hvalue
  · next octal htext =>
      split at hvalue
      · refine ⟨_, (Option.some.inj hvalue).symm, ?_⟩
        rw [htext]
        exact ofDigitChars_le octal (le_refl 0)
      · cases hvalue
  · exact ⟨_, (Option.some.inj hvalue).symm, le_refl _⟩

theorem outputBudget_le
    {number headerBytes : ℕ} (hheader : headerBytes < 2 ^ 62)
    (hpos : 0 < outputBudget (wrap64 number) headerBytes) :
    headerBytes + 200 + outputBudget (wrap64 number) headerBytes ≤ number := by
  unfold outputBudget wrap64 marginBytes at hpos ⊢
  omega

/-! ## The bound -/

/-- A run on a machine: the header is held in memory and the output in a file,
and neither has as many as 2 ^ 62 bytes. -/
structure ShellRun extends FinishedCommand where
  header_lt : toFinishedCommand.header.length < 2 ^ 62
  output_lt : output.length < 2 ^ 62

/-- The header and the lines of the script are no longer than `--max-bytes`;
where the shell cannot read the number, what was in `$body` before is not. -/
def FinishedCommand.LinesFit
    (command : FinishedCommand) (maxBytes : MaxBytes) : Prop :=
  if command.output = [] then
    command.header.length + noOutputLine.length ≤ maxBytes.bytes
  else
    match bashInteger maxBytes.text with
    | none => command.bodyBefore.length ≤ maxBytes.bytes
    | some _ =>
        command.header.length + (outputLine command.output.length).length +
          (cutLine command.output.length).length ≤ maxBytes.bytes

theorem body_within_iff (run : ShellRun) (maxBytes : MaxBytes) :
    (run.sentBody maxBytes).length ≤ maxBytes.bytes ↔
      run.LinesFit maxBytes := by
  unfold FinishedCommand.sentBody FinishedCommand.body?
    FinishedCommand.LinesFit
  by_cases hsilent : run.output = []
  · rw [if_pos hsilent, if_pos hsilent, Option.getD_some, List.length_append]
  rw [if_neg hsilent, if_neg hsilent]
  cases hvalue : bashInteger maxBytes.text with
  | none => rfl
  | some value =>
      obtain ⟨number, hnumber, hle⟩ := exists_of_bashInteger hvalue
      rw [Option.map_some, Option.getD_some, List.length_append,
        List.length_append, hnumber]
      rcases Nat.eq_zero_or_pos
        (outputBudget (wrap64 number) run.header.length) with hzero | hpos
      · rw [hzero, shown_zero hsilent]
      · have hbudget := outputBudget_le run.header_lt hpos
        have hshown := length_shown_le
          (outputBudget (wrap64 number) run.header.length) run.output
        have hlines := length_lines_le run.output_lt
        have hfits : run.header.length +
            (outputLine run.output.length).length +
              (cutLine run.output.length).length ≤ maxBytes.bytes := by
          omega
        exact iff_of_true (by omega) hfits

/-- A command line of two thousand bytes. -/
def longCommand (output : Bytes) : FinishedCommand where
  jobName := ascii "backup".toList
  commandLine := List.replicate 2000 120
  host := ascii "db1".toList
  startedAt := ascii "2026-01-01T03:00:00+00:00".toList
  interrupted := none
  hasTimeout := false
  rc := 0
  durationMs := 1500
  output := output
  bodyBefore := []

theorem body_exceeds_limit :
    (∃ (run : ShellRun) (maxBytes : MaxBytes),
      run.toFinishedCommand = longCommand [] ∧ maxBytes.bytes = 1000 ∧
        2000 < (run.sentBody maxBytes).length) ∧
    ∃ (run : ShellRun) (maxBytes : MaxBytes),
      run.toFinishedCommand = longCommand (ascii "ok\n".toList) ∧
        maxBytes.bytes = 1000 ∧ 2000 < (run.sentBody maxBytes).length := by
  constructor
  · refine ⟨⟨longCommand [], by decide +kernel, by decide +kernel⟩,
      ⟨"1000".toList, by decide⟩, rfl, by decide, ?_⟩
    decide +kernel
  · refine ⟨⟨longCommand (ascii "ok\n".toList), by decide +kernel,
      by decide +kernel⟩, ⟨"1000".toList, by decide⟩, rfl, by decide, ?_⟩
    decide +kernel

end NotifyHub.Wrapper
