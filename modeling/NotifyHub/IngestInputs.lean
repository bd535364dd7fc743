import NotifyHub.ExpectedSchedule
import Mathlib.Tactic

/-!
# Headers and body of an ingestion

Whatever the sender writes becomes values which the columns of a notification
can hold: a header which cannot be read is ignored, and a byte which is not
UTF-8 is replaced.
-/

namespace NotifyHub.Ingestion

/-! ## Headers -/

/-- The value of a header, whose bytes are read as latin-1. -/
abbrev HeaderValue := { text : Text // ∀ char ∈ text, char.toNat < 256 }

/-- Digits with single underscores between them. -/
def decimalDigits : Text → Option (List ℕ)
  | [] => none
  | [char] => if char.isDigit then some [char.toNat - 48] else none
  | char :: '_' :: rest =>
      if char.isDigit then
        (decimalDigits rest).map fun digits => (char.toNat - 48) :: digits
      else none
  | char :: next :: rest =>
      if char.isDigit then
        (decimalDigits (next :: rest)).map fun digits =>
          (char.toNat - 48) :: digits
      else none

/-- `sys.int_info.default_max_str_digits`. -/
def maxStrDigits : ℕ := 4300

def unsignedInt (text : Text) : Option ℕ :=
  (decimalDigits text).bind fun digits =>
    if digits.length ≤ maxStrDigits then
      some (digits.foldl (fun value digit => value * 10 + digit) 0)
    else none

/-- `int` on a text without spaces around it, with no value for a
`ValueError`. -/
def pythonInt : Text → Option ℤ
  | '-' :: digits => (unsignedInt digits).map fun value => -(value : ℤ)
  | '+' :: digits => (unsignedInt digits).map fun value => (value : ℤ)
  | digits => (unsignedInt digits).map fun value => (value : ℤ)

def int32Min : ℤ := -(2 ^ 31)

def int32Max : ℤ := 2 ^ 31 - 1

def int64Max : ℤ := 2 ^ 63 - 1

/-- A header with an integer between two bounds. -/
def parseBounded (low high : ℤ) (value : Option HeaderValue) : Option ℤ :=
  value.bind fun header =>
    (pythonInt (strip header.val)).bind fun parsed =>
      if low ≤ parsed ∧ parsed ≤ high then some parsed else none

/-- `parse_exit_code`. -/
def parseExitCode (value : Option HeaderValue) : Option ℤ :=
  parseBounded int32Min int32Max value

/-- `parse_duration_ms`. -/
def parseDurationMs (value : Option HeaderValue) : Option ℤ :=
  parseBounded 0 int64Max value

/-- What is read fits the column. -/
theorem parseBounded_range
    {low high : ℤ} {value : Option HeaderValue} {parsed : ℤ}
    (hparsed : parseBounded low high value = some parsed) :
    low ≤ parsed ∧ parsed ≤ high := by
  obtain ⟨header, -, hheader⟩ := Option.bind_eq_some_iff.mp hparsed
  obtain ⟨number, -, hnumber⟩ := Option.bind_eq_some_iff.mp hheader
  by_cases hrange : low ≤ number ∧ number ≤ high
  · rw [if_pos hrange] at hnumber
    obtain rfl := Option.some.inj hnumber
    exact hrange
  · rw [if_neg hrange] at hnumber
    cases hnumber

example :
    parseExitCode (some ⟨" +1_30\t".toList, by decide⟩) = some 130 ∧
      parseExitCode (some ⟨"2147483648".toList, by decide⟩) = none := by
  decide +kernel

def phaseValue : NotificationPhase → Text
  | .start => "start".toList
  | .finish => "end".toList

/-- `parse_phase`; no letter of latin-1 outside ASCII becomes a letter of a
phase in lower case. -/
def parsePhase (value : Option HeaderValue) : Option NotificationPhase :=
  value.bind fun header =>
    [.start, .finish].find? fun phase : NotificationPhase =>
      phaseValue phase = (strip header.val).map Char.toLower

/-! ## Body -/

/-- A character whose first bytes have been read: its bits so far, how many
bytes are missing after the next one, and where the next one has to lie. -/
structure PendingChar where
  bits : ℕ
  further : ℕ
  low : ℕ
  high : ℕ

/-- The first byte of a character of several bytes. -/
def leadByte (byte : ℕ) : Option PendingChar :=
  if 0xC2 ≤ byte ∧ byte ≤ 0xDF then some ⟨byte - 0xC0, 0, 0x80, 0xBF⟩
  else if byte = 0xE0 then some ⟨0, 1, 0xA0, 0xBF⟩
  else if byte = 0xED then some ⟨0xD, 1, 0x80, 0x9F⟩
  else if 0xE1 ≤ byte ∧ byte ≤ 0xEF then some ⟨byte - 0xE0, 1, 0x80, 0xBF⟩
  else if byte = 0xF0 then some ⟨0, 2, 0x90, 0xBF⟩
  else if 0xF1 ≤ byte ∧ byte ≤ 0xF3 then some ⟨byte - 0xF0, 2, 0x80, 0xBF⟩
  else if byte = 0xF4 then some ⟨4, 2, 0x80, 0x8F⟩
  else none

/-- A byte between two characters. -/
def startChar (byte : ℕ) : List (Option Char) × Option PendingChar :=
  if byte < 0x80 then ([some (Char.ofNat byte)], none)
  else
    match leadByte byte with
    | some pending => ([], some pending)
    | none => ([none], none)

/-- A byte after some others; a character which it cannot continue is given up,
and the byte is read again. -/
def decodeByte (byte : ℕ) :
    Option PendingChar → List (Option Char) × Option PendingChar
  | none => startChar byte
  | some pending =>
      if pending.low ≤ byte ∧ byte ≤ pending.high then
        let bits := pending.bits * 64 + (byte - 0x80)
        match pending.further with
        | 0 => ([some (Char.ofNat bits)], none)
        | further + 1 => ([], some ⟨bits, further, 0x80, 0xBF⟩)
      else (none :: (startChar byte).1, (startChar byte).2)

/-- UTF-8, with no character where an error is replaced. -/
def utf8Decode : Option PendingChar → List UInt8 → List (Option Char)
  | none, [] => []
  | some _, [] => [none]
  | pending, byte :: rest =>
      (decodeByte byte.toNat pending).1 ++
        utf8Decode (decodeByte byte.toNat pending).2 rest

def nul : Char := Char.ofNat 0

def replacementChar : Char := Char.ofNat 0xFFFD

/-- `normalize_body`. -/
def normalizeBody (raw : List UInt8) : Text × Bool :=
  let decoded := utf8Decode none raw
  let text := decoded.map fun char => char.getD replacementChar
  (text.filter (· ≠ nul), decoded.contains none || text.contains nul)

/-- Postgres takes the text of any body. -/
theorem nul_notMem_normalizeBody (raw : List UInt8) :
    nul ∉ (normalizeBody raw).1 := by
  simp [normalizeBody]

/-- An overlong form, a surrogate and a body cut off after two bytes. -/
example :
    normalizeBody [0x61, 0xC0, 0x80, 0xE2, 0x82, 0xAC, 0, 0xED, 0xA0, 0xE2, 0x82]
      = ("a\uFFFD\uFFFD€\uFFFD\uFFFD\uFFFD".toList, true) := by
  decide +kernel

end NotifyHub.Ingestion
