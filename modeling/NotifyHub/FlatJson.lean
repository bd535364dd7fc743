import Mathlib.Tactic

/-!
# Flat JSON objects

The part of Python's `json.dumps` and `json.loads` needed for objects whose
members are printable texts and counts.  `dumps` writes the default
separators; a `PlainText` carries the proof that none of its characters is
escaped, so writing it is copying it.  `loads` reads exactly this layout back.
-/

namespace NotifyHub
namespace FlatJson

/-- Printable ASCII other than the quote and the backslash. -/
def plainChar (c : Char) : Bool :=
  decide (32 ≤ c.toNat) && decide (c.toNat < 127) && c != '"' && c != '\\'

/-- A text which the encoder copies without an escape. -/
structure PlainText where
  chars : List Char
  plain : ∀ c ∈ chars, plainChar c = true
  deriving DecidableEq

inductive Scalar
  | str (text : PlainText)
  | int (number : ℕ)
  deriving DecidableEq

/-- The members of an object, in insertion order. -/
abbrev Record := List (PlainText × Scalar)

def quoted (text : PlainText) : List Char := '"' :: (text.chars ++ ['"'])

def writeScalar : Scalar → List Char
  | .str text => quoted text
  | .int number => Nat.toDigits 10 number

def writeField (field : PlainText × Scalar) : List Char :=
  quoted field.1 ++ (':' :: ' ' :: writeScalar field.2)

def writeFields : Record → List Char
  | [] => ['}']
  | [field] => writeField field ++ ['}']
  | field :: next :: rest =>
      writeField field ++ (',' :: ' ' :: writeFields (next :: rest))

def dumps (record : Record) : List Char := '{' :: writeFields record

/-! ## Reading -/

/-- Read up to and including the closing quote. -/
def readPlain : List Char → Option (PlainText × List Char)
  | [] => none
  | c :: rest =>
      if c = '"' then some (⟨[], by simp⟩, rest)
      else if hplain : plainChar c = true then
        (readPlain rest).map fun parsed =>
          (⟨c :: parsed.1.chars, by
            intro d hd
            rcases List.mem_cons.mp hd with rfl | hd
            · exact hplain
            · exact parsed.1.plain d hd⟩, parsed.2)
      else none

def readScalar : List Char → Option (Scalar × List Char)
  | [] => none
  | c :: rest =>
      if c = '"' then
        (readPlain rest).map fun parsed => (.str parsed.1, parsed.2)
      else if c.isDigit then
        some (.int (Nat.ofDigitChars 10 ((c :: rest).takeWhile Char.isDigit) 0),
          (c :: rest).dropWhile Char.isDigit)
      else none

def readField : List Char → Option ((PlainText × Scalar) × List Char)
  | '"' :: rest =>
      match readPlain rest with
      | some (name, ':' :: ' ' :: value) =>
          (readScalar value).map fun parsed => ((name, parsed.1), parsed.2)
      | _ => none
  | _ => none

/-- Read members up to the closing brace; every member consumes fuel. -/
def readFields : ℕ → List Char → Option (Record × List Char)
  | 0, _ => none
  | fuel + 1, input =>
      match readField input with
      | some (field, '}' :: rest) => some ([field], rest)
      | some (field, ',' :: ' ' :: rest) =>
          (readFields fuel rest).map fun parsed =>
            (field :: parsed.1, parsed.2)
      | _ => none

def loads : List Char → Option Record
  | '{' :: rest =>
      if rest = ['}'] then some []
      else
        match readFields rest.length rest with
        | some (record, []) => some record
        | _ => none
  | _ => none

/-! ## Round trip -/

theorem plainChar_ne_quote {c : Char} (hplain : plainChar c = true) :
    c ≠ '"' := by
  rintro rfl
  simp [plainChar] at hplain

theorem readPlain_quoted (text : PlainText) (tail : List Char) :
    readPlain (text.chars ++ '"' :: tail) = some (text, tail) := by
  obtain ⟨chars, plain⟩ := text
  induction chars with
  | nil => simp [readPlain]
  | cons c rest ih =>
      have hhead : plainChar c = true := plain c List.mem_cons_self
      have hrest : ∀ d ∈ rest, plainChar d = true := fun d hd =>
        plain d (List.mem_cons_of_mem c hd)
      have htail := ih hrest
      simp only at htail ⊢
      simp [readPlain, plainChar_ne_quote hhead, hhead, htail]

theorem toDigits_cons (number : ℕ) :
    ∃ c rest, Nat.toDigits 10 number = c :: rest ∧ c.isDigit = true := by
  cases hdigits : Nat.toDigits 10 number with
  | nil => exact (Nat.toDigits_ne_nil hdigits).elim
  | cons c rest =>
      refine ⟨c, rest, rfl, ?_⟩
      exact Nat.isDigit_of_mem_toDigits (b := 10) (n := number)
        (by omega) (by omega) (by simp [hdigits])

theorem takeWhile_toDigits
    (number : ℕ) {stop : Char} (hstop : stop.isDigit = false)
    (tail : List Char) :
    (Nat.toDigits 10 number ++ stop :: tail).takeWhile Char.isDigit =
        Nat.toDigits 10 number ∧
      (Nat.toDigits 10 number ++ stop :: tail).dropWhile Char.isDigit =
        stop :: tail := by
  have hall : ∀ c ∈ Nat.toDigits 10 number, c.isDigit = true := fun c hc =>
    Nat.isDigit_of_mem_toDigits (by omega) (by omega) hc
  constructor
  · rw [List.takeWhile_append_of_pos hall]
    simp [hstop]
  · rw [List.dropWhile_append_of_pos hall]
    simp [hstop]

theorem readScalar_writeScalar
    (value : Scalar) {stop : Char} (hstop : stop.isDigit = false)
    (tail : List Char) :
    readScalar (writeScalar value ++ stop :: tail) =
      some (value, stop :: tail) := by
  cases value with
  | str text =>
      have hread := readPlain_quoted text (stop :: tail)
      simp [writeScalar, quoted, readScalar, hread]
  | int number =>
      obtain ⟨c, rest, hdigits, hdigit⟩ := toDigits_cons number
      obtain ⟨htake, hdrop⟩ := takeWhile_toDigits number hstop tail
      have hquote : c ≠ '"' := by
        rintro rfl
        simp at hdigit
      have hvalue := Nat.ofDigitChars_toDigits (b := 10) (n := number)
        (by omega) (by omega)
      simp only [writeScalar]
      rw [hdigits, List.cons_append] at htake hdrop ⊢
      simp only [readScalar, hquote, hdigit, htake, hdrop, if_true, if_false]
      rw [← hdigits, hvalue]

theorem readField_writeField
    (field : PlainText × Scalar) {stop : Char}
    (hstop : stop.isDigit = false) (tail : List Char) :
    readField (writeField field ++ stop :: tail) =
      some (field, stop :: tail) := by
  have hname := readPlain_quoted field.1
    (':' :: ' ' :: (writeScalar field.2 ++ stop :: tail))
  have hvalue := readScalar_writeScalar field.2 hstop tail
  simp [writeField, quoted, readField, hname, hvalue]

/-- Members written one after the other are read back, whatever follows. -/
theorem readFields_writeFields
    (record : Record) (hnonempty : record ≠ [])
    (fuel : ℕ) (hfuel : record.length ≤ fuel) (tail : List Char) :
    readFields fuel (writeFields record ++ tail) = some (record, tail) := by
  induction record generalizing fuel with
  | nil => contradiction
  | cons field rest ih =>
      obtain ⟨fuel, rfl⟩ : ∃ less, fuel = less + 1 :=
        ⟨fuel - 1, by simp at hfuel; omega⟩
      cases rest with
      | nil =>
          have hfield := @readField_writeField field '}' (by decide) tail
          simp [writeFields, readFields, hfield]
      | cons next rest =>
          have hfield := @readField_writeField field ',' (by decide)
            (' ' :: (writeFields (next :: rest) ++ tail))
          have hrest := ih (by simp) fuel (by simpa using hfuel)
          simp [writeFields, readFields, hfield, hrest]

theorem length_le_writeFields (record : Record) :
    record.length ≤ (writeFields record).length := by
  induction record with
  | nil => simp
  | cons field rest ih =>
      cases rest with
      | nil => simp [writeFields]
      | cons next rest =>
          simp only [writeFields, List.length_append, List.length_cons] at ih ⊢
          omega

theorem writeFields_cons_eq (field : PlainText × Scalar) (rest : Record) :
    ∃ tail, writeFields (field :: rest) = '"' :: tail := by
  cases rest <;> simp [writeFields, writeField, quoted]

theorem loads_dumps (record : Record) : loads (dumps record) = some record := by
  cases record with
  | nil => rfl
  | cons field rest =>
      have hread := readFields_writeFields (field :: rest) (by simp)
        (writeFields (field :: rest)).length
        (length_le_writeFields (field :: rest)) []
      obtain ⟨tail, htail⟩ := writeFields_cons_eq field rest
      rw [List.append_nil, htail] at hread
      have hmembers : '"' :: tail ≠ ['}'] := by simp
      rw [dumps, htail]
      simp only [loads, hmembers, if_false, hread]

end FlatJson
end NotifyHub
