import NotifyHub.DomainTypes
import Mathlib.Tactic

/-!
# Comma-separated values

Rows of fields as one text: a field with a comma, a quote or an end of line
stands in quotes, its own quotes doubled.  The reader goes through the text
letter by letter and accepts any end of line; it gives back the rows which were
written, whatever the fields hold.
-/

namespace NotifyHub.CsvText

/-! ## Writing -/

/-- The letters for which a field is quoted. -/
def special (char : Char) : Bool :=
  char = ',' || char = '"' || char = '\r' || char = '\n'

def doubled (char : Char) : Text :=
  if char = '"' then ['"', '"'] else [char]

def quotedField (field : Text) : Text :=
  '"' :: (field.flatMap doubled ++ ['"'])

/-- A field as `csv.writer` puts it with minimal quoting. -/
def writeField (field : Text) : Text :=
  if field.any special then quotedField field else field

def joinFields : List Text → Text
  | [] => []
  | [field] => writeField field
  | field :: next :: rest => writeField field ++ ',' :: joinFields (next :: rest)

/-- `writer.writerow`; a row of one empty field is not a blank line. -/
def writeRow (row : List Text) : Text :=
  (if row = [[]] then ['"', '"'] else joinFields row) ++ ['\r', '\n']

/-! ## Reading -/

/-- Where the reader is: before a row, after the carriage return which ended
one, before a field, in a field, in quotes, or after a quote in quotes. -/
inductive Mode
  | rowStart
  | rowEnded
  | fieldStart
  | plain
  | quoted
  | quoteSeen
  deriving DecidableEq, Repr

/-- The reader with the field and the row it is in, and the rows before. -/
structure Reader where
  mode : Mode
  field : Text
  row : List Text
  rows : List (List Text)
  deriving DecidableEq, Repr

namespace Reader

def start : Reader := ⟨.rowStart, [], [], []⟩

def add (reader : Reader) (mode : Mode) (char : Char) : Reader :=
  { reader with mode := mode, field := reader.field ++ [char] }

def saveField (reader : Reader) : Reader :=
  { reader with
    mode := .fieldStart, field := [], row := reader.row ++ [reader.field] }

/-- The end of a row, whose line feed may still come. -/
def saveRow (reader : Reader) (char : Char) : Reader :=
  { reader with
    mode := if char = '\r' then .rowEnded else .rowStart
    row := []
    rows := reader.rows ++ [reader.row] }

def endOfLine (char : Char) : Bool := char = '\r' || char = '\n'

/-- A letter which is not in quotes and does not open them. -/
def bare (reader : Reader) (char : Char) : Reader :=
  if char = ',' then reader.saveField
  else if endOfLine char then reader.saveField.saveRow char
  else reader.add .plain char

def opening (reader : Reader) (char : Char) : Reader :=
  if char = '"' then { reader with mode := .quoted } else reader.bare char

def step (reader : Reader) (char : Char) : Reader :=
  match reader.mode with
  | .rowStart =>
      if endOfLine char then reader.saveRow char else reader.opening char
  | .rowEnded =>
      if char = '\n' then { reader with mode := .rowStart }
      else if char = '\r' then reader.saveRow char
      else reader.opening char
  | .fieldStart => reader.opening char
  | .plain => reader.bare char
  | .quoted =>
      if char = '"' then { reader with mode := .quoteSeen }
      else reader.add .quoted char
  | .quoteSeen =>
      if char = '"' then reader.add .quoted char else reader.bare char

/-- The end of the text ends a row which has begun. -/
def finish (reader : Reader) : List (List Text) :=
  match reader.mode with
  | .rowStart => reader.rows
  | .rowEnded => reader.rows
  | _ => reader.rows ++ [reader.row ++ [reader.field]]

end Reader

def readRows (text : Text) : List (List Text) :=
  (text.foldl Reader.step .start).finish

/-! ## Reading what was written -/

namespace Reader

/-- The letters of a field which needs no quotes are read as they are. -/
theorem foldl_plain
    {field : Text} (hplain : field.any special = false) (read : Text)
    (row : List Text) (rows : List (List Text)) :
    field.foldl step ⟨.plain, read, row, rows⟩ =
      ⟨.plain, read ++ field, row, rows⟩ := by
  induction field generalizing read with
  | nil => simp
  | cons char rest ih =>
      rw [List.any_cons, Bool.or_eq_false_iff] at hplain
      have hstep : step ⟨.plain, read, row, rows⟩ char =
          ⟨.plain, read ++ [char], row, rows⟩ := by
        have hchar := hplain.1
        simp only [special, Bool.or_eq_false_iff, decide_eq_false_iff_not]
          at hchar
        obtain ⟨⟨⟨hcomma, -⟩, hreturn⟩, hfeed⟩ := hchar
        simp [step, bare, endOfLine, add, hcomma, hreturn, hfeed]
      rw [List.foldl_cons, hstep, ih hplain.2]
      simp

/-- A field in quotes, up to the closing quote. -/
theorem foldl_doubled
    (field read : Text) (row : List Text) (rows : List (List Text)) :
    (field.flatMap doubled).foldl step ⟨.quoted, read, row, rows⟩ =
      ⟨.quoted, read ++ field, row, rows⟩ := by
  induction field generalizing read with
  | nil => simp
  | cons char rest ih =>
      have hchar : (doubled char).foldl step ⟨.quoted, read, row, rows⟩ =
          ⟨.quoted, read ++ [char], row, rows⟩ := by
        by_cases hquote : char = '"'
        · subst hquote
          rfl
        · simp [doubled, step, add, hquote]
      rw [List.flatMap_cons, List.foldl_append, hchar, ih]
      simp

/-- The modes in which a field begins. -/
def Opens (mode : Mode) : Prop := mode = .rowStart ∨ mode = .fieldStart

/-- The reader when it has read a field: in it, after its closing quote, or
still before it when it is empty. -/
def HasRead (field : Text) (reader : Reader) : Prop :=
  reader.field = field ∧
    (reader.mode = .plain ∨ reader.mode = .quoteSeen ∨
      (field = [] ∧ Opens reader.mode))

theorem hasRead_writeField
    {mode : Mode} (hmode : Opens mode) (field : Text) (row : List Text)
    (rows : List (List Text)) :
    ∃ reader, (writeField field).foldl step ⟨mode, [], row, rows⟩ = reader ∧
      HasRead field reader ∧ reader.row = row ∧ reader.rows = rows ∧
        (reader.mode = .rowStart → mode = .rowStart ∧ field = []) := by
  by_cases hspecial : field.any special = true
  · refine ⟨⟨.quoteSeen, field, row, rows⟩, ?_, ⟨rfl, .inr (.inl rfl)⟩, rfl,
      rfl, nofun⟩
    have hopen : step ⟨mode, [], row, rows⟩ '"' = ⟨.quoted, [], row, rows⟩ := by
      rcases hmode with rfl | rfl <;> rfl
    rw [writeField, if_pos hspecial, quotedField, List.foldl_cons, hopen,
      List.foldl_append, foldl_doubled, List.nil_append]
    rfl
  · have hplain : field.any special = false := Bool.eq_false_iff.mpr hspecial
    rw [writeField, if_neg hspecial]
    cases field with
    | nil =>
        exact ⟨⟨mode, [], row, rows⟩, rfl, ⟨rfl, .inr (.inr ⟨rfl, hmode⟩)⟩, rfl,
          rfl, fun hstart => ⟨hstart, rfl⟩⟩
    | cons char rest =>
        refine ⟨⟨.plain, char :: rest, row, rows⟩, ?_, ⟨rfl, .inl rfl⟩, rfl,
          rfl, nofun⟩
        rw [List.any_cons, Bool.or_eq_false_iff] at hplain
        have hfirst : step ⟨mode, [], row, rows⟩ char =
            ⟨.plain, [char], row, rows⟩ := by
          have hchar := hplain.1
          simp only [special, Bool.or_eq_false_iff, decide_eq_false_iff_not]
            at hchar
          obtain ⟨⟨⟨hcomma, hquote⟩, hreturn⟩, hfeed⟩ := hchar
          rcases hmode with rfl | rfl <;>
            simp [step, opening, bare, endOfLine, add, hcomma, hquote, hreturn,
              hfeed]
        rw [List.foldl_cons, hfirst, foldl_plain hplain.2]
        rfl

theorem step_comma
    {field : Text} {reader : Reader} (hread : HasRead field reader) :
    step reader ',' =
      ⟨.fieldStart, [], reader.row ++ [field], reader.rows⟩ := by
  obtain ⟨mode, read, row, rows⟩ := reader
  obtain ⟨hfield, hmode⟩ := hread
  simp only at hfield hmode
  subst hfield
  rcases hmode with rfl | rfl | ⟨hempty, rfl | rfl⟩ <;> rfl

/-- The end of a row; a row with no letter at all has no field. -/
theorem foldl_lineEnd
    {field : Text} {reader : Reader} (hread : HasRead field reader)
    (hbegun : reader.mode ≠ .rowStart) :
    ['\r', '\n'].foldl step reader =
      ⟨.rowStart, [], [], reader.rows ++ [reader.row ++ [field]]⟩ := by
  obtain ⟨mode, read, row, rows⟩ := reader
  obtain ⟨hfield, hmode⟩ := hread
  simp only at hfield hmode
  subst hfield
  rcases hmode with rfl | rfl | ⟨hempty, rfl | rfl⟩
  · rfl
  · rfl
  · exact absurd rfl hbegun
  · rfl

theorem foldl_joinFields
    {mode : Mode} (hmode : Opens mode) {fields : List Text}
    (hfields : fields ≠ []) (hblank : mode = .rowStart → fields ≠ [[]])
    (row : List Text) (rows : List (List Text)) :
    (joinFields fields ++ ['\r', '\n']).foldl step ⟨mode, [], row, rows⟩ =
      ⟨.rowStart, [], [], rows ++ [row ++ fields]⟩ := by
  induction fields generalizing mode row with
  | nil => contradiction
  | cons field rest ih =>
      obtain ⟨reader, hreader, hread, hrow, hrows, hstart⟩ :=
        hasRead_writeField hmode field row rows
      cases rest with
      | nil =>
          have hbegun : reader.mode ≠ .rowStart := by
            intro hmode
            obtain ⟨hbefore, hempty⟩ := hstart hmode
            exact hblank hbefore (by rw [hempty])
          rw [joinFields, List.foldl_append, hreader,
            foldl_lineEnd hread hbegun, hrow, hrows]
      | cons next rest =>
          rw [joinFields, List.append_assoc, List.foldl_append, hreader,
            List.cons_append, List.foldl_cons, step_comma hread, hrow, hrows]
          rw [ih (.inr rfl) (List.cons_ne_nil _ _) nofun]
          simp

theorem foldl_writeRow (row : List Text) (rows : List (List Text)) :
    (writeRow row).foldl step ⟨.rowStart, [], [], rows⟩ =
      ⟨.rowStart, [], [], rows ++ [row]⟩ := by
  by_cases hempty : row = [[]]
  · subst hempty
    rfl
  · rw [writeRow, if_neg hempty]
    cases row with
    | nil => rfl
    | cons field rest =>
        rw [foldl_joinFields (.inl rfl) (List.cons_ne_nil _ _) fun _ => hempty]
        rfl

theorem foldl_writeRows (written rows : List (List Text)) :
    (written.flatMap writeRow).foldl step ⟨.rowStart, [], [], rows⟩ =
      ⟨.rowStart, [], [], rows ++ written⟩ := by
  induction written generalizing rows with
  | nil => simp
  | cons row rest ih =>
      rw [List.flatMap_cons, List.foldl_append, foldl_writeRow, ih]
      simp

end Reader

/-- What is read is what was written. -/
theorem readRows_writeRows (rows : List (List Text)) :
    readRows (rows.flatMap writeRow) = rows := by
  rw [readRows, Reader.start, Reader.foldl_writeRows]
  rfl

end NotifyHub.CsvText
