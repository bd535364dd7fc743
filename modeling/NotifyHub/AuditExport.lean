import NotifyHub.CsvText
import NotifyHub.ExactPages
import Mathlib.Tactic

/-!
# The export as comma-separated values

The blocks of the export as the rows of a table.  Each block is read in a
session of its own, and the events may change in any way between two of them.
Whoever reads the answer back still finds whole rows in order, no cell which a
spreadsheet takes for a formula, and every event which was there all along.
-/

namespace NotifyHub.Paging

open AuditLog (AuditEventOut AuditFilters AuditState ExportAnswer
  exportBatchRows exportBlocks exportMaxRows modelDump queryAfter)
open CsvText (readRows writeRow)
open Dashboard (Claims)
open JsonText (Denotes Value)
open Keyset (newestFirst)

/-! ## Cells -/

/-- `CSV_FORMULA_PREFIXES`. -/
def csvFormulaPrefixes : List Char := ['=', '+', '-', '@', '\t', '\r']

/-- `value.startswith(CSV_FORMULA_PREFIXES)`. -/
def startsFormula (text : Text) : Bool :=
  text.head?.any fun char => char ∈ csvFormulaPrefixes

/-- `_csv_cell`. -/
def csvCell (value : Text) : Text :=
  if startsFormula value then '\'' :: value else value

/-- `EXPORT_COLUMNS`. -/
def exportColumns : List Text :=
  ["occurred_at".toList, "actor_email".toList, "actor_role".toList,
    "action".toList, "resource_type".toList, "resource_id".toList,
    "resource_label".toList, "group_name".toList, "receiver_name".toList,
    "outcome".toList, "ip".toList, "request_id".toList, "changes".toList,
    "context".toList]

/-- A value as `_csv_row` and the writer put it: an object as JSON, and nothing
for `None`.  No column holds a value of another kind. -/
def cellText : Value → Text
  | .text value => csvCell value
  | .object members => csvCell (JsonText.dumps (.object members))
  | _ => []

/-- `record[column]`. -/
def member (column : Text) : Value → Value
  | .object members => (members.lookup column).getD .null
  | _ => .null

/-- `_csv_row`. -/
def csvRow (record : AuditEventOut) : List Text :=
  exportColumns.map fun column => cellText (member column (modelDump record))

/-- What `_righe` yields for `format=csv`: the header, then the rows of each
block. -/
def csvChunks (blocks : List (List AuditEventOut)) : List (List UInt8) :=
  utf8Encode (writeRow exportColumns) ::
    blocks.map fun block =>
      utf8Encode (block.flatMap fun record => writeRow (csvRow record))

/-- `export_audit_events` for `format=csv`. -/
def exportAuditEventsCsv
    (counted : AuditState) (states : ℕ → AuditState) (claims : Claims Uuid)
    (filters : AuditFilters) : Except Problem ExportAnswer := do
  requireAdmin claims.toAccessClaims
  let count := min (queryAfter counted.events claims filters none).card
    (exportMaxRows + 1)
  if exportMaxRows < count then
    return .tooMany
      (validationError
        ("The filters select more than 50000 events. " ++
          "Narrow the date range and retry.").toList) exportMaxRows
  else
    return .body (csvChunks (exportBlocks claims filters states 0 0 none))

/-- What a reader of the table sees of a value. -/
inductive Shows : Value → Text → Prop
  | nothing : Shows .null []
  | text {value : Text} (hplain : startsFormula value = false) :
      Shows (.text value) value
  | formula {value : Text} (hformula : startsFormula value = true) :
      Shows (.text value) ('\'' :: value)
  | object {members : List (Text × Value)} {cell : Text}
      (hcell : Denotes cell (.object members)) : Shows (.object members) cell

/-- The members of a record. -/
def Holds (record : AuditEventOut) (column : Text) (value : Value) : Prop :=
  ∃ members, modelDump record = .object members ∧
    members.lookup column = some value

section Cells

variable {value : Text} {record : AuditEventOut}

theorem startsFormula_csvCell (value : Text) :
    startsFormula (csvCell value) = false := by
  rw [csvCell]
  split
  next hformula => rfl
  next hplain => exact Bool.eq_false_iff.mpr hplain

example : csvCell "=1+1".toList = "'=1+1".toList := by decide

theorem startsFormula_cellText (value : Value) :
    startsFormula (cellText value) = false := by
  cases value with
  | text value => exact startsFormula_csvCell value
  | object members => exact startsFormula_csvCell _
  | null => rfl
  | bool value => rfl
  | int value => rfl
  | array elements => rfl

theorem shows_csvCell (value : Text) : Shows (.text value) (csvCell value) := by
  rw [csvCell]
  split
  next hformula => exact .formula hformula
  next hplain => exact .text (Bool.eq_false_iff.mpr hplain)

theorem shows_optionalText (text : Option Text) :
    Shows (AuditLog.optionalText text)
      (cellText (AuditLog.optionalText text)) := by
  cases text with
  | none => exact .nothing
  | some value => exact shows_csvCell value

theorem shows_optionalObject (members : Option (List (Text × Value))) :
    Shows ((members.map Value.object).getD .null)
      (cellText ((members.map Value.object).getD .null)) := by
  cases members with
  | none => exact .nothing
  | some members =>
      have hcell : csvCell (JsonText.dumps (.object members)) =
          JsonText.dumps (.object members) := by
        rw [JsonText.dumps]
        rfl
      rw [Option.map_some, Option.getD_some, cellText, hcell]
      exact .object (JsonText.denotes_dumps _)

/-- Each column of a row shows the value of the record. -/
theorem shows_csvRow (record : AuditEventOut) :
    List.Forall₂
      (fun column cell => ∃ value, Holds record column value ∧ Shows value cell)
      exportColumns (csvRow record) := by
  rw [csvRow, List.forall₂_map_right_iff, List.forall₂_same]
  intro column hcolumn
  have hcell : ∀ value, Holds record column value →
      Shows value (cellText value) →
        ∃ value, Holds record column value ∧
          Shows value (cellText (member column (modelDump record))) := by
    rintro value ⟨members, hrecord, hvalue⟩ hshows
    refine ⟨value, ⟨members, hrecord, hvalue⟩, ?_⟩
    rw [hrecord, member, hvalue]
    exact hshows
  simp only [exportColumns, List.mem_cons, List.not_mem_nil, or_false]
    at hcolumn
  rcases hcolumn with rfl | rfl | rfl | rfl | rfl | rfl | rfl | rfl | rfl | rfl |
    rfl | rfl | rfl | rfl
  · exact hcell _ ⟨_, rfl, rfl⟩ (shows_csvCell _)
  · exact hcell _ ⟨_, rfl, rfl⟩ (shows_csvCell _)
  · exact hcell _ ⟨_, rfl, rfl⟩ (shows_csvCell _)
  · exact hcell _ ⟨_, rfl, rfl⟩ (shows_csvCell _)
  · exact hcell _ ⟨_, rfl, rfl⟩ (shows_csvCell _)
  · exact hcell _ ⟨_, rfl, rfl⟩ (shows_optionalText _)
  · exact hcell _ ⟨_, rfl, rfl⟩ (shows_optionalText _)
  · exact hcell _ ⟨_, rfl, rfl⟩ (shows_optionalText _)
  · exact hcell _ ⟨_, rfl, rfl⟩ (shows_optionalText _)
  · exact hcell _ ⟨_, rfl, rfl⟩ (shows_csvCell _)
  · exact hcell _ ⟨_, rfl, rfl⟩ (shows_optionalText _)
  · exact hcell _ ⟨_, rfl, rfl⟩ (shows_optionalText _)
  · exact hcell _ ⟨_, rfl, rfl⟩ (shows_optionalObject _)
  · exact hcell _ ⟨_, rfl, rfl⟩ (shows_optionalObject _)

end Cells

/-! ## Rows -/

section Rows

variable {claims : Claims Uuid} {filters : AuditFilters}
  {states : ℕ → AuditState}

theorem flatten_csvChunks (blocks : List (List AuditEventOut)) :
    (csvChunks blocks).flatten =
      utf8Encode ((exportColumns :: blocks.flatten.map csvRow).flatMap
        writeRow) := by
  have hrows : (blocks.map fun block =>
      utf8Encode (block.flatMap fun record => writeRow (csvRow record))).flatten =
        utf8Encode ((blocks.flatten.map csvRow).flatMap writeRow) := by
    induction blocks with
    | nil => rfl
    | cons block rest ih =>
        rw [List.map_cons, List.flatten_cons, ih, List.flatten_cons,
          List.map_append, List.flatMap_append,
          List.flatMap_map csvRow writeRow block]
        exact List.flatMap_append.symm
  rw [csvChunks, List.flatten_cons, hrows, List.flatMap_cons]
  exact List.flatMap_append.symm

/-- A record was selected, and read, in the session of its block. -/
theorem record_selected {step emitted : ℕ} {cursor : Option (Instant × Uuid)} :
    ∀ record ∈
        (exportBlocks claims filters states step emitted cursor).flatten,
      ∃ read, record.id ∈ exported claims filters states read ∧
        record = AuditLog.toOut (states read)
          (record.id, (states read).events.row record.id) := by
  have hblock : ∀ (read : ℕ) (after : Option (Instant × Uuid)),
      ∀ record ∈ (AuditLog.latestEvents (states read).events
        (queryAfter (states read).events claims filters after)
          exportBatchRows).map (AuditLog.toOut (states read)),
        ∃ read, record.id ∈ exported claims filters states read ∧
          record = AuditLog.toOut (states read)
            (record.id, (states read).events.row record.id) := by
    intro read after record hrecord
    obtain ⟨entry, hentry, rfl⟩ := List.mem_map.mp hrecord
    obtain ⟨hselected, hrow⟩ := Table.mem_fetch.mp
      (List.mem_reverse.mp (List.mem_of_mem_take hentry))
    refine ⟨read, (mem_queryAfter.mp hselected).1, ?_⟩
    change AuditLog.toOut (states read) entry = AuditLog.toOut (states read)
      (entry.1, (states read).events.row entry.1)
    rw [← hrow]
  fun_induction exportBlocks claims filters states step emitted cursor with
  | case1 step emitted cursor hemitted selected rows hnone =>
      rw [List.flatten_nil]
      exact List.forall_mem_nil _
  | case2 step emitted cursor hemitted selected rows hnone records hshort =>
      rw [List.flatten_singleton]
      exact hblock step cursor
  | case3 step emitted cursor hemitted selected rows hnone records hfull ih =>
      rw [List.flatten_cons, List.forall_mem_append]
      exact ⟨hblock step cursor, ih⟩
  | case4 step emitted cursor hfull =>
      rw [List.flatten_nil]
      exact List.forall_mem_nil _

theorem exportAuditEventsCsv_eq_body
    {counted : AuditState}
    (hadmin : requireAdmin claims.toAccessClaims = .ok ())
    (hcounted :
      (queryAfter counted.events claims filters none).card ≤ exportMaxRows) :
    exportAuditEventsCsv counted states claims filters =
      .ok (.body (csvChunks (exportBlocks claims filters states 0 0 none))) := by
  have hcount : ¬exportMaxRows <
      min (queryAfter counted.events claims filters none).card
        (exportMaxRows + 1) :=
    Nat.not_lt.mpr ((Nat.min_le_left _ _).trans hcounted)
  rw [exportAuditEventsCsv, hadmin]
  simp only [bind, Except.bind, if_neg hcount]
  rfl

end Rows

/-- What a table tells of the events, whatever happened between its blocks. -/
structure Exports
    (claims : Claims Uuid) (filters : AuditFilters) (states : ℕ → AuditState)
    (records : List AuditEventOut) : Prop where
  descending : records.Pairwise fun earlier later =>
    recordKey later < recordKey earlier
  selected : ∀ record ∈ records, ∃ read,
    record.id ∈ exported claims filters states read ∧
      record = AuditLog.toOut (states read)
        (record.id, (states read).events.row record.id)
  complete : ∀ (id : Uuid) (moment : Instant),
    (∀ read, id ∈ exported claims filters states read ∧
      ((states read).events.row id).occurredAt.val = moment) →
        id ∈ records.map AuditEventOut.id ∨ records.length = exportMaxRows
  bounded : records.length ≤ exportMaxRows

theorem exports_flatten
    (claims : Claims Uuid) (filters : AuditFilters)
    (states : ℕ → AuditState) :
    Exports claims filters states
      (exportBlocks claims filters states 0 0 none).flatten := by
  let dataset := fun step => newestFirst
    ((exported claims filters states step).image (eventKey (states step).events))
  have hkeys : (exportBlocks claims filters states 0 0 none).flatten.map
      recordKey =
        (Keyset.blocks id exportBatchRows exportMaxRows dataset 0 0
          none).flatten := by
    rw [List.map_flatten, map_exportBlocks]
    rfl
  have hdataset : ∀ read, Keyset.Descending id (dataset read) :=
    fun read => Keyset.descending_newestFirst _
  have hlength : (exportBlocks claims filters states 0 0 none).flatten.length ≤
      exportMaxRows := by
    rw [← List.length_map recordKey, hkeys, ← Nat.zero_add (List.length _)]
    exact Keyset.length_blocks _ _ _ _ _ (by decide) (dvd_zero _)
      (Nat.zero_le _)
  constructor
  · have hsorted := (Keyset.descending_blocks exportBatchRows exportMaxRows 0 0
      none hdataset).1
    rw [← hkeys] at hsorted
    exact List.pairwise_map.mp hsorted
  · exact record_selected
  · intro event moment hstays
    have hthere : ∀ read, toLex (moment, event) ∈ dataset read := by
      intro read
      obtain ⟨hselected, rfl⟩ := hstays read
      rw [Keyset.mem_newestFirst]
      exact Finset.mem_image_of_mem _ hselected
    rcases Keyset.mem_blocks exportBatchRows exportMaxRows 0 0 none hthere
        (by decide) hdataset nofun with hmem | hmaximum
    · left
      rw [← hkeys, List.mem_map] at hmem
      obtain ⟨record, hrecord, hkey⟩ := hmem
      exact List.mem_map.mpr ⟨record, hrecord, congrArg keyId hkey⟩
    · right
      rw [Nat.zero_add, ← hkeys, List.length_map] at hmaximum
      exact hlength.antisymm hmaximum
  · exact hlength

/-- The table which a reader finds in the answer: the columns, then a row for
each record, whose cells show its values. -/
theorem export_csv
    {claims : Claims Uuid} {filters : AuditFilters} {counted : AuditState}
    (states : ℕ → AuditState)
    (hadmin : requireAdmin claims.toAccessClaims = .ok ())
    (hcounted :
      (queryAfter counted.events claims filters none).card ≤ exportMaxRows) :
    ∃ (chunks : List (List UInt8)) (text : Text) (records : List AuditEventOut),
      exportAuditEventsCsv counted states claims filters =
        .ok (.body chunks) ∧
      chunks.flatten = utf8Encode text ∧
      readRows text = exportColumns :: records.map csvRow ∧
      (∀ record ∈ records, List.Forall₂
        (fun column cell =>
          ∃ value, Holds record column value ∧ Shows value cell)
        exportColumns (csvRow record)) ∧
      (∀ row ∈ readRows text, ∀ cell ∈ row, startsFormula cell = false) ∧
      Exports claims filters states records := by
  let records := (exportBlocks claims filters states 0 0 none).flatten
  refine ⟨_, _, records, exportAuditEventsCsv_eq_body hadmin hcounted,
    flatten_csvChunks _, CsvText.readRows_writeRows _,
    fun record _ => shows_csvRow record, ?_,
    exports_flatten claims filters states⟩
  rw [CsvText.readRows_writeRows]
  intro row hrow cell hcell
  rcases List.mem_cons.mp hrow with rfl | hrow
  · revert cell
    decide
  · obtain ⟨record, -, rfl⟩ := List.mem_map.mp hrow
    obtain ⟨column, -, rfl⟩ := List.mem_map.mp hcell
    exact startsFormula_cellText _

theorem export_csv_inserted :
    ∃ (chunks : List (List UInt8)) (text : Text) (records : List AuditEventOut),
      exportAuditEventsCsv (sampleDatabase 0).audit
          (fun step => (sampleDatabase step).audit) sampleClaims sampleFilters =
        .ok (.body chunks) ∧
      chunks.flatten = utf8Encode text ∧
      readRows text = exportColumns :: records.map csvRow ∧
      (∀ record ∈ records, List.Forall₂
        (fun column cell =>
          ∃ value, Holds record column value ∧ Shows value cell)
        exportColumns (csvRow record)) ∧
      (∀ row ∈ readRows text, ∀ cell ∈ row, startsFormula cell = false) ∧
      Exports sampleClaims sampleFilters
        (fun step => (sampleDatabase step).audit) records := by
  refine export_csv _ rfl ?_
  exact (congrArg Finset.card (sample_selected 0)).le.trans (by decide)

end NotifyHub.Paging
