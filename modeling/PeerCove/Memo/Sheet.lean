/-
Module: PeerCove.Memo.Sheet
Layer: Store
Purpose: Shared sheets: cells with revisions, batch writes that compare revisions, merged ranges.
Trusted boundary: SQLite transactions; a cell format equals the text it is stored as
Main exports: Sheet, Sheet.write, Sheet.merge, writeCell
-/
import PeerCove.Core.Text
import PeerCove.Library.Fallible
import PeerCove.Library.Table
import Mathlib.Data.List.Sort

namespace PeerCove

open Fallible

def MAX_CELL_VALUE_BYTES : Nat := 4 * 1024
def MAX_SHEET_CELLS : Nat := 10000
def MAX_SHEET_ROWS : Nat := 1024
def MAX_SHEET_COLS : Nat := 200
def MIN_FONT_SIZE : UInt8 := 8
def MAX_FONT_SIZE : UInt8 := 36

/-- Format of a cell; everything may be left out. -/
structure CellFormat where
  bold : Bool := false
  italic : Bool := false
  underline : Bool := false
  strike : Bool := false
  fontSize : Option UInt8 := none
  color : Option String := none
  bg : Option String := none
  align : Option String := none
  borderTop : Bool := false
  borderBottom : Bool := false
  borderLeft : Bool := false
  borderRight : Bool := false
deriving Repr, DecidableEq

/-- `CellFormat::is_default`: nothing is set. -/
def CellFormat.isDefault (format : CellFormat) : Bool :=
  !format.bold && !format.italic && !format.underline && !format.strike &&
    format.fontSize.isNone && format.color.isNone && format.bg.isNone && format.align.isNone &&
    !format.borderTop && !format.borderBottom && !format.borderLeft && !format.borderRight

theorem CellFormat.isDefault_iff {format : CellFormat} : format.isDefault = true ↔ format = {} := by
  obtain ⟨_, _, _, _, _, _, _, _, _, _, _, _⟩ := format
  simp [CellFormat.isDefault, and_assoc]

/-- A row of `sheet_cells`; its key is the position. -/
structure CellRow where
  value : String
  revision : Nat
  updatedBy : String
  updatedAt : Nat
  format : CellFormat
deriving Repr, DecidableEq

/-- A cell as clients see it, in replies and in events. -/
structure SheetCell where
  row : Nat
  col : Nat
  value : String
  revision : Nat
  updatedBy : String
  updatedAt : Nat
  format : CellFormat := {}
deriving Repr, DecidableEq

/-- One element of a batch write. -/
structure CellWrite where
  row : Nat
  col : Nat
  value : String
  baseRevision : Nat := 0
  format : Option CellFormat := none
deriving Repr, DecidableEq

/-- A merged range: its anchor and spans. -/
structure SheetMerge where
  row : Nat
  col : Nat
  rowSpan : Nat
  colSpan : Nat
deriving Repr, DecidableEq

namespace SheetMerge

def contains (merge : SheetMerge) (row col : Nat) : Bool :=
  row ≥ merge.row && row < merge.row + merge.rowSpan &&
    col ≥ merge.col && col < merge.col + merge.colSpan

/-- Whether two ranges share a cell. -/
def overlaps (merge other : SheetMerge) : Bool :=
  merge.row < other.row + other.rowSpan && other.row < merge.row + merge.rowSpan &&
    merge.col < other.col + other.colSpan && other.col < merge.col + merge.colSpan

/-- The cells of a range other than its anchor, row by row. -/
def covered (merge : SheetMerge) : List (Nat × Nat) :=
  ((List.range' merge.row merge.rowSpan).flatMap (fun row =>
    (List.range' merge.col merge.colSpan).map (fun col => (row, col)))).filter
      (fun position => position ≠ (merge.row, merge.col))

end SheetMerge

/-- `ORDER BY row ASC, col ASC`. -/
def SheetMerge.le (one two : SheetMerge) : Prop :=
  one.row < two.row ∨ (one.row = two.row ∧ one.col ≤ two.col)

instance : DecidableRel SheetMerge.le := fun _ _ => inferInstanceAs (Decidable (_ ∨ _))

abbrev Cells := Table (Nat × Nat) CellRow

/-- What a sheet stores of its cells. -/
structure Sheet where
  cells : Cells
  merges : List SheetMerge
  updatedAt : Nat
deriving DecidableEq

/-- A sheet right after its creation. -/
def Sheet.created (now : Nat) : Sheet where
  cells := Table.empty
  merges := []
  updatedAt := now

/-! ### Checks of the input -/

/-- `#rrggbb`, in either case. -/
def validateHexColor (value : String) : Except String Unit :=
  refuseIf (¬ (Text.len value = 7 ∧ Text.startsWith value "#" ∧
      (value.toList.drop 1).all Text.isAsciiHexDigit))
    "色は #rrggbb 形式で指定してください(例: #336699)"

def validateCellFormat (format : CellFormat) : Except String Unit := do
  refuseIf (format.fontSize.any (fun size => size < MIN_FONT_SIZE || size > MAX_FONT_SIZE))
    s!"フォントサイズは {MIN_FONT_SIZE}〜{MAX_FONT_SIZE} の範囲で指定してください"
  match format.color with
  | none => pure ()
  | some color => (validateHexColor color).mapError (fun error => s!"文字色: {error}")
  match format.bg with
  | none => pure ()
  | some bg => (validateHexColor bg).mapError (fun error => s!"背景色: {error}")
  refuseIf (format.align.any (fun align => align ≠ "left" && align ≠ "center" && align ≠ "right"))
    "配置は left / center / right のいずれかで指定してください"

/-- At least two cells, inside the sheet. -/
def validateMerge (merge : SheetMerge) : Except String Unit := do
  refuseIf (merge.rowSpan = 0 ∨ merge.colSpan = 0) "結合範囲が不正です"
  refuseIf (merge.rowSpan * merge.colSpan < 2) "結合するセルは 2 つ以上選んでください"
  refuseIf (merge.row + merge.rowSpan > MAX_SHEET_ROWS ∨ merge.col + merge.colSpan > MAX_SHEET_COLS)
    "結合範囲が表の上限を超えています"

/-! ### Batch writes -/

/-- What the loop of `sheet_write` carries from cell to cell. -/
structure WriteAcc where
  cells : Cells
  currentCount : Nat
  applied : Nat := 0
  conflicts : List SheetCell := []
  changed : List SheetCell := []
deriving DecidableEq

def CellWrite.position (write : CellWrite) : Nat × Nat := (write.row, write.col)

/-- The checks on one write before the table is read. -/
def checkWrite (write : CellWrite) : Except String Unit := do
  refuseIf (write.row ≥ MAX_SHEET_ROWS ∨ write.col ≥ MAX_SHEET_COLS)
    s!"セルの位置が上限を超えています(行は {MAX_SHEET_ROWS} 未満、列は {MAX_SHEET_COLS} 未満にしてください)"
  refuseIf (Text.len write.value > MAX_CELL_VALUE_BYTES)
    s!"セルの値が長すぎます(上限 {MAX_CELL_VALUE_BYTES / 1024} KB)"
  match write.format with
  | none => pure ()
  | some format => validateCellFormat format

/-- The cell as a conflict reports it. -/
def CellRow.toSheetCell (cell : CellRow) (row col : Nat) : SheetCell where
  row := row
  col := col
  value := cell.value
  revision := cell.revision
  updatedBy := cell.updatedBy
  updatedAt := cell.updatedAt
  format := cell.format

/-- An absent cell as a conflict reports it. -/
def absentCell (row col : Nat) : SheetCell where
  row := row
  col := col
  value := ""
  revision := 0
  updatedBy := ""
  updatedAt := 0

/-- The new cell as the reply and the event report it. -/
def writtenCell (actorName : String) (now : Nat) (write : CellWrite) (revision : Nat)
    (format : CellFormat) : SheetCell where
  row := write.row
  col := write.col
  value := write.value
  revision := revision
  updatedBy := actorName
  updatedAt := now
  format := format

/-- The new row of the table. -/
def writtenRow (actorName : String) (now : Nat) (write : CellWrite) (revision : Nat)
    (format : CellFormat) : CellRow where
  value := write.value
  revision := revision
  updatedBy := actorName
  updatedAt := now
  format := format

/-- The format a write leaves at an existing cell, and at an absent one. -/
def CellWrite.formatOver (write : CellWrite) (cell : CellRow) : CellFormat :=
  write.format.getD cell.format

def CellWrite.formatNew (write : CellWrite) : CellFormat :=
  write.format.getD {}

/-- A write to a cell that is there: on the right revision it replaces the cell, or deletes it
when neither a value nor a format is left. -/
def writeExisting (actorName : String) (now : Nat) (acc : WriteAcc) (write : CellWrite)
    (cell : CellRow) : WriteAcc :=
  if cell.revision ≠ write.baseRevision then
    { acc with conflicts := acc.conflicts ++ [cell.toSheetCell write.row write.col] }
  else if write.value = "" ∧ (write.formatOver cell).isDefault then
    { acc with
      cells := acc.cells.erase write.position
      currentCount := acc.currentCount - 1
      changed := acc.changed ++
        [writtenCell actorName now write (cell.revision + 1) (write.formatOver cell)]
      applied := acc.applied + 1 }
  else
    { acc with
      cells := acc.cells.insert write.position
        (writtenRow actorName now write (cell.revision + 1) (write.formatOver cell))
      changed := acc.changed ++
        [writtenCell actorName now write (cell.revision + 1) (write.formatOver cell)]
      applied := acc.applied + 1 }

/-- A write to a position without a cell: only on revision 0, and then it creates the cell with
revision 1, or does nothing when there is nothing to store. -/
def writeAbsent (actorName : String) (now : Nat) (acc : WriteAcc) (write : CellWrite) :
    Except String WriteAcc :=
  if write.baseRevision ≠ 0 then
    .ok { acc with conflicts := acc.conflicts ++ [absentCell write.row write.col] }
  else if write.value = "" ∧ write.formatNew.isDefault then
    .ok { acc with applied := acc.applied + 1 }
  else if acc.currentCount ≥ MAX_SHEET_CELLS then
    .error s!"セルの件数が上限({MAX_SHEET_CELLS} 件)に達しています。不要なセルを削除してください"
  else
    .ok { acc with
      cells := acc.cells.insert write.position (writtenRow actorName now write 1 write.formatNew)
      currentCount := acc.currentCount + 1
      changed := acc.changed ++ [writtenCell actorName now write 1 write.formatNew]
      applied := acc.applied + 1 }

/-- The loop body of `sheet_write`. -/
def writeCell (actorName : String) (now : Nat) (acc : WriteAcc) (write : CellWrite) :
    Except String WriteAcc := do
  checkWrite write
  match acc.cells.get? write.position with
  | some cell => return writeExisting actorName now acc write cell
  | none => writeAbsent actorName now acc write

/-- The accumulator a batch starts with. -/
def Sheet.beginWrite (sheet : Sheet) : WriteAcc where
  cells := sheet.cells
  currentCount := sheet.cells.size

/-- The transaction of a batch is committed. -/
def Sheet.commitWrite (sheet : Sheet) (now : Nat) (acc : WriteAcc) : Sheet :=
  { sheet with
    cells := acc.cells
    updatedAt := if acc.changed = [] then sheet.updatedAt else now }

/-- Reply of a batch write: number of applied writes, conflicts, new cells. -/
structure WriteResult where
  applied : Nat
  conflicts : List SheetCell
  changed : List SheetCell
deriving Repr, DecidableEq

/-- `SharedStore::sheet_write` on a sheet that exists.  An error rolls the batch back. -/
def Sheet.write (actorName : String) (now : Nat) (cells : List CellWrite) (sheet : Sheet) :
    Except String (Sheet × WriteResult) :=
  if cells = [] then
    .ok (sheet, { applied := 0, conflicts := [], changed := [] })
  else do
    let acc ← cells.foldlM (writeCell actorName now) sheet.beginWrite
    return (sheet.commitWrite now acc,
      { applied := acc.applied, conflicts := acc.conflicts, changed := acc.changed })

/-! ### Merged ranges -/

/-- The report of a cell that a merge deletes. -/
def mergedCell (actorName : String) (now : Nat) (position : Nat × Nat) (cell : CellRow) :
    SheetCell where
  row := position.1
  col := position.2
  value := ""
  revision := cell.revision + 1
  updatedBy := actorName
  updatedAt := now

/-- The loop body of `sheet_merge`: delete a covered cell that is there, and report it. -/
def deleteCell (actorName : String) (now : Nat) (acc : Cells × List SheetCell)
    (position : Nat × Nat) : Cells × List SheetCell :=
  match acc.1.get? position with
  | some cell => (acc.1.erase position, acc.2 ++ [mergedCell actorName now position cell])
  | none => acc

def deleteCovered (actorName : String) (now : Nat) (positions : List (Nat × Nat)) (cells : Cells) :
    Cells × List SheetCell :=
  positions.foldl (deleteCell actorName now) (cells, [])

/-- `SharedStore::sheet_merge` on a sheet that exists: the new range, and the deleted cells. -/
def Sheet.merge (actorName : String) (now : Nat) (merge : SheetMerge) (sheet : Sheet) :
    Except String (Sheet × List SheetMerge × List SheetCell) := do
  validateMerge merge
  refuseIf (sheet.merges.any (fun existing => existing.overlaps merge))
    "この範囲は既存の結合と重なっています"
  let deleted := deleteCovered actorName now merge.covered sheet.cells
  let merged : Sheet := {
    cells := deleted.1
    merges := sheet.merges.orderedInsert SheetMerge.le merge
    updatedAt := if deleted.2 = [] then sheet.updatedAt else now }
  return (merged, merged.merges, deleted.2)

/-- What a successful merge leaves behind. -/
theorem merge_inv {actorName : String} {now : Nat} {merge : SheetMerge} {sheet sheet' : Sheet}
    {merges : List SheetMerge} {changed : List SheetCell}
    (done : sheet.merge actorName now merge = .ok (sheet', merges, changed)) :
    validateMerge merge = .ok () ∧ sheet.merges.any (·.overlaps merge) = false ∧
      sheet'.cells = (deleteCovered actorName now merge.covered sheet.cells).1 ∧
      sheet'.merges = sheet.merges.orderedInsert SheetMerge.le merge ∧ merges = sheet'.merges ∧
      changed = (deleteCovered actorName now merge.covered sheet.cells).2 := by
  obtain ⟨⟨⟩, valid, done⟩ := bind_ok.mp done
  obtain ⟨_, apart, done⟩ := bind_ok.mp done
  obtain ⟨rfl, same⟩ := Prod.mk.inj (pure_ok.mp done)
  obtain ⟨rfl, rfl⟩ := Prod.mk.inj same
  exact ⟨valid, by simpa using refuseIf_ok.mp apart, rfl, rfl, rfl, rfl⟩

/-! ### What one write can do -/

/-- The outcomes of a write that does not fail: at an existing cell a conflict, a deletion or a new
revision; at an absent one a conflict, nothing, or a new cell. -/
inductive WriteOutcome (actorName : String) (now : Nat) (acc : WriteAcc) (write : CellWrite) :
    WriteAcc → Prop where
  | stale (cell : CellRow) (found : acc.cells.get? write.position = some cell)
      (differ : cell.revision ≠ write.baseRevision) :
      WriteOutcome actorName now acc write
        { acc with conflicts := acc.conflicts ++ [cell.toSheetCell write.row write.col] }
  | deleted (cell : CellRow) (found : acc.cells.get? write.position = some cell)
      (same : cell.revision = write.baseRevision)
      (nothing : write.value = "" ∧ (write.formatOver cell).isDefault) :
      WriteOutcome actorName now acc write
        { acc with
          cells := acc.cells.erase write.position
          currentCount := acc.currentCount - 1
          changed := acc.changed ++
            [writtenCell actorName now write (cell.revision + 1) (write.formatOver cell)]
          applied := acc.applied + 1 }
  | replaced (cell : CellRow) (found : acc.cells.get? write.position = some cell)
      (same : cell.revision = write.baseRevision)
      (something : ¬ (write.value = "" ∧ (write.formatOver cell).isDefault)) :
      WriteOutcome actorName now acc write
        { acc with
          cells := acc.cells.insert write.position
            (writtenRow actorName now write (cell.revision + 1) (write.formatOver cell))
          changed := acc.changed ++
            [writtenCell actorName now write (cell.revision + 1) (write.formatOver cell)]
          applied := acc.applied + 1 }
  | missing (absent : acc.cells.get? write.position = none) (differ : write.baseRevision ≠ 0) :
      WriteOutcome actorName now acc write
        { acc with conflicts := acc.conflicts ++ [absentCell write.row write.col] }
  | nothing (absent : acc.cells.get? write.position = none) (same : write.baseRevision = 0) :
      WriteOutcome actorName now acc write { acc with applied := acc.applied + 1 }
  | created (absent : acc.cells.get? write.position = none) (same : write.baseRevision = 0)
      (room : acc.currentCount < MAX_SHEET_CELLS)
      (something : ¬ (write.value = "" ∧ write.formatNew.isDefault)) :
      WriteOutcome actorName now acc write
        { acc with
          cells := acc.cells.insert write.position
            (writtenRow actorName now write 1 write.formatNew)
          currentCount := acc.currentCount + 1
          changed := acc.changed ++ [writtenCell actorName now write 1 write.formatNew]
          applied := acc.applied + 1 }

theorem writeExisting_outcome {actorName : String} {now : Nat} {acc : WriteAcc}
    {write : CellWrite} {cell : CellRow} (found : acc.cells.get? write.position = some cell) :
    WriteOutcome actorName now acc write (writeExisting actorName now acc write cell) := by
  by_cases same : cell.revision = write.baseRevision
  · rw [writeExisting, if_neg (not_not.mpr same)]
    by_cases nothing : write.value = "" ∧ (write.formatOver cell).isDefault
    · rw [if_pos nothing]
      exact .deleted cell found same nothing
    · rw [if_neg nothing]
      exact .replaced cell found same nothing
  · rw [writeExisting, if_pos same]
    exact .stale cell found same

theorem writeAbsent_outcome {actorName : String} {now : Nat} {acc next : WriteAcc}
    {write : CellWrite} (absent : acc.cells.get? write.position = none)
    (done : writeAbsent actorName now acc write = .ok next) :
    WriteOutcome actorName now acc write next := by
  by_cases same : write.baseRevision = 0
  · rw [writeAbsent, if_neg (not_not.mpr same)] at done
    by_cases nothing : write.value = "" ∧ write.formatNew.isDefault
    · rw [if_pos nothing] at done
      obtain rfl := Except.ok.inj done
      exact .nothing absent same
    · rw [if_neg nothing] at done
      split at done
      · cases done
      · rename_i room
        obtain rfl := Except.ok.inj done
        exact .created absent same (Nat.lt_of_not_le room) nothing
  · rw [writeAbsent, if_pos same] at done
    obtain rfl := Except.ok.inj done
    exact .missing absent same

/-- A write that does not fail has one of the outcomes. -/
theorem writeCell_outcome {actorName : String} {now : Nat} {acc next : WriteAcc}
    {write : CellWrite} (done : writeCell actorName now acc write = .ok next) :
    WriteOutcome actorName now acc write next := by
  obtain ⟨_, _, done⟩ := bind_ok.mp done
  split at done
  · rename_i cell found
    obtain rfl := pure_ok.mp done
    exact writeExisting_outcome found
  · rename_i absent
    exact writeAbsent_outcome absent done

end PeerCove
