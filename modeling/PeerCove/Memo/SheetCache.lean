/-
Module: PeerCove.Memo.SheetCache
Layer: Store
Purpose: The tables in which a member's `SharedCache` keeps the cells and merged ranges of sheets,
  and how they follow the events of the host.
Trusted boundary: SQLite transactions; a cell format equals the text it is stored as
Main exports: SheetCache, SheetCache.sheetCellsApply, SheetCache.sheetMergesReplaceAll,
  SheetCache.applyEvent
-/
import PeerCove.Memo.Requests

namespace PeerCove

open Stateful

/-- Cells and merged ranges of all sheets; the spans of a range are stored under its anchor. -/
structure SheetCache where
  sheetCells : Table (String × Nat × Nat) CellRow
  sheetMerges : Table (String × Nat × Nat) (Nat × Nat)

/-- The row of a cell that the host reports. -/
def SheetCell.toRow (cell : SheetCell) : CellRow where
  value := cell.value
  revision := cell.revision
  updatedBy := cell.updatedBy
  updatedAt := cell.updatedAt
  format := cell.format

def SheetCell.position (cell : SheetCell) : Nat × Nat := (cell.row, cell.col)

/-- Neither a value nor a format is left. -/
def SheetCell.isEmpty (cell : SheetCell) : Bool :=
  cell.value = "" && cell.format.isDefault

abbrev CacheOp (α : Type) := Stateful SheetCache String α

namespace SheetCache

def insertCacheCell (sheetId : String) (cell : SheetCell) (cache : SheetCache) : SheetCache :=
  { cache with sheetCells := cache.sheetCells.insert (sheetId, cell.position) cell.toRow }

/-- The loop body of `sheet_cells_apply`. -/
def applyCell (sheetId : String) (cache : SheetCache) (cell : SheetCell) : SheetCache :=
  if cell.isEmpty then
    { cache with sheetCells := cache.sheetCells.erase (sheetId, cell.position) }
  else
    insertCacheCell sheetId cell cache

/-- `sheet_cells_apply`: the cells of an event, by position. -/
def sheetCellsApply (sheetId : String) (cells : List SheetCell) (cache : SheetCache) : SheetCache :=
  cells.foldl (applyCell sheetId) cache

def insertMerge (sheetId : String) (merge : SheetMerge) : CacheOp Unit := do
  let found ← query (·.sheetMerges.get? (sheetId, merge.row, merge.col))
  refuse (found.isSome = true)
    "UNIQUE constraint failed: sheet_merges.sheet_id, sheet_merges.row, sheet_merges.col"
  execute (fun cache =>
    { cache with
      sheetMerges := cache.sheetMerges.insert (sheetId, merge.row, merge.col)
        (merge.rowSpan, merge.colSpan) })

/-- `sheet_merges_replace_all`, one statement after the other. -/
def sheetMergesReplaceAll (sheetId : String) (merges : List SheetMerge) : CacheOp Unit := do
  execute (fun cache =>
    { cache with sheetMerges := cache.sheetMerges.filter (fun key _ => key.1 ≠ sheetId) })
  merges.forM (insertMerge sheetId)

/-- `sheet_remove`. -/
def sheetRemove (sheetId : String) (cache : SheetCache) : SheetCache where
  sheetCells := cache.sheetCells.filter (fun key _ => key.1 ≠ sheetId)
  sheetMerges := cache.sheetMerges.filter (fun key _ => key.1 ≠ sheetId)

/-- The part of `apply_event` that touches cells and merged ranges.  An error is logged. -/
def applyEvent (cache : SheetCache) : SheetEventMsg → SheetCache
  | .sheetChanged _ => cache
  | .sheetRemoved sheetId => cache.sheetRemove sheetId
  | .cellsChanged sheetId cells => cache.sheetCellsApply sheetId cells
  | .layout _ _ _ => cache
  | .merges sheetId merges => (sheetMergesReplaceAll sheetId merges cache).2
  | .presence _ _ => cache

/-- The cells of a sheet. -/
def cellsOf (cache : SheetCache) (sheetId : String) : Cells :=
  cache.sheetCells.project sheetId

/-- `sheet_merges`: the merged ranges of a sheet, by their anchors. -/
def mergesOf (cache : SheetCache) (sheetId : String) : List SheetMerge :=
  ((cache.sheetMerges.project sheetId).rows.map (fun (anchor, spans) =>
    { row := anchor.1, col := anchor.2, rowSpan := spans.1, colSpan := spans.2 })).insertionSort
      SheetMerge.le

/-! ### The cells of one sheet -/

/-- One cell of an event, on the cells of its sheet. -/
def patchCell (cells : Cells) (cell : SheetCell) : Cells :=
  if cell.isEmpty then cells.erase cell.position else cells.insert cell.position cell.toRow

/-- The cells of an event, on the cells of their sheet. -/
def patchCells (cells : Cells) (changed : List SheetCell) : Cells :=
  changed.foldl patchCell cells

end SheetCache

end PeerCove
