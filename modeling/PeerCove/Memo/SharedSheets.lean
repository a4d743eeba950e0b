/-
Module: PeerCove.Memo.SharedSheets
Layer: Store
Purpose: The operations of `SharedStore` on sheets and on the schedule, which have no permission
  entries: everyone reads and adds, and the creator and the administrators rename and delete.
Trusted boundary: none
Main exports: SharedStore.sheetWrite, SharedStore.sheetMerge, SharedStore.sheetDelete,
  SharedStore.scheduleUpdate
-/
import PeerCove.Memo.SharedStore

namespace PeerCove

open Fallible Stateful

def MAX_SHEET_NAME_CHARS : Nat := 100
def MAX_SHEETS : Nat := 100
def MIN_COL_WIDTH : Nat := 20
def MAX_COL_WIDTH : Nat := 600
def MIN_ROW_HEIGHT : Nat := 16
def MAX_ROW_HEIGHT : Nat := 400
def MAX_SCHEDULE_TITLE_CHARS : Nat := 200
def MAX_SCHEDULE_NOTE_BYTES : Nat := 4 * 1024
def MAX_SCHEDULE_EVENTS : Nat := 10000
def MAX_SCHEDULE_PARTICIPANTS : Nat := 50

/-- A sheet without its contents, as the recipient may see it. -/
structure SheetMeta where
  id : String
  name : String
  ownerId : String
  ownerName : String
  createdAt : Nat
  updatedAt : Nat
  canManage : Bool
  gridlines : Bool
  freezeRows : Nat
  freezeCols : Nat
deriving Repr, DecidableEq

/-- An event of the schedule, as the recipient may see it. -/
structure ScheduleEvent where
  id : String
  title : String
  note : String
  startUnixMs : Nat
  endUnixMs : Option Nat
  allDay : Bool
  ownerId : String
  ownerName : String
  updatedBy : String
  participants : List ScheduleParticipant
  revision : Nat
  createdAt : Nat
  updatedAt : Nat
  canEdit : Bool
deriving Repr, DecidableEq

/-- Who may rename or delete what an owner has created. -/
def Actor.canManageOwned (actor : Actor) (ownerId : String) : Bool :=
  actor.isHost || actor.admin || ownerId = actor.ownerId

def SheetRow.intoMeta (row : SheetRow) (id : String) (actor : Actor) : SheetMeta where
  id := id
  name := row.name
  ownerId := row.ownerId
  ownerName := row.ownerName
  createdAt := row.createdAt
  updatedAt := row.sheet.updatedAt
  canManage := actor.canManageOwned row.ownerId
  gridlines := row.gridlines
  freezeRows := row.freezeRows
  freezeCols := row.freezeCols

def ScheduleRow.intoEvent (row : ScheduleRow) (id : String) (actor : Actor) : ScheduleEvent where
  id := id
  title := row.title
  note := row.note
  startUnixMs := row.startAt
  endUnixMs := row.endAt
  allDay := row.allDay
  ownerId := row.ownerId
  ownerName := row.ownerName
  updatedBy := row.updatedBy
  participants := row.participants
  revision := row.revision
  createdAt := row.createdAt
  updatedAt := row.updatedAt
  canEdit := actor.canManageOwned row.ownerId

/-! ### Checks of the input -/

def validateSheetName (name : String) : Except String Unit := do
  refuseIf (Text.trim name = "") "シート名を入力してください"
  refuseIf (Text.charCount name > MAX_SHEET_NAME_CHARS)
    s!"シート名が長すぎます(上限 {MAX_SHEET_NAME_CHARS} 文字)"

def validateColWidth (width : Nat) : Except String Unit :=
  requireRange MIN_COL_WIDTH MAX_COL_WIDTH width
    s!"列幅は {MIN_COL_WIDTH}〜{MAX_COL_WIDTH}px の範囲で指定してください"

def validateRowHeight (height : Nat) : Except String Unit :=
  requireRange MIN_ROW_HEIGHT MAX_ROW_HEIGHT height
    s!"行高は {MIN_ROW_HEIGHT}〜{MAX_ROW_HEIGHT}px の範囲で指定してください"

/-- The checks `schedule_create` and `schedule_update` share. -/
def validateSchedule (title note : String) (startUnixMs : Nat) (endUnixMs : Option Nat)
    (participants : List ScheduleParticipant) : Except String Unit := do
  refuseIf (Text.trim title = "") "タイトルを入力してください"
  refuseIf (Text.charCount title > MAX_SCHEDULE_TITLE_CHARS)
    s!"タイトルが長すぎます(上限 {MAX_SCHEDULE_TITLE_CHARS} 文字)"
  refuseIf (Text.len note > MAX_SCHEDULE_NOTE_BYTES)
    s!"詳細が長すぎます(上限 {MAX_SCHEDULE_NOTE_BYTES / 1024} KB)"
  refuseIf (endUnixMs.any (· < startUnixMs)) "終了日時は開始日時より後にしてください"
  refuseIf (participants.length > MAX_SCHEDULE_PARTICIPANTS)
    s!"参加メンバーが多すぎます(上限 {MAX_SCHEDULE_PARTICIPANTS} 名)"

namespace SharedStore

/-! ### Sheets -/

def sheetRow (id : String) : StoreOp SheetRow := do
  let found ← query (·.sheets.get? id)
  expect found "シートが見つかりません(削除された可能性があります)"

def setSheet (id : String) (change : SheetRow → SheetRow) (db : SharedDb) : SharedDb :=
  { db with sheets := db.sheets.update id change }

def sheetList (actor : Actor) : StoreOp (List SheetMeta) :=
  query (fun db =>
    (db.sheets.rows.insertionSort (fun one two => one.2.createdAt < two.2.createdAt ∨
      (one.2.createdAt = two.2.createdAt ∧ one.1 ≤ two.1))).map (fun (id, row) =>
        row.intoMeta id actor))

def sheetGet (actor : Actor) (id : String) : StoreOp SheetMeta := do
  let row ← sheetRow id
  return row.intoMeta id actor

/-- The cells of a sheet, row by row. -/
def sheetCells (id : String) : StoreOp (List SheetCell) := do
  let row ← sheetRow id
  return (row.sheet.cells.rows.insertionSort (fun one two => one.1.1 < two.1.1 ∨
    (one.1.1 = two.1.1 ∧ one.1.2 ≤ two.1.2))).map (fun (position, cell) =>
      cell.toSheetCell position.1 position.2)

/-- `read_sheet_layout_kind`. -/
def layoutOf (sizes : Table Nat Nat) : List (Nat × Nat) :=
  sizes.rows.insertionSort (fun one two => one.1 ≤ two.1)

def sheetLayout (id : String) : StoreOp (List (Nat × Nat) × List (Nat × Nat)) := do
  let row ← sheetRow id
  return (layoutOf row.colWidths, layoutOf row.rowHeights)

def sheetMerges (id : String) : StoreOp (List SheetMerge) := do
  let row ← sheetRow id
  return row.sheet.merges

def newSheet (now : Nat) (actor : Actor) (name : String) : SheetRow where
  name := name
  ownerId := actor.ownerId
  ownerName := actor.name
  createdAt := now
  gridlines := true
  freezeRows := 0
  freezeCols := 0
  colWidths := Table.empty
  rowHeights := Table.empty
  sheet := Sheet.created now

def sheetCreate (now : Nat) (newId : String) (actor : Actor) (name : String) :
    StoreOp SheetMeta := do
  lift (validateSheetName name)
  let count ← query (·.sheets.size)
  refuse (count ≥ MAX_SHEETS)
    s!"シートの枚数が上限({MAX_SHEETS} 枚)に達しています。不要なシートを削除してください"
  requireUnused (fun db => (db.sheets.get? newId).isSome) "UNIQUE constraint failed: sheets.id"
  execute (fun db => { db with sheets := db.sheets.insert newId (newSheet now actor name) })
  sheetGet actor newId

/-- A sheet that the actor may rename or delete. -/
def managedSheet (actor : Actor) (id error : String) : StoreOp SheetRow := do
  let row ← sheetRow id
  refuse (actor.canManageOwned row.ownerId = false) error
  return row

def sheetRename (now : Nat) (actor : Actor) (id name : String) : StoreOp SheetMeta := do
  lift (validateSheetName name)
  let _ ← managedSheet actor id "このシートを改名できるのは作成者と管理者(ホスト/admin)だけです"
  execute (setSheet id (fun row =>
    { row with name := name, sheet := { row.sheet with updatedAt := now } }))
  sheetGet actor id

def sheetDelete (actor : Actor) (id : String) : StoreOp Unit := do
  let _ ← managedSheet actor id "このシートを削除できるのは作成者と管理者(ホスト/admin)だけです"
  execute (fun db => { db with sheets := db.sheets.erase id })

/-- A size set, or reset to the default. -/
def withSize (sizes : Table Nat Nat) (index : Nat) : Option Nat → Table Nat Nat
  | none => sizes.erase index
  | some size => sizes.insert index size

def sheetSetColWidth (id : String) (col : Nat) (width : Option Nat) : StoreOp Unit := do
  let _ ← sheetRow id
  refuse (col ≥ MAX_SHEET_COLS)
    s!"列の位置が上限を超えています(列は {MAX_SHEET_COLS} 未満にしてください)"
  match width with
  | none => pure ()
  | some width => lift (validateColWidth width)
  execute (setSheet id (fun row => { row with colWidths := withSize row.colWidths col width }))

def sheetSetRowHeight (id : String) (row : Nat) (height : Option Nat) : StoreOp Unit := do
  let _ ← sheetRow id
  refuse (row ≥ MAX_SHEET_ROWS)
    s!"行の位置が上限を超えています(行は {MAX_SHEET_ROWS} 未満にしてください)"
  match height with
  | none => pure ()
  | some height => lift (validateRowHeight height)
  execute (setSheet id (fun sheet =>
    { sheet with rowHeights := withSize sheet.rowHeights row height }))

def sheetMerge (now : Nat) (actor : Actor) (id : String) (merge : SheetMerge) :
    StoreOp (List SheetMerge × List SheetCell) := do
  let row ← sheetRow id
  let (sheet, merges, deleted) ← lift (row.sheet.merge actor.name now merge)
  execute (setSheet id (fun row => { row with sheet := sheet }))
  return (merges, deleted)

/-- The merged ranges without the one that contains a cell. -/
def unmerged (sheet : Sheet) (row col : Nat) : Except String Sheet :=
  match sheet.merges.find? (·.contains row col) with
  | none => .error "この位置に結合セルはありません"
  | some target =>
      .ok { sheet with
        merges := sheet.merges.filter (fun merge =>
          ¬ (merge.row = target.row ∧ merge.col = target.col)) }

def sheetUnmerge (id : String) (row col : Nat) : StoreOp (List SheetMerge) := do
  let found ← sheetRow id
  let sheet ← lift (unmerged found.sheet row col)
  execute (setSheet id (fun row => { row with sheet := sheet }))
  return sheet.merges

def sheetSetSettings (actor : Actor) (id : String) (gridlines : Bool) (freezeRows freezeCols : Nat) :
    StoreOp SheetMeta := do
  let _ ← sheetRow id
  refuse (freezeRows ≥ MAX_SHEET_ROWS ∨ freezeCols ≥ MAX_SHEET_COLS)
    "固定するウインドウ枠が表の上限を超えています"
  execute (setSheet id (fun row =>
    { row with gridlines := gridlines, freezeRows := freezeRows, freezeCols := freezeCols }))
  sheetGet actor id

def sheetWrite (now : Nat) (actor : Actor) (id : String) (cells : List CellWrite) :
    StoreOp WriteResult := do
  let row ← sheetRow id
  let (sheet, result) ← lift (row.sheet.write actor.name now cells)
  execute (setSheet id (fun row => { row with sheet := sheet }))
  return result

/-! ### The schedule -/

def scheduleRow (id : String) : StoreOp ScheduleRow := do
  let found ← query (·.scheduleEvents.get? id)
  expect found "予定が見つかりません(削除された可能性があります)"

def setSchedule (id : String) (change : ScheduleRow → ScheduleRow) (db : SharedDb) : SharedDb :=
  { db with scheduleEvents := db.scheduleEvents.update id change }

def scheduleList (actor : Actor) : StoreOp (List ScheduleEvent) :=
  query (fun db =>
    (db.scheduleEvents.rows.insertionSort (fun one two => one.2.startAt < two.2.startAt ∨
      (one.2.startAt = two.2.startAt ∧ one.1 ≤ two.1))).map (fun (id, row) =>
        row.intoEvent id actor))

def scheduleGet (actor : Actor) (id : String) : StoreOp ScheduleEvent := do
  let row ← scheduleRow id
  return row.intoEvent id actor

def newScheduleRow (now : Nat) (actor : Actor) (title note : String) (startUnixMs : Nat)
    (endUnixMs : Option Nat) (allDay : Bool) (participants : List ScheduleParticipant) :
    ScheduleRow where
  title := title
  note := note
  startAt := startUnixMs
  endAt := endUnixMs
  allDay := allDay
  ownerId := actor.ownerId
  ownerName := actor.name
  updatedBy := actor.name
  participants := participants
  revision := 1
  createdAt := now
  updatedAt := now

def scheduleCreate (now : Nat) (newId : String) (actor : Actor) (title note : String)
    (startUnixMs : Nat) (endUnixMs : Option Nat) (allDay : Bool)
    (participants : List ScheduleParticipant) : StoreOp ScheduleEvent := do
  lift (validateSchedule title note startUnixMs endUnixMs participants)
  let count ← query (·.scheduleEvents.size)
  refuse (count ≥ MAX_SCHEDULE_EVENTS)
    s!"予定の件数が上限({MAX_SCHEDULE_EVENTS} 件)に達しています。不要な予定を削除してください"
  requireUnused (fun db => (db.scheduleEvents.get? newId).isSome)
    "UNIQUE constraint failed: schedule_events.id"
  execute (fun db =>
    { db with
      scheduleEvents := db.scheduleEvents.insert newId
        (newScheduleRow now actor title note startUnixMs endUnixMs allDay participants) })
  scheduleGet actor newId

/-- An event that the actor may change or delete. -/
def managedSchedule (actor : Actor) (id error : String) : StoreOp ScheduleRow := do
  let row ← scheduleRow id
  refuse (actor.canManageOwned row.ownerId = false) error
  return row

def scheduleUpdate (now : Nat) (actor : Actor) (id : String) (baseRevision : Nat)
    (title note : String) (startUnixMs : Nat) (endUnixMs : Option Nat) (allDay : Bool)
    (participants : List ScheduleParticipant) : StoreOp ScheduleEvent := do
  lift (validateSchedule title note startUnixMs endUnixMs participants)
  let row ← managedSchedule actor id "この予定を編集できるのは作成者と管理者(ホスト/admin)だけです"
  refuse (row.revision ≠ baseRevision) COMPETING_EDIT
  execute (setSchedule id (fun row =>
    { row with
      title := title
      note := note
      startAt := startUnixMs
      endAt := endUnixMs
      allDay := allDay
      updatedBy := actor.name
      participants := participants
      revision := row.revision + 1
      updatedAt := now }))
  scheduleGet actor id

def scheduleDelete (actor : Actor) (id : String) : StoreOp Unit := do
  let _ ← managedSchedule actor id "この予定を削除できるのは作成者と管理者(ホスト/admin)だけです"
  execute (fun db => { db with scheduleEvents := db.scheduleEvents.erase id })

end SharedStore

end PeerCove
