/-
Module: PeerCove.Memo.SharedDb
Layer: Store
Purpose: The host's database of shared memos: its tables, and the reads and writes that the
  operations are made of.
Trusted boundary: SQLite keeps primary keys and foreign keys; input and output do not fail; the
  settings are read as the limits they were written from
Main exports: SharedDb, SharedDb.row?, SharedDb.permContext, SharedDb.insertHistory,
  SharedDb.trimHistory, SharedDb.purgeMemo
-/
import PeerCove.Memo.Permissions
import PeerCove.Memo.Sheet
import Mathlib.Algebra.Ring.Nat
import Mathlib.Data.Char
import Mathlib.Data.List.Lex

namespace PeerCove

def DAY_MS : Nat := 24 * 60 * 60 * 1000

structure FolderRow where
  name : String
  createdAt : Nat
deriving Repr, DecidableEq

/-- A stored version of a memo. -/
structure HistoryRow where
  memoId : String
  revision : Nat
  kind : String
  savedByName : String
  title : String
  body : String
  createdAt : Nat
deriving Repr, DecidableEq

structure CommentRow where
  memoId : String
  authorId : String
  authorName : String
  body : String
  createdAt : Nat
deriving Repr, DecidableEq

structure ScheduleParticipant where
  memberId : String
  name : String
deriving Repr, DecidableEq

structure ScheduleRow where
  title : String
  note : String
  startAt : Nat
  endAt : Option Nat
  allDay : Bool
  ownerId : String
  ownerName : String
  updatedBy : String
  participants : List ScheduleParticipant
  revision : Nat
  createdAt : Nat
  updatedAt : Nat
deriving Repr, DecidableEq

/-- A sheet with everything stored under its id. -/
structure SheetRow where
  name : String
  ownerId : String
  ownerName : String
  createdAt : Nat
  gridlines : Bool
  freezeRows : Nat
  freezeCols : Nat
  colWidths : Table Nat Nat
  rowHeights : Table Nat Nat
  sheet : Sheet
deriving DecidableEq

/-- The tables of `<config>.memos.db`. -/
structure SharedDb where
  memos : Table String MemoRow
  folders : Table String FolderRow
  memoPerms : Table (String × String) (String × SharedPermLevel)
  memoGroupPerms : Table (String × String) (String × SharedPermLevel)
  memoHistory : Table Nat HistoryRow
  lastHid : Nat
  memoComments : Table String CommentRow
  deletedMemos : Table String Nat
  limits : SharedMemoLimits
  scheduleEvents : Table String ScheduleRow
  sheets : Table String SheetRow
deriving DecidableEq

namespace SharedDb

/-- A new database. -/
def empty : SharedDb where
  memos := Table.empty
  folders := Table.empty
  memoPerms := Table.empty
  memoGroupPerms := Table.empty
  memoHistory := Table.empty
  lastHid := 0
  memoComments := Table.empty
  deletedMemos := Table.empty
  limits := {}
  scheduleEvents := Table.empty
  sheets := Table.empty

variable (db : SharedDb)

/-! ### Reads -/

/-- Comments of a memo, oldest first. -/
def commentsOf (id : String) : List SharedMemoComment :=
  ((db.memoComments.filter (fun _ row => row.memoId = id)).rows.map (fun (commentId, row) =>
    { commentId := commentId
      memoId := row.memoId
      authorId := row.authorId
      authorName := row.authorName
      body := row.body
      createdAtUnixMs := row.createdAt : SharedMemoComment })).insertionSort
        (fun one two => one.createdAtUnixMs < two.createdAtUnixMs ∨
          (one.createdAtUnixMs = two.createdAtUnixMs ∧ one.commentId ≤ two.commentId))

def commentCount (id : String) : Nat :=
  (db.memoComments.filter (fun _ row => row.memoId = id)).size

/-- The columns every query on memos selects. -/
def toRow (id : String) (columns : MemoRow) : Row :=
  { columns with id := id, commentCount := db.commentCount id }

def row? (id : String) : Option Row :=
  (db.memos.get? id).map (db.toRow id)

def rows : List Row :=
  db.memos.rows.map (fun (id, columns) => db.toRow id columns)

/-- `perm_context`: both kinds of permission entries of a memo. -/
def permContext (id : String) : PermContext where
  levels := db.memoPerms.project id
  groupLevels := db.memoGroupPerms.project id

/-- Versions of a memo, newest first. -/
def historyOf (id : String) : List (Nat × HistoryRow) :=
  (db.memoHistory.filter (fun _ row => row.memoId = id)).rows.insertionSort
    (fun one two => two.2.createdAt < one.2.createdAt ∨
      (two.2.createdAt = one.2.createdAt ∧ two.1 ≤ one.1))

def latestHistory (id : String) : Option HistoryRow :=
  (db.historyOf id).head?.map Prod.snd

/-- A version of a memo by its number. -/
def historyRow? (id : String) (hid : Nat) : Option HistoryRow :=
  (db.memoHistory.get? hid).filter (fun row => row.memoId = id)

/-- Bytes of all bodies and of all stored versions. -/
def totalBodyBytes : Nat :=
  (db.memos.rows.map (fun entry => Text.len entry.2.body)).sum +
    (db.memoHistory.rows.map (fun entry => Text.len entry.2.body)).sum

/-- Folders by name, with the number of their memos outside the trash. -/
def folderList : List MemoFolder :=
  (db.folders.rows.map (fun (id, folder) =>
    { id := id
      name := folder.name
      memoCount := (db.memos.filter (fun _ memo =>
        memo.folderId = some id && memo.deletedAt.isNone)).size : MemoFolder })).insertionSort
          (fun one two => one.name.toList.map Text.toAsciiLower ≤ two.name.toList.map Text.toAsciiLower)

def memoIdsWithGroupPerms : List String :=
  (db.memoGroupPerms.rows.map (fun entry => entry.1.1)).dedup

/-! ### Writes -/

def setMemo (id : String) (change : MemoRow → MemoRow) : SharedDb :=
  { db with memos := db.memos.update id change }

def insertMemo (id : String) (memo : MemoRow) : SharedDb :=
  { db with memos := db.memos.insert id memo }

/-- A new version with the next number. -/
def insertHistory (row : HistoryRow) : SharedDb :=
  { db with
    memoHistory := db.memoHistory.insert (db.lastHid + 1) row
    lastHid := db.lastHid + 1 }

/-- Keep the newest versions of a memo, up to the maximum number and for some days. -/
def trimHistory (now : Nat) (id : String) (limits : SharedMemoLimits) : SharedDb :=
  let newest := ((db.historyOf id).take limits.maxVersions).map Prod.fst
  { db with
    memoHistory := db.memoHistory.filter (fun hid row =>
      row.memoId ≠ id ∨
        (hid ∈ newest ∧ ¬ row.createdAt + limits.historyDays * DAY_MS < now)) }

/-- Delete a memo and what belongs to it; its member entries go with it by the foreign key. -/
def purgeMemo (id : String) (now : Nat) : SharedDb :=
  { db with
    memoHistory := db.memoHistory.filter (fun _ row => row.memoId ≠ id)
    memoGroupPerms := db.memoGroupPerms.filter (fun key _ => key.1 ≠ id)
    memoComments := db.memoComments.filter (fun _ row => row.memoId ≠ id)
    memos := db.memos.erase id
    memoPerms := db.memoPerms.filter (fun key _ => key.1 ≠ id)
    deletedMemos := db.deletedMemos.insert id now }

/-! ### Lookups -/

@[simp] theorem toRow_id (id : String) (columns : MemoRow) : (db.toRow id columns).id = id := rfl

@[simp] theorem toRow_toMemoRow (id : String) (columns : MemoRow) :
    (db.toRow id columns).toMemoRow = columns := rfl

variable {db}

theorem row?_eq_some {id : String} {row : Row} :
    db.row? id = some row ↔ ∃ columns, db.memos.get? id = some columns ∧
      db.toRow id columns = row := by
  simp [row?]

theorem row?_isSome {id : String} {row : Row} (found : db.row? id = some row) :
    db.memos.get? id = some row.toMemoRow ∧ row.id = id ∧
      row.commentCount = db.commentCount id := by
  obtain ⟨columns, stored, rfl⟩ := row?_eq_some.mp found
  exact ⟨stored, rfl, rfl⟩

theorem mem_rows {row : Row} : row ∈ db.rows ↔ db.row? row.id = some row := by
  rw [row?_eq_some]
  constructor
  · intro member
    obtain ⟨⟨id, columns⟩, listed, rfl⟩ := List.mem_map.mp member
    exact ⟨columns, Table.get?_eq_some.mpr listed, rfl⟩
  · intro h
    obtain ⟨columns, stored, same⟩ := h
    exact List.mem_map.mpr ⟨(row.id, columns), Table.get?_eq_some.mp stored, same⟩

end SharedDb

end PeerCove
