/-
Module: PeerCove.Memo.MemoStore
Layer: Store
Purpose: The store of personal memos: memos with their tags, folders and the reminders of this
  device.  Times and random ids are arguments.
Trusted boundary: SQLite keeps primary keys and foreign keys; `LIKE` with an escape character
Main exports: MemoDb, MemoOp, MemoStore.apply, MemoStore.purgeExpiredTrash
-/
import PeerCove.Library.Like
import PeerCove.Library.Stateful
import PeerCove.Memo.SharedStore

namespace PeerCove

open Fallible Stateful

/-! ### Data -/

/-- UNIX milliseconds as SQLite stores them. -/
abbrev UnixMs := Int64

def MAX_BODY_BYTES : Nat := 256 * 1024
def TRASH_RETENTION_DAYS : Int64 := 30
def MAX_REMINDERS_PER_TARGET : Nat := 10
def MAX_TAGS_PER_MEMO : Nat := 30
def MAX_TAG_CHARS : Nat := 50
def TRASH_RETENTION_MS : Int64 := TRASH_RETENTION_DAYS * 24 * 60 * 60 * 1000

/-- A row of `memos` with its rows of `memo_tags`, which go with it by the foreign key. -/
structure PersonalMemo where
  title : String
  body : String
  folderId : Option String
  pinned : Bool := false
  archived : Bool := false
  createdAt : UnixMs
  updatedAt : UnixMs
  deletedAt : Option UnixMs := none
  tags : List String := []
deriving DecidableEq

structure PersonalFolder where
  name : String
  createdAt : UnixMs
deriving DecidableEq

/-- What a reminder is about. -/
inductive ReminderScope where
  | personal
  | shared
  | schedule
deriving DecidableEq

/-- Primary key of `reminders`. -/
structure ReminderKey where
  scope : ReminderScope
  network : String
  memoId : String
  remindAt : UnixMs
deriving DecidableEq

structure ReminderRow where
  offsetMinutes : Option UInt32
  fired : Bool
deriving DecidableEq

/-- The tables of `memos.db`. -/
structure MemoDb where
  memos : Table String PersonalMemo
  folders : Table String PersonalFolder
  reminders : Table ReminderKey ReminderRow
deriving DecidableEq

def MemoDb.empty : MemoDb where
  memos := Table.empty
  folders := Table.empty
  reminders := Table.empty

/-- A memo as the editor shows it. -/
structure MemoDetail where
  id : String
  title : String
  body : String
  folderId : Option String
  tags : List String
  pinned : Bool
  archived : Bool
  createdAt : UInt64
  updatedAt : UInt64
  deletedAt : Option UInt64
deriving DecidableEq

/-- A memo in a list. -/
structure MemoSummary where
  id : String
  title : String
  excerpt : String
  folderId : Option String
  tags : List String
  pinned : Bool
  archived : Bool
  createdAt : UInt64
  updatedAt : UInt64
  deletedAt : Option UInt64
  checklistDone : Nat
  checklistTotal : Nat
deriving DecidableEq

structure MemoReminder where
  scope : ReminderScope
  network : String
  memoId : String
  remindAt : UInt64
  offsetMinutes : Option UInt32
deriving DecidableEq

/-- A change of some fields; `folder` moves the memo, also out of its folder. -/
structure MemoPatch where
  title : Option String := none
  body : Option String := none
  folder : Option (Option String) := none
  pinned : Option Bool := none
  archived : Option Bool := none
  tags : Option (List String) := none

inductive MemoOp where
  | get (id : String)
  | resolveTitles (titles : List String)
  | backlinks (id : String)
  | create (title body : String) (folderId : Option String) (tags : List String)
  | update (id : String) (patch : MemoPatch)
  | duplicate (id : String)
  | trash (id : String)
  | restore (id : String)
  | deleteForever (id : String)
  | emptyTrash
  | folderCreate (name : String)
  | folderRename (id name : String)
  | folderDelete (id : String)
  | reminderSet (scope : ReminderScope) (network memoId : String) (remindAt : UInt64)
      (offsetMinutes : Option UInt32)
  | reminderClear (scope : ReminderScope) (network memoId : String) (remindAt : Option UInt64)
  | reminderList
  | reminderTakeDue

inductive MemoReply where
  | memo (memo : MemoDetail)
  | memos (memos : List MemoSummary)
  | titles (map : List (String × String))
  | folder (folder : MemoFolder)
  | reminders (reminders : List MemoReminder)
  | done
deriving DecidableEq

/-- An operation on the personal store: it may fail part way. -/
abbrev MemoStep (α : Type) := Stateful MemoDb String α

namespace MemoStore

/-! ### Checks of the input -/

def validateText (title body : String) : Except String Unit := do
  validateTitle title
  validateBodyBytes body MAX_BODY_BYTES

/-- The loop of `normalize_tags`: blank ones and repetitions are left out. -/
def normalizeLoop : List String → List String → Except String (List String)
  | out, [] => .ok out
  | out, tag :: rest =>
      if Text.trim tag = "" ∨ Text.trim tag ∈ out then normalizeLoop out rest
      else if Text.charCount (Text.trim tag) > MAX_TAG_CHARS then
        .error s!"タグが長すぎます(上限 {MAX_TAG_CHARS} 文字)"
      else normalizeLoop (out ++ [Text.trim tag]) rest

def normalizeTags (tags : List String) : Except String (List String) := do
  let out ← normalizeLoop [] tags
  refuseIf (out.length > MAX_TAGS_PER_MEMO)
    s!"タグが多すぎます(1 メモにつき上限 {MAX_TAGS_PER_MEMO} 個)"
  return out

/-! ### Reads -/

def NOT_FOUND : String := "メモが見つかりません(削除された可能性があります)"

/-- `tags_of`, in the order of their characters. -/
def sortedTags (memo : PersonalMemo) : List String :=
  memo.tags.insertionSort (fun one two => one.toList ≤ two.toList)

def detail (id : String) (memo : PersonalMemo) : MemoDetail where
  id := id
  title := memo.title
  body := memo.body
  folderId := memo.folderId
  tags := sortedTags memo
  pinned := memo.pinned
  archived := memo.archived
  createdAt := memo.createdAt.toUInt64
  updatedAt := memo.updatedAt.toUInt64
  deletedAt := memo.deletedAt.map Int64.toUInt64

def summary (id : String) (memo : PersonalMemo) : MemoSummary where
  id := id
  title := memo.title
  excerpt := excerpt memo.body EXCERPT_CHARS
  folderId := memo.folderId
  tags := sortedTags memo
  pinned := memo.pinned
  archived := memo.archived
  createdAt := memo.createdAt.toUInt64
  updatedAt := memo.updatedAt.toUInt64
  deletedAt := memo.deletedAt.map Int64.toUInt64
  checklistDone := (checklistProgress memo.body).1
  checklistTotal := (checklistProgress memo.body).2

def get (id : String) : MemoStep MemoDetail := do
  let found ← query (·.memos.get? id)
  let memo ← expect found NOT_FOUND
  return detail id memo

/-- Latest changes first; rows that compare equal stay in the order of the table. -/
def byUpdated (rows : List (String × PersonalMemo)) : List (String × PersonalMemo) :=
  rows.insertionSort (fun one two => two.2.updatedAt ≤ one.2.updatedAt)

/-- The memo that a link with this title leads to: the last changed one outside the trash. -/
def resolveTitle (title : String) (db : MemoDb) : Option String :=
  ((byUpdated (db.memos.rows.filter (fun row =>
    row.2.title = title && row.2.deletedAt.isNone))).head?).map Prod.fst

def resolveTitles (titles : List String) : MemoStep (List (String × String)) :=
  query (fun db => (titles.dedup.filter (· ≠ "")).filterMap (fun title =>
    (resolveTitle title db).map (fun id => (title, id))))

/-- The special characters of `LIKE … ESCAPE '\'`. -/
def likeSpecials : Like.Specials Char where
  escape := '\\'
  many := '%'
  one := '_'

/-- `escape_like`: one `replace` after the other, the escape character first. -/
def escapeLike (text : List Char) : List Char :=
  ((text.flatMap (fun c => if c = '\\' then ['\\', '\\'] else [c])).flatMap
    (fun c => if c = '%' then ['\\', '%'] else [c])).flatMap
      (fun c => if c = '_' then ['\\', '_'] else [c])

/-- The pattern of the memos that link to a title. -/
def backlinkPattern (title : String) : List Char :=
  "%[[".toList ++ escapeLike title.toList ++ "]]%".toList

/-- The `WHERE` clause of `backlinks`. -/
def linksTo (id title : String) (row : String × PersonalMemo) : Bool :=
  row.2.deletedAt.isNone && decide (row.1 ≠ id) &&
    Like.like Text.toAsciiLower likeSpecials (backlinkPattern title) row.2.body.toList

def backlinks (id : String) : MemoStep (List MemoSummary) := do
  let memo ← get id
  if memo.title = "" then
    return []
  else
    query (fun db => (byUpdated (db.memos.rows.filter (linksTo id memo.title))).map
      (fun row => summary row.1 row.2))

/-! ### Memos -/

/-- The id is a random one. -/
def requireNew (taken : MemoDb → Bool) (error : String) : MemoStep Unit := do
  let taken ← query taken
  refuse (taken = true) error

def ensureFolderExists (folderId : String) : MemoStep Unit := do
  let found ← query (·.folders.get? folderId)
  refuse (found = none) "指定のフォルダーが見つかりません(削除された可能性があります)"

def setMemo (id : String) (change : PersonalMemo → PersonalMemo) : MemoStep Unit :=
  execute (fun db => { db with memos := db.memos.update id change })

def newMemo (now : UnixMs) (title body : String) (folderId : Option String)
    (tags : List String) : PersonalMemo where
  title := title
  body := body
  folderId := folderId
  createdAt := now
  updatedAt := now
  tags := tags

/-- The optional folder of a new memo. -/
def ensureFolder : Option String → MemoStep Unit
  | none => pure ()
  | some folderId => ensureFolderExists folderId

def create (now : UnixMs) (newId title body : String) (folderId : Option String)
    (tags : List String) : MemoStep MemoDetail := do
  lift (validateText title body)
  let tags ← lift (normalizeTags tags)
  transaction (do
    ensureFolder folderId
    requireNew (fun db => (db.memos.get? newId).isSome) "UNIQUE constraint failed: memos.id"
    execute (fun db =>
      { db with memos := db.memos.insert newId (newMemo now title body folderId tags) }))
  get newId

/-- An `UPDATE` statement that a field of the patch asks for. -/
def patchField {α : Type} (id : String) (field : Option α)
    (change : α → PersonalMemo → PersonalMemo) : MemoStep Unit :=
  match field with
  | none => pure ()
  | some value => setMemo id (change value)

def patchFolder (id : String) : Option (Option String) → MemoStep Unit
  | none => pure ()
  | some folder => do
      ensureFolder folder
      setMemo id (fun memo => { memo with folderId := folder })

/-- Only title and body move the time of the last change. -/
def touchesContent (patch : MemoPatch) : Bool :=
  patch.title.isSome || patch.body.isSome

def update (now : UnixMs) (id : String) (patch : MemoPatch) : MemoStep MemoDetail := do
  lift (match patch.title with
    | none => pure ()
    | some title => validateText title "")
  lift (match patch.body with
    | none => pure ()
    | some body => validateText "" body)
  let tags ← lift (match patch.tags with
    | none => pure none
    | some tags => some <$> normalizeTags tags)
  transaction (do
    let found ← query (·.memos.get? id)
    refuse (found = none) NOT_FOUND
    patchField id patch.title (fun title memo => { memo with title := title })
    patchField id patch.body (fun body memo => { memo with body := body })
    patchFolder id patch.folder
    patchField id patch.pinned (fun pinned memo => { memo with pinned := pinned })
    patchField id patch.archived (fun archived memo => { memo with archived := archived })
    patchField id tags (fun tags memo => { memo with tags := tags })
    if touchesContent patch then setMemo id (fun memo => { memo with updatedAt := now })
    else pure ())
  get id

/-- Title of a copy, cut to the maximum length. -/
def copyTitle (title : String) : String :=
  String.ofList ((if title = "" then "無題のコピー" else s!"{title} のコピー").toList.take
    MAX_TITLE_CHARS)

def duplicate (now : UnixMs) (newId id : String) : MemoStep MemoDetail := do
  let source ← get id
  create now newId (copyTitle source.title) source.body source.folderId source.tags

/-! ### The trash -/

def inTrash (id : String) (db : MemoDb) : Bool :=
  (db.memos.get? id).any (fun memo => memo.deletedAt.isSome)

def trash (now : UnixMs) (id : String) : MemoStep Unit := do
  let changed ← query (fun db => (db.memos.get? id).any (fun memo => memo.deletedAt.isNone))
  refuse (changed = false) "メモが見つかりません(既に削除された可能性があります)"
  setMemo id (fun memo => { memo with deletedAt := some now })

def restore (id : String) : MemoStep Unit := do
  let changed ← query (inTrash id)
  refuse (changed = false) "ゴミ箱にこのメモはありません"
  setMemo id (fun memo => { memo with deletedAt := none })

/-- The reminders of a personal memo that the store removes with it. -/
def ofMemo (id : String) (key : ReminderKey) : Bool :=
  key.scope = .personal && key.network = "" && key.memoId = id

/-- Only what is in the trash is deleted, and its reminders with it. -/
def deleteForever (id : String) : MemoStep Unit := do
  let changed ← query (inTrash id)
  refuse (changed = false) "ゴミ箱にこのメモはありません(完全削除はゴミ箱からのみ)"
  execute (fun db => { db with memos := db.memos.erase id })
  execute (fun db => { db with reminders := db.reminders.filter (fun key _ => !ofMemo id key) })

def emptyTrash : MemoStep Unit :=
  transaction (do
    execute (fun db =>
      { db with reminders := db.reminders.filter (fun key _ =>
          !(key.scope = .personal && key.network = "" && inTrash key.memoId db)) })
    execute (fun db =>
      { db with memos := db.memos.filter (fun _ memo => memo.deletedAt.isNone) }))

/-- `i64::saturating_sub`. -/
def saturatingSub (a b : Int64) : Int64 :=
  Int64.ofIntClamp (a.toInt - b.toInt)

/-- Whether a memo is in the trash for longer than the retention time. -/
def expired (now : UnixMs) (memo : PersonalMemo) : Bool :=
  memo.deletedAt.any (fun deletedAt => deletedAt < saturatingSub now TRASH_RETENTION_MS)

/-- What opening the store does besides the migration. -/
def purgeExpiredTrash (now : UnixMs) : MemoStep Unit :=
  execute (fun db => { db with memos := db.memos.filter (fun _ memo => !expired now memo) })

/-! ### Folders -/

def folderCreate (now : UnixMs) (newId name : String) : MemoStep MemoFolder := do
  let name ← lift (validateFolderName name)
  requireNew (fun db => db.folders.rows.any (fun entry => entry.2.name = name))
    "同じ名前のフォルダーが既にあります"
  requireNew (fun db => (db.folders.get? newId).isSome) "UNIQUE constraint failed: folders.id"
  execute (fun db =>
    { db with folders := db.folders.insert newId { name := name, createdAt := now } })
  return { id := newId, name := name, memoCount := 0 }

def folderRename (id name : String) : MemoStep Unit := do
  let name ← lift (validateFolderName name)
  let found ← query (·.folders.get? id)
  refuse (found = none) "フォルダーが見つかりません"
  execute (fun db =>
    { db with folders := db.folders.update id (fun folder => { folder with name := name }) })

/-- A folder is deleted and its memos are in none; both or neither. -/
def folderDelete (id : String) : MemoStep Unit :=
  transaction (do
    execute (fun db =>
      { db with memos := db.memos.mapRows (fun _ memo =>
          if memo.folderId = some id then { memo with folderId := none } else memo) })
    let found ← query (·.folders.get? id)
    refuse (found = none) "フォルダーが見つかりません"
    execute (fun db => { db with folders := db.folders.erase id }))

/-! ### Reminders -/

/-- The reminders of the same target. -/
def sameTarget (key other : ReminderKey) : Bool :=
  other.scope = key.scope && other.network = key.network && other.memoId = key.memoId

/-- Number of reminders of the target at other times. -/
def otherReminders (key : ReminderKey) (db : MemoDb) : Nat :=
  (db.reminders.filter (fun other _ => sameTarget key other && other.remindAt ≠ key.remindAt)).size

/-- `INSERT … ON CONFLICT … DO UPDATE SET offset_minutes, fired = 0`. -/
def putReminder (key : ReminderKey) (offsetMinutes : Option UInt32) (db : MemoDb) : MemoDb :=
  { db with reminders :=
      if (db.reminders.get? key).isSome then
        db.reminders.update key (fun _ => { offsetMinutes := offsetMinutes, fired := false })
      else
        db.reminders.insert key { offsetMinutes := offsetMinutes, fired := false } }

def reminderSet (now : UnixMs) (key : ReminderKey) (offsetMinutes : Option UInt32) :
    MemoStep Unit := do
  refuse (key.remindAt ≤ now) "過去の日時は指定できません"
  let existing ← query (otherReminders key)
  refuse (existing ≥ MAX_REMINDERS_PER_TARGET)
    s!"リマインダーの件数が上限({MAX_REMINDERS_PER_TARGET} 件)に達しています"
  execute (putReminder key offsetMinutes)

/-- Remove one reminder of a target, or all of them when no time is given. -/
def reminderClear (scope : ReminderScope) (network memoId : String) (remindAt : Option UInt64) :
    MemoStep Unit :=
  execute (fun db =>
    { db with reminders := db.reminders.filter (fun key _ =>
        !(key.scope = scope && key.network = network && key.memoId = memoId &&
          remindAt.all (fun remindAt => key.remindAt = remindAt.toInt64))) })

def toReminder (key : ReminderKey) (row : ReminderRow) : MemoReminder where
  scope := key.scope
  network := key.network
  memoId := key.memoId
  remindAt := key.remindAt.toUInt64
  offsetMinutes := row.offsetMinutes

/-- Earliest first; rows that compare equal stay in the order of the table. -/
def byRemindAt (rows : List (ReminderKey × ReminderRow)) : List (ReminderKey × ReminderRow) :=
  rows.insertionSort (fun one two => one.1.remindAt ≤ two.1.remindAt)

def remindersAll : MemoStep (List MemoReminder) :=
  query (fun db => (byRemindAt (db.reminders.rows.filter (fun row => !row.2.fired))).map
    (fun row => toReminder row.1 row.2))

/-- `fired = 0 AND remind_at <= ?1`. -/
def due (now : UnixMs) (key : ReminderKey) (row : ReminderRow) : Bool :=
  !row.fired && decide (key.remindAt ≤ now)

def remindersTakeDue (now : UnixMs) : MemoStep (List MemoReminder) :=
  transaction (do
    let due_ ← query (fun db =>
      (byRemindAt (db.reminders.rows.filter (fun row => due now row.1 row.2))).map
        (fun row => toReminder row.1 row.2))
    execute (fun db =>
      { db with reminders := db.reminders.mapRows (fun key row =>
          if due now key row then { row with fired := true } else row) })
    return due_)

/-! ### Operations -/

/-- `unix_ms() as u64 as i64` is the time itself. -/
def apply (now : UnixMs) (newId : String) : MemoOp → MemoStep MemoReply
  | .get id => MemoReply.memo <$> get id
  | .resolveTitles titles => MemoReply.titles <$> resolveTitles titles
  | .backlinks id => MemoReply.memos <$> backlinks id
  | .create title body folderId tags =>
      MemoReply.memo <$> create now newId title body folderId tags
  | .update id patch => MemoReply.memo <$> update now id patch
  | .duplicate id => MemoReply.memo <$> duplicate now newId id
  | .trash id => (fun _ => .done) <$> trash now id
  | .restore id => (fun _ => .done) <$> restore id
  | .deleteForever id => (fun _ => .done) <$> deleteForever id
  | .emptyTrash => (fun _ => .done) <$> emptyTrash
  | .folderCreate name => MemoReply.folder <$> folderCreate now newId name
  | .folderRename id name => (fun _ => .done) <$> folderRename id name
  | .folderDelete id => (fun _ => .done) <$> folderDelete id
  | .reminderSet scope network memoId remindAt offsetMinutes =>
      (fun _ => .done) <$>
        reminderSet now
          { scope := scope, network := network, memoId := memoId, remindAt := remindAt.toInt64 }
          offsetMinutes
  | .reminderClear scope network memoId remindAt =>
      (fun _ => .done) <$> reminderClear scope network memoId remindAt
  | .reminderList => MemoReply.reminders <$> remindersAll
  | .reminderTakeDue => MemoReply.reminders <$> remindersTakeDue now

end MemoStore

/-! ### Runs -/

/-- What happens to a store: it is opened, or an operation is applied to it. -/
inductive MemoEvent where
  | opened (now : UnixMs)
  | applied (now : UnixMs) (newId : String) (op : MemoOp)

namespace MemoEvent

def now : MemoEvent → UnixMs
  | .opened now => now
  | .applied now _ _ => now

/-- The reply, or the refusal, and the store afterwards. -/
def perform : MemoEvent → MemoStep MemoReply
  | .opened now => (fun _ => .done) <$> MemoStore.purgeExpiredTrash now
  | .applied now newId op => MemoStore.apply now newId op

/-- The reminders that a reply delivers: only `ReminderTakeDue` takes them out of the store. -/
def delivery : MemoEvent → Except String MemoReply → List (UnixMs × List MemoReminder)
  | .applied now _ .reminderTakeDue, .ok (.reminders reminders) => [(now, reminders)]
  | _, _ => []

end MemoEvent

structure MemoRun where
  db : MemoDb
  /-- What every `ReminderTakeDue` delivered, and when (history). -/
  delivered : List (UnixMs × List MemoReminder) := []
deriving DecidableEq

/-- One event; a refused operation changes what it has written before, if anything. -/
def MemoRun.step (event : MemoEvent) (run : MemoRun) : Option MemoRun :=
  some {
    db := (event.perform run.db).2
    delivered := run.delivered ++ event.delivery (event.perform run.db).1 }

end PeerCove
