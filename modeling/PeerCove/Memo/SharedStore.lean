/-
Module: PeerCove.Memo.SharedStore
Layer: Store
Purpose: The operations of `SharedStore` on memos: listing, reading, writing, versions, permissions,
  comments and folders.  Times and random ids are arguments.
Trusted boundary: full-text search of SQLite, as a parameter of `list`
Main exports: SharedStore.update, SharedStore.historyRestore, SharedStore.setPerms,
  SharedStore.list, SharedStore.detailIfVisible
-/
import PeerCove.Memo.SharedDb
import PeerCove.Library.Stateful

namespace PeerCove

open Fallible Stateful

def SHARED_HISTORY_INTERVAL_MS : Nat := 10 * 60 * 1000
def TOMBSTONE_RETENTION_MS : Nat := 90 * DAY_MS

/-- An operation on the database: it may fail part way. -/
abbrev StoreOp (α : Type) := Stateful SharedDb String α

/-! ### Checks of the input -/

def validateTitle (title : String) : Except String Unit :=
  refuseIf (Text.charCount title > MAX_TITLE_CHARS)
    s!"タイトルが長すぎます(上限 {MAX_TITLE_CHARS} 文字)"

def validateBodyBytes (body : String) (maxBytes : Nat) : Except String Unit :=
  refuseIf (Text.len body > maxBytes)
    s!"本文が大きすぎます(上限 {maxBytes / 1024} KB)。メモを分割してください"

def validateFolderName (name : String) : Except String String := do
  refuseIf (Text.trim name = "") "フォルダー名を入力してください"
  refuseIf (Text.charCount (Text.trim name) > 60) "フォルダー名が長すぎます(上限 60 文字)"
  return Text.trim name

namespace SharedStore

/-! ### Texts of the refusals -/

def NOT_FOUND : String := "共有メモが見つかりません(削除された可能性があります)"
def NOT_VISIBLE : String := "このメモを閲覧する権限がありません"
def NOT_EDITABLE : String := "このメモを編集する権限がありません(閲覧のみ)"
def NO_HISTORY : String := "履歴が見つかりません(保持期限切れの可能性があります)"
def COMPETING_EDIT : String :=
  "competing_edit: 他の端末の変更が先に保存されています(最新を読み込み直してください)"

/-! ### Reads -/

def row (id : String) : StoreOp Row := do
  let found ← query (·.row? id)
  expect found NOT_FOUND

/-- A memo with its permission entries. -/
def rowAndContext (id : String) : StoreOp (Row × PermContext) := do
  let row ← row id
  let ctx ← query (·.permContext id)
  return (row, ctx)

/-- A memo the actor may see. -/
def visibleRow (actor : Actor) (id : String) : StoreOp (Row × PermContext) := do
  let (row, ctx) ← rowAndContext id
  refuse (row.visibleTo actor ctx = false) NOT_VISIBLE
  return (row, ctx)

/-- The search clause of a listing: the full-text index from three characters on. -/
def searchMatches (fts : String → MemoRow → Bool) (search : String) (memo : MemoRow) : Bool :=
  if Text.charCount (kanaFold search) ≥ 3 then fts (kanaFold search) memo
  else Text.likeContains (kanaFold memo.title) (kanaFold search) ||
    Text.likeContains (kanaFold memo.body) (kanaFold search)

/-- The `WHERE` clause of a listing. -/
def queryMatches (fts : String → MemoRow → Bool) (query : SharedMemoQuery) (memo : MemoRow) :
    Bool :=
  (if query.trash then memo.deletedAt.isSome else memo.deletedAt.isNone) &&
    (match query.folderId with
    | none => true
    | some folder => memo.folderId = some folder) &&
    (match query.search.map Text.trim with
    | none => true
    | some search => search = "" || searchMatches fts search memo)

/-- The `ORDER BY` clause of a listing; rows that compare equal stay in the order of the table. -/
def queryOrder (query : SharedMemoQuery) (one two : Row) : Bool :=
  if query.trash then two.deletedAt.getD 0 ≤ one.deletedAt.getD 0
  else two.updatedAt ≤ one.updatedAt

def listRows (fts : String → MemoRow → Bool) (query : SharedMemoQuery) (db : SharedDb) :
    List Row :=
  (db.rows.filter (fun row => queryMatches fts query row.toMemoRow)).insertionSort
    (fun one two => queryOrder query one two)

/-- `list`: what the actor sees, and all folders. -/
def list (fts : String → MemoRow → Bool) (actor : Actor) (query : SharedMemoQuery) :
    StoreOp (List SharedMemoSummary × List MemoFolder) :=
  Stateful.query (fun db =>
    (((listRows fts query db).filter (fun row =>
      row.visibleTo actor (db.permContext row.id))).map (fun row =>
        row.summary actor (db.permContext row.id)), db.folderList))

def get (actor : Actor) (id : String) : StoreOp SharedMemoDetail := do
  let (row, ctx) ← visibleRow actor id
  return row.detail actor ctx

/-- The memo as events show it to a recipient; nothing in the trash is shown. -/
def detailIfVisible (actor : Actor) (id : String) : StoreOp (Option SharedMemoDetail) :=
  query (fun db =>
    match db.row? id with
    | none => none
    | some row =>
        if row.deletedAt.isSome then none
        else if row.visibleTo actor (db.permContext id) then
          some (row.detail actor (db.permContext id))
        else none)

/-- The newest memo outside the trash with a title. -/
def titleRow? (title : String) (db : SharedDb) : Option Row :=
  ((db.rows.filter (fun row => row.title = title && row.deletedAt.isNone)).insertionSort
    (fun one two => two.updatedAt ≤ one.updatedAt)).head?

/-- `resolve_titles`: each title once, with the newest memo of that title if the actor sees it. -/
def resolveTitles (actor : Actor) (titles : List String) : StoreOp (List (String × String)) :=
  query (fun db =>
    (titles.dedup.filter (· ≠ "")).filterMap (fun title =>
      match titleRow? title db with
      | none => none
      | some row =>
          if row.visibleTo actor (db.permContext row.id) then some (title, row.id) else none))

/-- Memos the actor sees whose body links to the memo. -/
def backlinks (actor : Actor) (id : String) : StoreOp (List SharedMemoSummary) := do
  let (target, _) ← visibleRow actor id
  if target.title = "" then
    return []
  else
    query (fun db =>
      (((db.rows.filter (fun row => row.deletedAt.isNone && row.id ≠ id &&
        Text.likeContains row.body ("[[" ++ target.title ++ "]]"))).insertionSort
          (fun one two => two.updatedAt ≤ one.updatedAt)).filter (fun row =>
            row.visibleTo actor (db.permContext row.id))).map (fun row =>
              row.summary actor (db.permContext row.id)))

def folders : StoreOp (List MemoFolder) :=
  query (·.folderList)

def limits : StoreOp SharedMemoLimits :=
  query (·.limits)

/-! ### Writing memos -/

/-- An id that a primary key accepts. -/
def requireUnused (taken : SharedDb → Bool) (error : String) : StoreOp Unit := do
  let taken ← query taken
  refuse (taken = true) error

def checkTotalCapacity (limits : SharedMemoLimits) (addedBytes : Nat) : StoreOp Unit := do
  let current ← query SharedDb.totalBodyBytes
  refuse (current + addedBytes > limits.maxTotalBytes)
    s!"共有メモの全体容量が上限({limits.maxTotalBytes / (1024 * 1024)} MB)に達しています。不要なメモや履歴を整理するか、ホストの上限設定を変更してください"

/-- A new memo as the table stores it. -/
def newMemo (now : Nat) (actor : Actor) (title body : String) (folderId : Option String) :
    MemoRow where
  title := title
  body := body
  folderId := folderId
  revision := 1
  ownerId := actor.ownerId
  ownerName := actor.name
  createdAt := now
  updatedAt := now
  updatedBy := some actor.name
  everyone := .viewer
  deletedAt := none

def create (now : Nat) (newId : String) (actor : Actor) (title body : String)
    (folderId : Option String) : StoreOp SharedMemoDetail := do
  lift (validateTitle title)
  let limits ← limits
  lift (validateBodyBytes body limits.maxBodyBytes)
  let count ← query (·.memos.size)
  refuse (count ≥ limits.maxMemoCount)
    s!"共有メモの件数が上限({limits.maxMemoCount} 件)に達しています。不要なメモを完全削除するか、ホストの上限設定を変更してください"
  checkTotalCapacity limits (Text.len body)
  let known ← query (fun db => folderId.all (fun folder => (db.folders.get? folder).isSome))
  refuse (known = false) "指定のフォルダーが見つかりません"
  requireUnused (fun db => (db.memos.get? newId).isSome) "UNIQUE constraint failed: memos.id"
  execute (·.insertMemo newId (newMemo now actor title body folderId))
  get actor newId

/-- A version of the memo as it is, saved by who changed it last. -/
def versionOf (now : Nat) (kind : String) (row : Row) : HistoryRow where
  memoId := row.id
  revision := row.revision
  kind := kind
  savedByName := row.updatedBy.getD row.ownerName
  title := row.title
  body := row.body
  createdAt := now

/-- The database after `snapshot_history`. -/
def withSnapshot (now : Nat) (kind : String) (row : Row) (db : SharedDb) : SharedDb :=
  (db.insertHistory (versionOf now kind row)).trimHistory now row.id db.limits

def snapshotHistory (now : Nat) (memoId kind : String) : StoreOp Unit := do
  let row ← row memoId
  execute (withSnapshot now kind row)

/-- Whether the newest version is missing or older than the interval of automatic saving. -/
def autoSnapshotDue (now : Nat) (memoId : String) (db : SharedDb) : Bool :=
  match db.latestHistory memoId with
  | none => true
  | some latest => latest.createdAt + SHARED_HISTORY_INTERVAL_MS < now

/-- The database after `maybe_auto_snapshot`. -/
def withAutoSnapshot (now : Nat) (row : Row) (db : SharedDb) : SharedDb :=
  if autoSnapshotDue now row.id db then withSnapshot now "auto" row db else db

def maybeAutoSnapshot (now : Nat) (memoId : String) : StoreOp Unit := do
  let stale ← query (autoSnapshotDue now memoId)
  if stale then snapshotHistory now memoId "auto" else pure ()

/-- The `UPDATE` statement of `update` and `history_restore`. -/
def withContent (now : Nat) (actor : Actor) (title body : String) (memo : MemoRow) : MemoRow :=
  { memo with
    title := title
    body := body
    revision := memo.revision + 1
    updatedAt := now
    updatedBy := some actor.name }

def update (now : Nat) (actor : Actor) (id : String) (baseRevision : Nat) (title body : String) :
    StoreOp SharedMemoDetail := do
  lift (validateTitle title)
  let limits ← limits
  lift (validateBodyBytes body limits.maxBodyBytes)
  let (row, ctx) ← visibleRow actor id
  refuse (row.canEdit actor ctx = false) NOT_EDITABLE
  refuse (row.revision ≠ baseRevision) COMPETING_EDIT
  checkTotalCapacity limits (Text.len body)
  maybeAutoSnapshot now id
  execute (·.setMemo id (withContent now actor title body))
  get actor id

/-! ### Versions -/

/-- A version named "close" when the memo has another revision than when editing began. -/
def snapshotIfRevisionChanged (now : Nat) (memoId : String) (sinceRevision : Nat) :
    StoreOp Unit := do
  let row ← row memoId
  if row.revision ≠ sinceRevision then snapshotHistory now memoId "close" else pure ()

/-- A version on request, unless the newest one has the current revision. -/
def saveVersion (now : Nat) (actor : Actor) (id : String) : StoreOp Unit := do
  let (row, ctx) ← rowAndContext id
  refuse (row.canEdit actor ctx = false) NOT_EDITABLE
  let latest ← query (·.latestHistory id)
  if latest.map HistoryRow.revision = some row.revision then pure ()
  else snapshotHistory now id "manual"

def historyEntry (hid : Nat) (row : HistoryRow) : SharedMemoHistoryEntry where
  hid := hid
  revision := row.revision
  kind := row.kind
  savedByName := row.savedByName
  createdAtUnixMs := row.createdAt
  title := row.title
  bodyBytes := Text.len row.body

def historyList (actor : Actor) (id : String) : StoreOp (List SharedMemoHistoryEntry) := do
  let _ ← visibleRow actor id
  query (fun db => (db.historyOf id).map (fun (hid, row) => historyEntry hid row))

/-- A version of the memo, or the error that it is gone. -/
def historyRow (id : String) (hid : Nat) : StoreOp HistoryRow := do
  let found ← query (·.historyRow? id hid)
  expect found NO_HISTORY

def historyGet (actor : Actor) (id : String) (hid : Nat) : StoreOp SharedMemoHistoryDetail := do
  let _ ← visibleRow actor id
  let row ← historyRow id hid
  return { entry := historyEntry hid row, body := row.body }

/-- The two bodies that `history_diff` compares. -/
def historyDiff (actor : Actor) (id : String) (fromHid : Nat) (toHid : Option Nat) :
    StoreOp (String × String) := do
  let (row, _) ← visibleRow actor id
  let old ← historyRow id fromHid
  match toHid with
  | none => return (old.body, row.body)
  | some hid =>
      let new ← historyRow id hid
      return (old.body, new.body)

def historyRestore (now : Nat) (actor : Actor) (id : String) (hid : Nat) :
    StoreOp SharedMemoDetail := do
  let (row, ctx) ← visibleRow actor id
  refuse (row.canEdit actor ctx = false) NOT_EDITABLE
  let version ← historyRow id hid
  lift (validateTitle version.title)
  let limits ← limits
  lift (validateBodyBytes version.body limits.maxBodyBytes)
  checkTotalCapacity limits (Text.len version.body)
  snapshotHistory now id "restore"
  execute (·.setMemo id (withContent now actor version.title version.body))
  get actor id

/-! ### Limits -/

def setLimits (actor : Actor) (limits : SharedMemoLimits) : StoreOp Unit := do
  refuse (actor.isAdmin = false) "共有メモの上限設定を変更できるのは管理者(ホスト/admin)だけです"
  lift limits.validate
  execute (fun db => { db with limits := limits })

/-! ### Trash and deletion -/

/-- A memo whose permissions and existence the actor decides about. -/
def managedRow (actor : Actor) (id error : String) : StoreOp Row := do
  let row ← row id
  refuse (row.canManage actor = false) error
  return row

def trash (now : Nat) (actor : Actor) (id : String) : StoreOp Unit := do
  let _ ← managedRow actor id "このメモを削除できるのは所有者とホスト管理者だけです"
  execute (·.setMemo id (fun memo =>
    if memo.deletedAt.isNone then { memo with deletedAt := some now } else memo))

def restore (actor : Actor) (id : String) : StoreOp Unit := do
  let _ ← managedRow actor id "このメモを復元できるのは所有者とホスト管理者だけです"
  execute (·.setMemo id (fun memo => { memo with deletedAt := none }))

def deleteForever (now : Nat) (actor : Actor) (id : String) : StoreOp Unit := do
  let row ← managedRow actor id "このメモを完全削除できるのは所有者とホスト管理者だけです"
  refuse (row.deletedAt = none) "完全削除はゴミ箱のメモに対してのみ行えます"
  execute (·.purgeMemo id now)

/-- Memos that have been in the trash for longer than the limit. -/
def expiredTrash (now : Nat) (db : SharedDb) : List String :=
  (db.memos.rows.filter (fun entry =>
    entry.2.deletedAt.any (fun time => time + db.limits.trashDays * DAY_MS < now))).map Prod.fst

/-- Periodic deletion of expired memos, and of old entries of the list of deleted ids. -/
def purgeExpired (now : Nat) : StoreOp Nat := do
  let ids ← query (expiredTrash now)
  execute (fun db => ids.foldl (fun db id => db.purgeMemo id now) db)
  execute (fun db =>
    { db with deletedMemos := db.deletedMemos.filter (fun _ time =>
        ¬ time + TOMBSTONE_RETENTION_MS < now) })
  return ids.length

/-! ### Permissions -/

/-- The member entries of a memo replaced; an entry without an id is skipped. -/
def replaceMemberPerms (id : String) (members : List SharedMemberPerm) (db : SharedDb) : SharedDb :=
  { db with
    memoPerms := members.foldl (fun table perm =>
      if perm.memberId = "" then table
      else table.insert (id, perm.memberId) (perm.name, perm.level))
        (db.memoPerms.filter (fun key _ => key.1 ≠ id)) }

def replaceGroupPerms (id : String) (groups : List SharedGroupPerm) (db : SharedDb) : SharedDb :=
  { db with
    memoGroupPerms := groups.foldl (fun table perm =>
      if perm.groupId = "" then table
      else table.insert (id, perm.groupId) (perm.name, perm.level))
        (db.memoGroupPerms.filter (fun key _ => key.1 ≠ id)) }

/-- The database after `set_perms`. -/
def withPerms (id : String) (everyone : SharedPermLevel) (members : List SharedMemberPerm)
    (groups : Option (List SharedGroupPerm)) (db : SharedDb) : SharedDb :=
  let replaced := replaceMemberPerms id members
    (db.setMemo id (fun memo => { memo with everyone := everyone }))
  match groups with
  | none => replaced
  | some groups => replaceGroupPerms id groups replaced

/-- The transaction of `set_perms`. -/
def replacePerms (id : String) (everyone : SharedPermLevel) (members : List SharedMemberPerm)
    (groups : Option (List SharedGroupPerm)) : StoreOp Unit :=
  transaction (do
    execute (·.setMemo id (fun memo => { memo with everyone := everyone }))
    execute (replaceMemberPerms id members)
    match groups with
    | none => pure ()
    | some groups => execute (replaceGroupPerms id groups))

/-- `set_perms`: groups are left alone when the request has none. -/
def setPerms (actor : Actor) (id : String) (everyone : SharedPermLevel)
    (members : List SharedMemberPerm) (groups : Option (List SharedGroupPerm)) :
    StoreOp SharedMemoDetail := do
  let _ ← managedRow actor id "権限を変更できるのは所有者と管理者(ホスト/admin)だけです"
  replacePerms id everyone members groups
  get actor id

/-! ### Comments -/

def commentList (actor : Actor) (id : String) : StoreOp (List SharedMemoComment) := do
  let _ ← visibleRow actor id
  query (·.commentsOf id)

def newComment (now : Nat) (actor : Actor) (id body : String) : CommentRow where
  memoId := id
  authorId := actor.ownerId
  authorName := actor.name
  body := body
  createdAt := now

def commentAdd (now : Nat) (newId : String) (actor : Actor) (id body : String) :
    StoreOp SharedMemoComment := do
  let _ ← visibleRow actor id
  let body ← pure (Text.trim body)
  refuse (body = "") "コメントの本文が空です"
  refuse (Text.len body > MAX_COMMENT_BODY_BYTES)
    s!"コメントの本文が長すぎます(上限 {MAX_COMMENT_BODY_BYTES / 1024} KiB)"
  let count ← query (·.commentCount id)
  refuse (count ≥ MAX_COMMENTS_PER_MEMO)
    s!"このメモのコメントが上限({MAX_COMMENTS_PER_MEMO} 件)に達しています。不要なコメントを削除してください"
  requireUnused (fun db => (db.memoComments.get? newId).isSome)
    "UNIQUE constraint failed: memo_comments.comment_id"
  execute (fun db =>
    { db with memoComments := db.memoComments.insert newId (newComment now actor id body) })
  return {
    commentId := newId
    memoId := id
    authorId := actor.ownerId
    authorName := actor.name
    body := body
    createdAtUnixMs := now }

def commentDelete (actor : Actor) (id commentId : String) : StoreOp Unit := do
  let (row, _) ← visibleRow actor id
  let found ← query (fun db => (db.memoComments.get? commentId).filter (fun comment =>
    comment.memoId = id))
  let comment ← expect found "コメントが見つかりません"
  refuse (comment.authorId ≠ actor.ownerId ∧ row.canManage actor = false)
    "このコメントを削除できるのは本人・メモ所有者・ホスト管理者だけです"
  execute (fun db => { db with memoComments := db.memoComments.erase commentId })

/-! ### Folders -/

def requireAdmin (actor : Actor) : StoreOp Unit :=
  refuse (actor.isAdmin = false) "共有フォルダーを管理できるのは管理者(ホスト/admin)だけです"

def folderCreate (now : Nat) (newId : String) (actor : Actor) (name : String) :
    StoreOp MemoFolder := do
  requireAdmin actor
  let name ← lift (validateFolderName name)
  requireUnused (fun db => db.folders.rows.any (fun entry => entry.2.name = name))
    "同じ名前のフォルダーが既にあります"
  requireUnused (fun db => (db.folders.get? newId).isSome) "UNIQUE constraint failed: folders.id"
  execute (fun db =>
    { db with folders := db.folders.insert newId { name := name, createdAt := now } })
  return { id := newId, name := name, memoCount := 0 }

def folderRename (actor : Actor) (id name : String) : StoreOp Unit := do
  requireAdmin actor
  let name ← lift (validateFolderName name)
  let found ← query (·.folders.get? id)
  refuse (found = none) "フォルダーが見つかりません"
  execute (fun db =>
    { db with folders := db.folders.update id (fun folder => { folder with name := name }) })

/-- A folder is deleted and its memos are in none; both or neither. -/
def folderDelete (actor : Actor) (id : String) : StoreOp Unit := do
  requireAdmin actor
  transaction (do
    execute (fun db =>
      { db with memos := db.memos.mapRows (fun _ memo =>
          if memo.folderId = some id then { memo with folderId := none } else memo) })
    let found ← query (·.folders.get? id)
    refuse (found = none) "フォルダーが見つかりません"
    execute (fun db => { db with folders := db.folders.erase id }))

end SharedStore

end PeerCove
