/-
Module: PeerCove.Proofs.StoreChanges
Layer: Proofs
Purpose: What a request can do to the stored memos, their permissions and comments: one case for each
  kind of change, from which facts about runs follow.
Trusted boundary: none
Main exports: MemoTables, SharedStore.StoreChange, SharedStore.perform_change,
  SharedStore.StoreChange.move
-/
import PeerCove.Library.Versioned
import PeerCove.Proofs.Authorization

namespace PeerCove

open Stateful

/-- The tables from which memos are shown. -/
structure MemoTables where
  memos : Table String MemoRow
  memoPerms : Table (String × String) (String × SharedPermLevel)
  memoGroupPerms : Table (String × String) (String × SharedPermLevel)
  memoComments : Table String CommentRow

namespace SharedDb

def memoTables (db : SharedDb) : MemoTables where
  memos := db.memos
  memoPerms := db.memoPerms
  memoGroupPerms := db.memoGroupPerms
  memoComments := db.memoComments

/-- Revision, title and body of a memo. -/
def content (db : SharedDb) (id : String) : Option (Nat × String × String) :=
  (db.memos.get? id).map (fun memo => (memo.revision, memo.title, memo.body))

variable {db db' : SharedDb}

theorem row?_congr (same : db'.memoTables = db.memoTables) (id : String) :
    db'.row? id = db.row? id := by
  have memos : db'.memos = db.memos := congrArg MemoTables.memos same
  have comments : db'.memoComments = db.memoComments := congrArg MemoTables.memoComments same
  unfold row? toRow commentCount
  rw [memos, comments]

theorem permContext_congr (same : db'.memoTables = db.memoTables) (id : String) :
    db'.permContext id = db.permContext id := by
  have perms : db'.memoPerms = db.memoPerms := congrArg MemoTables.memoPerms same
  have groups : db'.memoGroupPerms = db.memoGroupPerms :=
    congrArg MemoTables.memoGroupPerms same
  unfold permContext
  rw [perms, groups]

theorem content_congr (same : db'.memoTables = db.memoTables) (id : String) :
    db'.content id = db.content id := by
  have memos : db'.memos = db.memos := congrArg MemoTables.memos same
  unfold content
  rw [memos]

theorem content_of_row? {id : String} {row : Row} (present : db.row? id = some row) :
    db.content id = some (row.revision, row.title, row.body) := by
  rw [content, (row?_isSome present).1]
  rfl

end SharedDb

namespace SharedStore

variable {env : StoreEnv} {actor : Actor} {db db' : SharedDb}

/-- The change of a folder's deletion: its memos are in no folder. -/
def withoutFolder (id : String) (db : SharedDb) : SharedDb :=
  { db with memos := db.memos.mapRows (fun _ memo =>
      if memo.folderId = some id then { memo with folderId := none } else memo) }

/-- What a request can do to the tables of memos. -/
inductive StoreChange (env : StoreEnv) (actor : Actor) (db db' : SharedDb) : SharedMemoOp → Prop where
  | quiet (op : SharedMemoOp) (same : db'.memoTables = db.memoTables) :
      StoreChange env actor db db' op
  | create (title body : String) (folderId : Option String)
      (unused : db.memos.get? env.newId = none)
      (after : db'.memoTables =
        (db.insertMemo env.newId (newMemo env.now actor title body folderId)).memoTables) :
      StoreChange env actor db db' (.create title body folderId)
  | update (id : String) (base : Nat) (title body : String) (row : Row)
      (present : db.row? id = some row) (edit : row.canEdit actor (db.permContext id) = true)
      (current : row.revision = base)
      (after : db'.memoTables =
        (db.setMemo id (withContent env.now actor title body)).memoTables) :
      StoreChange env actor db db' (.update id base title body)
  | historyRestore (id : String) (hid : Nat) (row : Row) (version : HistoryRow)
      (present : db.row? id = some row) (edit : row.canEdit actor (db.permContext id) = true)
      (stored : db.historyRow? id hid = some version)
      (after : db'.memoTables =
        (db.setMemo id (withContent env.now actor version.title version.body)).memoTables) :
      StoreChange env actor db db' (.historyRestore id hid)
  | trash (id : String) (row : Row) (present : db.row? id = some row)
      (manage : row.canManage actor = true)
      (after : db' = db.setMemo id (fun memo =>
        if memo.deletedAt.isNone then { memo with deletedAt := some env.now } else memo)) :
      StoreChange env actor db db' (.trash id)
  | restore (id : String) (row : Row) (present : db.row? id = some row)
      (manage : row.canManage actor = true)
      (after : db' = db.setMemo id (fun memo => { memo with deletedAt := none })) :
      StoreChange env actor db db' (.restore id)
  | deleteForever (id : String) (row : Row) (present : db.row? id = some row)
      (manage : row.canManage actor = true) (trashed : row.deletedAt.isSome = true)
      (after : db' = db.purgeMemo id env.now) :
      StoreChange env actor db db' (.deleteForever id)
  | setPerms (id : String) (everyone : SharedPermLevel) (members : List SharedMemberPerm)
      (groups : Option (List SharedGroupPerm)) (row : Row) (present : db.row? id = some row)
      (manage : row.canManage actor = true)
      (after : db' = withPerms id everyone members groups db) :
      StoreChange env actor db db' (.setPerms id everyone members groups)
  | folderDelete (id : String) (admin : actor.isAdmin = true)
      (after : db'.memoTables = (withoutFolder id db).memoTables) :
      StoreChange env actor db db' (.folderDelete id)
  | commentAdd (id body : String) (row : Row) (present : db.row? id = some row)
      (visible : row.visibleTo actor (db.permContext id) = true)
      (unused : db.memoComments.get? env.newId = none)
      (after : db' = { db with
        memoComments :=
          db.memoComments.insert env.newId (newComment env.now actor id (Text.trim body)) }) :
      StoreChange env actor db db' (.commentAdd id body)
  | commentDelete (id commentId : String) (row : Row) (comment : CommentRow)
      (present : db.row? id = some row)
      (visible : row.visibleTo actor (db.permContext id) = true)
      (found : db.memoComments.get? commentId = some comment) (own : comment.memoId = id)
      (after : db' = { db with memoComments := db.memoComments.erase commentId }) :
      StoreChange env actor db db' (.commentDelete id commentId)

/-! ### Sheets and the schedule -/

theorem keeps_reply {α β γ : Type} {f : SharedDb → γ} {step : StoreOp α} (keeps : Keeps f step)
    (reply : α → β) : Keeps f (step >>= fun value => pure (reply value)) :=
  keeps.bind (fun _ => (readOnly_pure _).keeps _)

theorem keeps_setSheet (id : String) (change : SheetRow → SheetRow) :
    Keeps SharedDb.memoTables (execute (setSheet id change) : StoreOp Unit) :=
  keeps_execute (fun _ => rfl)

theorem readOnly_sheetGet (actor : Actor) (id : String) : ReadOnly (sheetGet actor id) :=
  (readOnly_sheetRow id).bind (fun _ => readOnly_pure _)

theorem readOnly_scheduleGet (actor : Actor) (id : String) : ReadOnly (scheduleGet actor id) :=
  (readOnly_scheduleRow id).bind (fun _ => readOnly_pure _)

/-- The schedule is in a table of its own. -/
theorem performSchedule_keeps {γ : Type} {f : SharedDb → γ}
    (apart : ∀ db events, f { db with scheduleEvents := events } = f db) (env : StoreEnv)
    (actor : Actor) (op : ScheduleOp) : Keeps f (performSchedule env actor op) := by
  cases op with
  | list => exact keeps_reply ((readOnly_query _).keeps _) _
  | create title note start stop allDay participants =>
      apply keeps_reply
      apply ((readOnly_lift _).keeps _).bind
      intro _
      apply ((readOnly_query _).keeps _).bind
      intro count
      apply ((readOnly_refuse _ _).keeps _).bind
      intro _
      apply ((readOnly_requireUnused _ _).keeps _).bind
      intro _
      apply Keeps.bind
      · exact keeps_execute (fun _ => apart _ _)
      · exact fun _ => (readOnly_scheduleGet actor _).keeps _
  | update id base title note start stop allDay participants =>
      apply keeps_reply
      apply ((readOnly_lift _).keeps _).bind
      intro _
      apply ((readOnly_managedSchedule _ _ _).keeps _).bind
      intro row
      apply ((readOnly_refuse _ _).keeps _).bind
      intro _
      apply Keeps.bind
      · exact keeps_execute (fun _ => apart _ _)
      · exact fun _ => (readOnly_scheduleGet actor id).keeps _
  | delete id =>
      apply keeps_reply
      apply ((readOnly_managedSchedule _ _ _).keeps _).bind
      intro row
      exact keeps_execute (fun _ => apart _ _)

/-- Sheets are in tables of their own. -/
theorem performSheet_keeps (env : StoreEnv) (actor : Actor) (op : SheetOp) :
    Keeps SharedDb.memoTables (performSheet env actor op) := by
  cases op with
  | list => exact keeps_reply ((readOnly_query _).keeps _) _
  | cells id =>
      exact ((readOnly_sheetCells id).bind (fun _ => (readOnly_sheetLayout id).bind (fun _ =>
        (readOnly_sheetMerges id).bind (fun _ => readOnly_pure _)))).keeps _
  | create name =>
      apply keeps_reply
      apply ((readOnly_lift _).keeps _).bind
      intro _
      apply ((readOnly_query _).keeps _).bind
      intro count
      apply ((readOnly_refuse _ _).keeps _).bind
      intro _
      apply ((readOnly_requireUnused _ _).keeps _).bind
      intro _
      apply Keeps.bind
      · exact keeps_execute (fun _ => rfl)
      · exact fun _ => (readOnly_sheetGet actor _).keeps _
  | rename id name =>
      apply keeps_reply
      apply ((readOnly_lift _).keeps _).bind
      intro _
      apply ((readOnly_managedSheet _ _ _).keeps _).bind
      intro row
      apply (keeps_setSheet id _).bind
      intro _
      exact (readOnly_sheetGet actor id).keeps _
  | delete id =>
      apply keeps_reply
      apply ((readOnly_managedSheet _ _ _).keeps _).bind
      intro row
      exact keeps_execute (fun _ => rfl)
  | write id cells =>
      apply keeps_reply
      apply ((readOnly_sheetRow id).keeps _).bind
      intro row
      apply ((readOnly_lift _).keeps _).bind
      intro written
      exact keeps_reply (keeps_setSheet id _) _
  | setColWidth id col width =>
      apply keeps_reply
      apply ((readOnly_sheetRow id).keeps _).bind
      intro row
      apply ((readOnly_refuse _ _).keeps _).bind
      intro _
      cases width with
      | none => exact keeps_setSheet id _
      | some width =>
          apply ((readOnly_lift _).keeps _).bind
          exact fun _ => keeps_setSheet id _
  | setRowHeight id row height =>
      apply keeps_reply
      apply ((readOnly_sheetRow id).keeps _).bind
      intro sheet
      apply ((readOnly_refuse _ _).keeps _).bind
      intro _
      cases height with
      | none => exact keeps_setSheet id _
      | some height =>
          apply ((readOnly_lift _).keeps _).bind
          exact fun _ => keeps_setSheet id _
  | merge id merge =>
      apply keeps_reply
      apply ((readOnly_sheetRow id).keeps _).bind
      intro row
      apply ((readOnly_lift _).keeps _).bind
      intro merged
      exact keeps_reply (keeps_setSheet id _) _
  | unmerge id row col =>
      apply keeps_reply
      apply ((readOnly_sheetRow id).keeps _).bind
      intro found
      apply ((readOnly_lift _).keeps _).bind
      intro sheet
      exact keeps_reply (keeps_setSheet id _) _
  | setSheetSettings id gridlines rows cols =>
      apply keeps_reply
      apply ((readOnly_sheetRow id).keeps _).bind
      intro row
      apply ((readOnly_refuse _ _).keeps _).bind
      intro _
      apply (keeps_setSheet id _).bind
      intro _
      exact (readOnly_sheetGet actor id).keeps _
  | presence id row col => exact (readOnly_pure _).keeps _

/-! ### Requests -/

/-- A request that succeeds makes the change of its kind. -/
theorem perform_ok_change {op : SharedMemoOp} {reply : SharedMemoReply}
    (done : perform env actor op db = (.ok reply, db')) : StoreChange env actor db db' op := by
  by_cases reads : readsOnly op = true
  · exact .quiet op (by rw [(readOnly_perform env actor reads).same done])
  cases op with
  | create title body folderId =>
      obtain ⟨detail, created, _⟩ := ok_reply.mp done
      rcases create_ok created with ⟨unused, after, _⟩
      exact .create title body folderId unused (by rw [after])
  | update id base title body =>
      obtain ⟨detail, updated, _⟩ := ok_reply.mp done
      rcases update_ok updated with ⟨row, present, edit, current, _, after⟩
      refine .update id base title body row present edit current ?_
      rw [after]
      unfold withAutoSnapshot
      split
      · rfl
      · rfl
  | historyRestore id hid =>
      obtain ⟨detail, restored, _⟩ := ok_reply.mp done
      rcases historyRestore_ok restored with ⟨row, version, present, edit, stored, _, after⟩
      exact .historyRestore id hid row version present edit stored (by rw [after]; rfl)
  | trash id =>
      obtain ⟨_, trashed, _⟩ := ok_reply.mp done
      rcases trash_ok trashed with ⟨row, present, manage, after⟩
      exact .trash id row present manage after
  | restore id =>
      obtain ⟨_, restored, _⟩ := ok_reply.mp done
      rcases restore_ok restored with ⟨row, present, manage, after⟩
      exact .restore id row present manage after
  | deleteForever id =>
      obtain ⟨_, deleted, _⟩ := ok_reply.mp done
      rcases deleteForever_ok deleted with ⟨row, present, manage, trashed, after⟩
      exact .deleteForever id row present manage trashed after
  | setPerms id everyone members groups =>
      obtain ⟨detail, changed, _⟩ := ok_reply.mp done
      rcases setPerms_ok changed with ⟨row, present, manage, after, _⟩
      exact .setPerms id everyone members groups row present manage after
  | folderDelete id =>
      obtain ⟨_, deleted, _⟩ := ok_reply.mp done
      rcases folderDelete_ok deleted with ⟨admin, after⟩
      exact .folderDelete id admin (by rw [after]; rfl)
  | commentAdd id body =>
      obtain ⟨comment, added, _⟩ := ok_reply.mp done
      rcases commentAdd_ok added with ⟨row, present, visible, unused, after⟩
      exact .commentAdd id body row present visible unused after
  | commentDelete id commentId =>
      obtain ⟨_, deleted, _⟩ := ok_reply.mp done
      rcases commentDelete_ok deleted with ⟨row, comment, present, visible, found, own, _, after⟩
      exact .commentDelete id commentId row comment present visible found own after
  | folderCreate name =>
      obtain ⟨folder, created, _⟩ := ok_reply.mp done
      exact .quiet _ (by rw [(folderCreate_ok created).2.2.2]; rfl)
  | folderRename id name =>
      obtain ⟨_, renamed, _⟩ := ok_reply.mp done
      rcases folderRename_ok renamed with ⟨_, valid, _, after⟩
      exact .quiet _ (by rw [after]; rfl)
  | saveVersion id =>
      obtain ⟨_, saved, _⟩ := ok_reply.mp done
      rcases saveVersion_ok saved with ⟨row, _, _, rfl | rfl⟩
      · exact .quiet _ rfl
      · exact .quiet _ rfl
  | setLimits limits =>
      obtain ⟨_, changed, _⟩ := ok_reply.mp done
      exact .quiet _ (by rw [(setLimits_ok changed).2.2]; rfl)
  | schedule op =>
      have same := keeps_reply (f := SharedDb.memoTables) (performSchedule_keeps (fun _ _ => rfl) env actor op)
        SharedMemoReply.schedule db
      have after : ((performSchedule env actor op >>= fun reply =>
        pure (SharedMemoReply.schedule reply)) db).2 = db' := congrArg Prod.snd done
      rw [after] at same
      exact .quiet _ same
  | sheet op =>
      have same := keeps_reply (performSheet_keeps env actor op)
        (fun result => SharedMemoReply.sheet result.1) db
      have after : ((performSheet env actor op >>= fun result =>
        pure (SharedMemoReply.sheet result.1)) db).2 = db' := congrArg Prod.snd done
      rw [after] at same
      exact .quiet _ same
  | _ => exact absurd rfl reads

/-- What a request does to the tables of memos, whether it succeeds or not. -/
theorem perform_change (env : StoreEnv) (actor : Actor) (op : SharedMemoOp) (db : SharedDb) :
    StoreChange env actor db (perform env actor op db).2 op := by
  cases outcome : perform env actor op db with
  | mk result after =>
      cases result with
      | ok reply => exact perform_ok_change outcome
      | error error =>
          rw [atomic_perform env actor op db error after outcome]
          exact .quiet op rfl

/-! ### The content of a memo -/

theorem content_setMemo (db : SharedDb) (id other : String) (change : MemoRow → MemoRow) :
    (db.setMemo id change).content other =
      if other = id then (db.memos.get? other).map (fun memo =>
        ((change memo).revision, (change memo).title, (change memo).body))
      else db.content other := by
  unfold SharedDb.setMemo SharedDb.content
  rw [Table.get?_update]
  by_cases same : other = id
  · rw [if_pos same, if_pos same, Option.map_map]
    rfl
  · rw [if_neg same, if_neg same]

/-- A change that keeps revision, title and body keeps the content of every memo. -/
theorem content_setMemo_of_same (db : SharedDb) (id other : String) {change : MemoRow → MemoRow}
    (same : ∀ memo, (change memo).revision = memo.revision ∧ (change memo).title = memo.title ∧
      (change memo).body = memo.body) :
    (db.setMemo id change).content other = db.content other := by
  rw [content_setMemo]
  by_cases equal : other = id
  · rw [if_pos equal, SharedDb.content]
    refine congrArg (fun shown => (db.memos.get? other).map shown) (funext (fun memo => ?_))
    rw [(same memo).1, (same memo).2.1, (same memo).2.2]
  · rw [if_neg equal]

theorem content_purgeMemo (db : SharedDb) (id other : String) (now : Nat) :
    (db.purgeMemo id now).content other = if other = id then none else db.content other := by
  unfold SharedDb.purgeMemo SharedDb.content
  rw [Table.get?_erase]
  by_cases same : other = id
  · rw [if_pos same, if_pos same]
    rfl
  · rw [if_neg same, if_neg same]

/-- Permissions are no part of the content. -/
theorem content_withPerms (db : SharedDb) (id other : String) (everyone : SharedPermLevel)
    (members : List SharedMemberPerm) (groups : Option (List SharedGroupPerm)) :
    (withPerms id everyone members groups db).content other = db.content other := by
  have same : (withPerms id everyone members groups db).content other =
      (db.setMemo id (fun memo => { memo with everyone := everyone })).content other := by
    cases groups with
    | none => rfl
    | some groups => rfl
  rw [same, content_setMemo_of_same]
  intro memo
  exact ⟨rfl, rfl, rfl⟩

/-- Nor is the folder. -/
theorem content_withoutFolder (db : SharedDb) (id other : String) :
    (withoutFolder id db).content other = db.content other := by
  unfold withoutFolder SharedDb.content
  rw [Table.get?_mapRows, Option.map_map]
  refine congrArg (fun shown => (db.memos.get? other).map shown) (funext (fun memo => ?_))
  simp only [Function.comp]
  split
  · rfl
  · rfl

/-- New content is the next revision. -/
theorem content_withContent {id title body : String} {now : Nat} {row : Row}
    (present : db.row? id = some row) :
    (db.setMemo id (withContent now actor title body)).content id =
      some (row.revision + 1, title, body) := by
  rw [content_setMemo, if_pos rfl, (SharedDb.row?_isSome present).1]
  rfl

theorem move_withContent (other : String) {id title body : String} {now : Nat} {row : Row}
    (present : db.row? id = some row) :
    Versioned.Move (db.content other)
      ((db.setMemo id (withContent now actor title body)).content other) := by
  by_cases same : other = id
  · subst same
    rw [content_withContent present, SharedDb.content_of_row? present]
    exact .update row.revision (row.title, row.body) (title, body)
  · rw [content_setMemo, if_neg same]
    exact .stay _

theorem move_purgeMemo (db : SharedDb) (id other : String) (now : Nat) :
    Versioned.Move (db.content other) ((db.purgeMemo id now).content other) := by
  rw [content_purgeMemo]
  by_cases same : other = id
  · rw [if_pos same]
    cases db.content other with
    | none => exact .stay none
    | some content => exact .delete content.1 content.2
  · rw [if_neg same]
    exact .stay _

/-- A request makes one move of the content of each memo. -/
theorem StoreChange.move {op : SharedMemoOp} (change : StoreChange env actor db db' op)
    (id : String) : Versioned.Move (db.content id) (db'.content id) := by
  cases change with
  | quiet op same =>
      rw [SharedDb.content_congr same]
      exact .stay _
  | create title body folderId unused after =>
      rw [SharedDb.content_congr after]
      unfold SharedDb.insertMemo SharedDb.content
      rw [Table.get?_insert]
      by_cases new : id = env.newId
      · rw [if_pos new, new, unused]
        exact .create (title, body)
      · rw [if_neg new]
        exact .stay _
  | update other base title body row present edit current after =>
      rw [SharedDb.content_congr after]
      exact move_withContent id present
  | historyRestore other hid row version present edit stored after =>
      rw [SharedDb.content_congr after]
      exact move_withContent id present
  | trash other row present manage after =>
      rw [after, content_setMemo_of_same]
      · exact .stay _
      · intro memo
        split
        · exact ⟨rfl, rfl, rfl⟩
        · exact ⟨rfl, rfl, rfl⟩
  | restore other row present manage after =>
      rw [after, content_setMemo_of_same]
      · exact .stay _
      · intro memo
        exact ⟨rfl, rfl, rfl⟩
  | deleteForever other row present manage trashed after =>
      rw [after]
      exact move_purgeMemo db other id env.now
  | setPerms other everyone members groups row present manage after =>
      rw [after, content_withPerms]
      exact .stay _
  | folderDelete other admin after =>
      rw [SharedDb.content_congr after, content_withoutFolder]
      exact .stay _
  | commentAdd other body row present visible unused after =>
      rw [after]
      exact .stay _
  | commentDelete other commentId row comment present visible found own after =>
      rw [after]
      exact .stay _

end SharedStore

end PeerCove
