/-
Module: PeerCove.Proofs.Authorization
Layer: Proofs
Purpose: Requests on the database of shared memos succeed only for actors with the permission they
  require, show only memos the actor sees, and change nothing when they are refused.
Trusted boundary: none
Main exports: perform_authorized, perform_byOwner
-/
import PeerCove.Memo.Policy
import PeerCove.Proofs.SheetSteps

namespace PeerCove

open Fallible Stateful

namespace SharedStore

variable {env : StoreEnv} {actor : Actor} {id : String} {db db' : SharedDb}

/-! ### Permission -/

theorem seen_of_visible {row : Row} (present : db.row? id = some row)
    (visible : row.visibleTo actor (db.permContext id) = true) : MemoWith db id (Sees actor) :=
  ⟨row, present, sees_iff.mpr visible⟩

theorem seen_of_get {detail : SharedMemoDetail} (done : get actor id db = (.ok detail, db')) :
    MemoWith db id (Sees actor) := by
  obtain ⟨row, present, visible, _, _⟩ := get_ok.mp done
  exact seen_of_visible present visible

/-- Any step after the checked read of a memo comes after the check. -/
theorem seen_of_chain {β : Type} {next : Row × PermContext → StoreOp β} {result : β}
    (done : (visibleRow actor id >>= next) db = (.ok result, db')) :
    MemoWith db id (Sees actor) := by
  obtain ⟨⟨row, ctx⟩, mid, read, _⟩ := ok_bind.mp done
  obtain ⟨present, rfl, visible, _⟩ := visibleRow_ok.mp read
  exact seen_of_visible present visible

theorem edited_of {row : Row} (present : db.row? id = some row)
    (edit : row.canEdit actor (db.permContext id) = true) : MemoWith db id (Edits actor) :=
  ⟨row, present, edits_iff.mpr edit⟩

theorem performSchedule_permitted {op : ScheduleOp} {reply : ScheduleReply}
    (done : performSchedule env actor op db = (.ok reply, db')) :
    Permitted actor db (.schedule op) := by
  cases op with
  | list => trivial
  | create title note start stop allDay participants => trivial
  | update id base title note start stop allDay participants =>
      obtain ⟨event, mid, updated, _⟩ := ok_bind.mp done
      obtain ⟨row, present, manage, _⟩ := scheduleUpdate_ok updated
      exact ⟨row, present, canManageOwned_iff.mp manage⟩
  | delete id =>
      obtain ⟨_, mid, deleted, _⟩ := ok_bind.mp done
      obtain ⟨row, present, manage⟩ := scheduleDelete_ok deleted
      exact ⟨row, present, canManageOwned_iff.mp manage⟩

theorem performSheet_permitted {op : SheetOp}
    {reply : SheetReply × List SheetMerge × List SheetCell}
    (done : performSheet env actor op db = (.ok reply, db')) :
    Permitted actor db (.sheet op) := by
  cases op with
  | rename id name =>
      obtain ⟨sheet, mid, renamed, _⟩ := ok_bind.mp done
      obtain ⟨row, present, manage⟩ := sheetRename_ok renamed
      exact ⟨row, present, canManageOwned_iff.mp manage⟩
  | delete id =>
      obtain ⟨_, mid, deleted, _⟩ := ok_bind.mp done
      obtain ⟨row, present, manage⟩ := sheetDelete_ok deleted
      exact ⟨row, present, canManageOwned_iff.mp manage⟩
  | list => trivial
  | cells id => trivial
  | create name => trivial
  | write id cells => trivial
  | setColWidth id col width => trivial
  | setRowHeight id row height => trivial
  | merge id merge => trivial
  | unmerge id row col => trivial
  | setSheetSettings id gridlines rows cols => trivial
  | presence id row col => trivial

/-- A request that succeeds had the permission it requires. -/
theorem perform_permitted {op : SharedMemoOp} {reply : SharedMemoReply}
    (done : perform env actor op db = (.ok reply, db')) : Permitted actor db op := by
  cases op with
  | list query => trivial
  | get id =>
      obtain ⟨detail, mid, read, _⟩ := ok_bind.mp done
      exact seen_of_get read
  | resolveTitles titles => trivial
  | backlinks id =>
      obtain ⟨memos, mid, read, _⟩ := ok_bind.mp done
      exact seen_of_chain read
  | create title body folderId => trivial
  | update id base title body =>
      obtain ⟨detail, mid, updated, _⟩ := ok_bind.mp done
      obtain ⟨row, present, edit, _⟩ := update_ok updated
      exact edited_of present edit
  | acquireLock id =>
      obtain ⟨detail, mid, read, _⟩ := ok_bind.mp done
      exact seen_of_get read
  | releaseLock id => trivial
  | forceUnlock id => trivial
  | trash id =>
      obtain ⟨_, mid, trashed, _⟩ := ok_bind.mp done
      obtain ⟨row, present, manage, _⟩ := trash_ok trashed
      exact ⟨row, present, manages_iff.mpr manage⟩
  | restore id =>
      obtain ⟨_, mid, restored, _⟩ := ok_bind.mp done
      obtain ⟨row, present, manage, _⟩ := restore_ok restored
      exact ⟨row, present, manages_iff.mpr manage⟩
  | deleteForever id =>
      obtain ⟨_, mid, deleted, _⟩ := ok_bind.mp done
      obtain ⟨row, present, manage, trashed, _⟩ := deleteForever_ok deleted
      exact ⟨row, present, manages_iff.mpr manage, trashed⟩
  | setPerms id everyone members groups =>
      obtain ⟨detail, mid, changed, _⟩ := ok_bind.mp done
      obtain ⟨row, present, manage, _⟩ := setPerms_ok changed
      exact ⟨row, present, manages_iff.mpr manage⟩
  | folderCreate name =>
      obtain ⟨folder, mid, created, _⟩ := ok_bind.mp done
      exact administers_iff.mpr (folderCreate_ok created).1
  | folderRename id name =>
      obtain ⟨_, mid, renamed, _⟩ := ok_bind.mp done
      exact administers_iff.mpr (folderRename_ok renamed).1
  | folderDelete id =>
      obtain ⟨_, mid, deleted, _⟩ := ok_bind.mp done
      exact administers_iff.mpr (folderDelete_ok deleted).1
  | historyList id =>
      obtain ⟨entries, mid, read, _⟩ := ok_bind.mp done
      exact seen_of_chain read
  | historyGet id hid =>
      obtain ⟨detail, mid, read, _⟩ := ok_bind.mp done
      exact seen_of_chain read
  | historyDiff id fromHid toHid =>
      obtain ⟨bodies, mid, read, _⟩ := ok_bind.mp done
      exact seen_of_chain read
  | historyRestore id hid =>
      obtain ⟨detail, mid, restored, _⟩ := ok_bind.mp done
      obtain ⟨row, version, present, edit, _⟩ := historyRestore_ok restored
      exact edited_of present edit
  | saveVersion id =>
      obtain ⟨_, mid, saved, _⟩ := ok_bind.mp done
      obtain ⟨row, present, edit, _⟩ := saveVersion_ok saved
      exact edited_of present edit
  | getLimits => trivial
  | setLimits limits =>
      obtain ⟨_, mid, changed, _⟩ := ok_bind.mp done
      exact administers_iff.mpr (setLimits_ok changed).1
  | commentList id =>
      obtain ⟨comments, mid, read, _⟩ := ok_bind.mp done
      exact seen_of_chain read
  | commentAdd id body =>
      obtain ⟨comment, mid, added, _⟩ := ok_bind.mp done
      obtain ⟨row, present, visible, _⟩ := commentAdd_ok added
      exact seen_of_visible present visible
  | commentDelete id commentId =>
      obtain ⟨_, mid, deleted, _⟩ := ok_bind.mp done
      obtain ⟨row, comment, present, visible, stored, ofMemo, author, _⟩ :=
        commentDelete_ok deleted
      exact ⟨row, present, sees_iff.mpr visible, comment, stored, ofMemo,
        author.imp_right manages_iff.mpr⟩
  | schedule op =>
      obtain ⟨reply, mid, performed, _⟩ := ok_bind.mp done
      exact performSchedule_permitted performed
  | sheet op =>
      obtain ⟨reply, mid, performed, _⟩ := ok_bind.mp done
      exact performSheet_permitted performed
  | permGroupList => trivial

/-! ### Refusals -/

/-- Turning a result into a reply does not change the database. -/
theorem atomic_reply {α β : Type} {step : StoreOp α} (atomic : Atomic step) (reply : α → β) :
    Atomic (step >>= fun result => pure (reply result)) := by
  intro db error db' failed
  rcases error_bind.mp failed with here | ⟨value, mid, done, later⟩
  · exact atomic db error db' here
  · cases later

theorem readOnly_list (fts : String → MemoRow → Bool) (actor : Actor) (query : SharedMemoQuery) :
    ReadOnly (list fts actor query) := readOnly_query _

theorem readOnly_backlinks (actor : Actor) (id : String) : ReadOnly (backlinks actor id) := by
  refine (readOnly_visibleRow actor id).bind (fun read => ?_)
  obtain ⟨target, ctx⟩ := read
  by_cases empty : target.title = ""
  · simp only [if_pos empty]
    exact readOnly_pure _
  · simp only [if_neg empty]
    exact readOnly_query _

theorem readOnly_historyDiff (actor : Actor) (id : String) (fromHid : Nat) (toHid : Option Nat) :
    ReadOnly (historyDiff actor id fromHid toHid) := by
  refine (readOnly_visibleRow actor id).bind (fun _ => ?_)
  refine (readOnly_historyRow id fromHid).bind (fun _ => ?_)
  cases toHid with
  | none => exact readOnly_pure _
  | some hid => exact (readOnly_historyRow id hid).bind (fun _ => readOnly_pure _)

theorem atomic_performSchedule (env : StoreEnv) (actor : Actor) (op : ScheduleOp) :
    Atomic (performSchedule env actor op) := by
  cases op with
  | list => exact atomic_reply (readOnly_query _).atomic _
  | create title note start stop allDay participants => exact atomic_reply atomic_scheduleCreate _
  | update id base title note start stop allDay participants =>
      exact atomic_reply atomic_scheduleUpdate _
  | delete id => exact atomic_reply (atomic_scheduleDelete actor id) _

theorem atomic_performSheet (env : StoreEnv) (actor : Actor) (op : SheetOp) :
    Atomic (performSheet env actor op) := by
  cases op with
  | list => exact atomic_reply (readOnly_query _).atomic _
  | cells id =>
      exact ((readOnly_sheetCells id).bind (fun _ => (readOnly_sheetLayout id).bind (fun _ =>
        (readOnly_sheetMerges id).bind (fun _ => readOnly_pure _)))).atomic
  | create name => exact atomic_reply (atomic_sheetCreate _ _ actor name) _
  | rename id name => exact atomic_reply (atomic_sheetRename _ actor id name) _
  | delete id => exact atomic_reply (atomic_sheetDelete actor id) _
  | write id cells => exact atomic_reply (atomic_sheetWrite _ actor id cells) _
  | setColWidth id col width => exact atomic_reply (atomic_sheetSetColWidth id col width) _
  | setRowHeight id row height => exact atomic_reply (atomic_sheetSetRowHeight id row height) _
  | merge id merge => exact atomic_reply (atomic_sheetMerge _ actor id merge) _
  | unmerge id row col => exact atomic_reply (atomic_sheetUnmerge id row col) _
  | setSheetSettings id gridlines rows cols =>
      exact atomic_reply (atomic_sheetSetSettings actor id gridlines rows cols) _
  | presence id row col => exact (readOnly_pure _).atomic

/-- The requests that only read. -/
def readsOnly : SharedMemoOp → Bool
  | .list _ | .get _ | .resolveTitles _ | .backlinks _ | .acquireLock _ | .releaseLock _
  | .forceUnlock _ | .historyList _ | .historyGet _ _ | .historyDiff _ _ _ | .getLimits
  | .commentList _ | .permGroupList => true
  | _ => false

theorem readOnly_perform (env : StoreEnv) (actor : Actor) {op : SharedMemoOp}
    (reads : readsOnly op = true) : ReadOnly (perform env actor op) := by
  cases op with
  | list query => exact (readOnly_list env.fts actor query).bind (fun _ => readOnly_pure _)
  | get id => exact (readOnly_get actor id).reply _
  | acquireLock id => exact (readOnly_get actor id).reply _
  | resolveTitles titles => exact (readOnly_query _).reply _
  | backlinks id => exact (readOnly_backlinks actor id).reply _
  | historyList id =>
      exact ((readOnly_visibleRow actor id).bind (fun _ => readOnly_query _)).reply _
  | historyGet id hid =>
      exact ((readOnly_visibleRow actor id).bind (fun _ =>
        (readOnly_historyRow id hid).bind (fun _ => readOnly_pure _))).reply _
  | historyDiff id fromHid toHid =>
      exact (readOnly_historyDiff actor id fromHid toHid).bind (fun _ => readOnly_pure _)
  | commentList id =>
      exact ((readOnly_visibleRow actor id).bind (fun _ => readOnly_query _)).reply _
  | getLimits => exact (readOnly_query _).reply _
  | releaseLock | forceUnlock | permGroupList => exact readOnly_pure _
  | _ => exact Bool.noConfusion reads

/-- A request that is refused leaves the database as it was. -/
theorem atomic_perform (env : StoreEnv) (actor : Actor) (op : SharedMemoOp) :
    Atomic (perform env actor op) := by
  by_cases reads : readsOnly op = true
  · exact (readOnly_perform env actor reads).atomic
  cases op with
  | create title body folderId => exact atomic_reply (atomic_create _ _ actor title body folderId) _
  | update id base title body => exact atomic_reply (atomic_update _ actor id base title body) _
  | trash id => exact atomic_reply (atomic_trash _ actor id) _
  | restore id => exact atomic_reply (atomic_restore actor id) _
  | deleteForever id => exact atomic_reply (atomic_deleteForever _ actor id) _
  | setPerms id everyone members groups =>
      exact atomic_reply (atomic_setPerms actor id everyone members groups) _
  | folderCreate name => exact atomic_reply (atomic_folderCreate _ _ actor name) _
  | folderRename id name => exact atomic_reply (atomic_folderRename actor id name) _
  | folderDelete id => exact atomic_reply (atomic_folderDelete actor id) _
  | historyRestore id hid => exact atomic_reply (atomic_historyRestore _ actor id hid) _
  | saveVersion id => exact atomic_reply (atomic_saveVersion _ actor id) _
  | setLimits limits => exact atomic_reply (atomic_setLimits actor limits) _
  | commentAdd id body => exact atomic_reply (atomic_commentAdd _ _ actor id body) _
  | commentDelete id commentId => exact atomic_reply (atomic_commentDelete actor id commentId) _
  | schedule op => exact atomic_reply (atomic_performSchedule env actor op) _
  | sheet op => exact atomic_reply (atomic_performSheet env actor op) _
  | _ => exact absurd rfl reads

/-! ### Replies -/

theorem seen_of_mem_rows {row : Row} (listed : row ∈ db.rows)
    (visible : row.visibleTo actor (db.permContext row.id) = true) :
    MemoWith db row.id (Sees actor) :=
  seen_of_visible (SharedDb.mem_rows.mp listed) visible

/-- A memo that can be read is shown under its own id. -/
theorem shown_of_get {detail : SharedMemoDetail} (done : get actor id db = (.ok detail, db')) :
    MemoWith db detail.id (Sees actor) := by
  obtain ⟨row, present, visible, rfl, _⟩ := get_ok.mp done
  have named : row.id = id := (SharedDb.row?_isSome present).2.1
  have same : (row.detail actor (db.permContext id)).id = id := named
  rw [same]
  exact seen_of_visible present visible

/-- After new content was stored, the editor sees the memo. -/
theorem shown_of_rewritten (now : Nat) (db : SharedDb) (title body : String) {row : Row}
    (present : db.row? id = some row) (edit : row.canEdit actor (db.permContext id) = true) :
    MemoWith (db.setMemo id (withContent now actor title body))
      ((rewritten now actor title body row).detail actor (db.permContext id)).id (Sees actor) := by
  have named : row.id = id := (SharedDb.row?_isSome present).2.1
  have same : ((rewritten now actor title body row).detail actor (db.permContext id)).id = id :=
    named
  rw [same]
  exact ⟨_, row?_withContent present title body, sees_iff.mpr (Row.visibleTo_of_canEdit edit)⟩

theorem list_confined {fts : String → MemoRow → Bool} {query : SharedMemoQuery}
    {memos : List SharedMemoSummary} {folders : List MemoFolder}
    (done : list fts actor query db = (.ok (memos, folders), db')) :
    ∀ memo ∈ memos, MemoWith db memo.id (Sees actor) := by
  obtain ⟨same, rfl⟩ := ok_query.mp done
  obtain ⟨rfl, rfl⟩ := Prod.mk.inj same
  intro memo member
  obtain ⟨row, kept, rfl⟩ := List.mem_map.mp member
  obtain ⟨listed, visible⟩ := List.mem_filter.mp kept
  have stored := (List.mem_filter.mp ((List.mem_insertionSort _).mp listed)).1
  exact seen_of_mem_rows stored visible

theorem resolveTitles_confined {titles : List String} {map : List (String × String)}
    (done : resolveTitles actor titles db = (.ok map, db')) :
    ∀ entry ∈ map, MemoWith db entry.2 (Sees actor) := by
  obtain ⟨rfl, rfl⟩ := ok_query.mp done
  intro entry member
  obtain ⟨title, _, found⟩ := List.mem_filterMap.mp member
  cases newest : titleRow? title db with
  | none =>
      rw [newest] at found
      cases found
  | some row =>
      rw [newest] at found
      have stored := (List.mem_filter.mp ((List.mem_insertionSort _).mp
        (List.mem_of_mem_head? newest))).1
      by_cases visible : row.visibleTo actor (db.permContext row.id) = true
      · simp only [if_pos visible, Option.some.injEq] at found
        rw [← found]
        exact seen_of_mem_rows stored visible
      · simp only [if_neg visible] at found
        cases found

theorem backlinks_confined {memos : List SharedMemoSummary}
    (done : backlinks actor id db = (.ok memos, db')) :
    ∀ memo ∈ memos, MemoWith db memo.id (Sees actor) := by
  obtain ⟨⟨target, ctx⟩, mid, read, done⟩ := ok_bind.mp done
  obtain ⟨_, _, _, rfl⟩ := visibleRow_ok.mp read
  by_cases empty : target.title = ""
  · simp only [if_pos empty] at done
    obtain ⟨rfl, _⟩ := ok_pure.mp done
    intro memo member
    cases member
  · simp only [if_neg empty] at done
    obtain ⟨rfl, _⟩ := ok_query.mp done
    intro memo member
    obtain ⟨row, kept, rfl⟩ := List.mem_map.mp member
    obtain ⟨listed, visible⟩ := List.mem_filter.mp kept
    have stored := (List.mem_filter.mp ((List.mem_insertionSort _).mp listed)).1
    exact seen_of_mem_rows stored visible

/-- What events show to a recipient is a memo outside the trash that the recipient sees. -/
theorem detailIfVisible_confined {detail : SharedMemoDetail}
    (done : detailIfVisible actor id db = (.ok (some detail), db')) :
    db' = db ∧ detail.id = id ∧
      MemoWith db id (fun row ctx => Sees actor row ctx ∧ row.deletedAt = none) := by
  obtain ⟨same, rfl⟩ := ok_query.mp done
  cases present : db.row? id with
  | none =>
      rw [present] at same
      cases same
  | some row =>
      rw [present] at same
      by_cases trashed : row.deletedAt.isSome = true
      · simp only [if_pos trashed] at same
        cases same
      · by_cases visible : row.visibleTo actor (db.permContext id) = true
        · simp only [if_neg trashed, if_pos visible, Option.some.injEq] at same
          rw [← same]
          exact ⟨rfl, (SharedDb.row?_isSome present).2.1, row, present, sees_iff.mpr visible,
            by simpa using trashed⟩
        · simp only [if_neg trashed, if_neg visible] at same
          cases same

/-- Replies show only memos that the actor sees when the request is done. -/
theorem perform_confined {op : SharedMemoOp} {reply : SharedMemoReply}
    (done : perform env actor op db = (.ok reply, db')) : reply.Confined actor db' := by
  cases op with
  | list query =>
      obtain ⟨⟨memos, folders⟩, read, rfl⟩ := ok_reply.mp done
      obtain rfl := (readOnly_list env.fts actor query).same read
      exact list_confined read
  | get id =>
      obtain ⟨detail, read, rfl⟩ := ok_reply.mp done
      obtain ⟨_, _, _, _, rfl⟩ := get_ok.mp read
      exact shown_of_get read
  | resolveTitles titles =>
      obtain ⟨map, read, rfl⟩ := ok_reply.mp done
      obtain ⟨_, rfl⟩ := ok_query.mp read
      exact resolveTitles_confined read
  | backlinks id =>
      obtain ⟨memos, read, rfl⟩ := ok_reply.mp done
      obtain rfl := (readOnly_backlinks actor id).same read
      exact backlinks_confined read
  | create title body folderId =>
      obtain ⟨detail, created, rfl⟩ := ok_reply.mp done
      exact shown_of_get (create_ok created).2.2
  | update id base title body =>
      obtain ⟨detail, updated, rfl⟩ := ok_reply.mp done
      obtain ⟨row, present, edit, _, rfl, rfl⟩ := update_ok updated
      have present' : (withAutoSnapshot env.now row db).row? id = some row := by
        rw [row?_withAutoSnapshot]
        exact present
      have shown := shown_of_rewritten env.now (withAutoSnapshot env.now row db) title body present'
        (by rw [permContext_withAutoSnapshot]; exact edit)
      rw [permContext_withAutoSnapshot] at shown
      exact shown
  | acquireLock id =>
      obtain ⟨detail, read, rfl⟩ := ok_reply.mp done
      obtain ⟨_, _, _, _, rfl⟩ := get_ok.mp read
      exact shown_of_get read
  | historyRestore id hid =>
      obtain ⟨detail, restored, rfl⟩ := ok_reply.mp done
      obtain ⟨row, version, present, edit, _, rfl, rfl⟩ := historyRestore_ok restored
      exact shown_of_rewritten env.now (withSnapshot env.now "restore" row db) version.title version.body
        present edit
  | setPerms id everyone members groups =>
      obtain ⟨detail, changed, rfl⟩ := ok_reply.mp done
      obtain ⟨_, _, _, _, read⟩ := setPerms_ok changed
      exact shown_of_get read
  | releaseLock id | forceUnlock id | permGroupList =>
      obtain ⟨rfl, _⟩ := ok_pure.mp done
      trivial
  | trash id | restore id | deleteForever id | folderCreate name | folderRename id name
  | folderDelete id | historyList id | historyGet id hid | historyDiff id fromHid toHid
  | saveVersion id | getLimits | setLimits limits | commentList id | commentAdd id body
  | commentDelete id commentId | schedule op | sheet op =>
      obtain ⟨_, mid, _, done⟩ := ok_bind.mp done
      obtain ⟨rfl, _⟩ := ok_pure.mp done
      trivial

end SharedStore

/-! ### The whole policy -/

/-- Every request on the database: it succeeds only with the permission it requires, the reply shows
only memos its actor sees, and a refused one changes nothing.  The entries of a memo give each
actor one level; who may edit a memo sees it; nobody edits what is in the trash, which the owner,
the host and the admins see. -/
theorem perform_authorized (env : StoreEnv) (actor : Actor) (op : SharedMemoOp) (db : SharedDb) :
    (∀ reply db', SharedStore.perform env actor op db = (.ok reply, db') →
      Permitted actor db op ∧ reply.Confined actor db') ∧
    (∀ id detail db', SharedStore.detailIfVisible actor id db = (.ok (some detail), db') →
      MemoWith db id (Sees actor)) ∧
    (∀ error db', SharedStore.perform env actor op db = (.error error, db') → db' = db) ∧
    (∀ row : Row, ∀ ctx, ∃! level, row.Effective actor ctx level) ∧
    (∀ row ctx, Edits actor row ctx → Sees actor row ctx) ∧
    (∀ row ctx, row.deletedAt.isSome = true →
      ¬ Edits actor row ctx ∧ (Sees actor row ctx ↔ Manages actor row)) := by
  refine ⟨?_, ?_, ?_, ?_, ?_, ?_⟩
  · intro reply db' done
    exact ⟨SharedStore.perform_permitted done, SharedStore.perform_confined done⟩
  · intro id detail db' done
    obtain ⟨_, _, row, present, sees, _⟩ := SharedStore.detailIfVisible_confined done
    exact ⟨row, present, sees⟩
  · exact SharedStore.atomic_perform env actor op db
  · exact fun row ctx => effective_unique row actor ctx
  · exact fun row ctx edits => Sees.of_edits edits
  · exact fun row ctx trashed => ⟨not_edits_trashed trashed, sees_trashed_iff trashed⟩

/-! ### Where the owner and everyone may act -/

def alice : Actor := Actor.member "alice" "Alice"
def bob : Actor := Actor.member "bob" "Bob"

/-- A memo of Alice in the trash, and a sheet of hers. -/
def alicesThings : SharedDb :=
  { SharedDb.empty with
    memos := Table.empty.insert "memo" {
      title := "Plan"
      body := "text"
      folderId := none
      revision := 1
      ownerId := "alice"
      ownerName := "Alice"
      createdAt := 1
      updatedAt := 1
      updatedBy := none
      everyone := .viewer
      deletedAt := some 2 }
    sheets := Table.empty.insert "sheet" (SharedStore.newSheet 1 alice "Table") }

def noonEnv : StoreEnv where
  now := 100
  newId := "fresh"
  fts := fun _ _ => false

/-- Neither the host nor an admin is needed for a permanent deletion by the owner, and no permission
entry for a change of another member's sheet. -/
theorem perform_byOwner :
    ¬ Administers alice ∧
      SharedStore.perform noonEnv alice (.deleteForever "memo") alicesThings =
        (.ok .done, alicesThings.purgeMemo "memo" 100) ∧
      ¬ Administers bob ∧ (alicesThings.sheets.get? "sheet").map SheetRow.ownerId = some "alice" ∧
      (SharedStore.perform noonEnv bob (.sheet (.write "sheet" [{ row := 0, col := 0, value := "x" }]))
        alicesThings).1 = .ok (.sheet (.writeResult 1 [])) := by
  refine ⟨?_, rfl, ?_, rfl, rfl⟩
  · intro administers
    exact absurd (administers_iff.mp administers) (by decide)
  · intro administers
    exact absurd (administers_iff.mp administers) (by decide)

/-- The policy on the owner's permanent deletion. -/
theorem perform_authorized_ownTrash :
    Permitted alice alicesThings (.deleteForever "memo") :=
  ((perform_authorized noonEnv alice (.deleteForever "memo") alicesThings).1 _ _ rfl).1

end PeerCove
