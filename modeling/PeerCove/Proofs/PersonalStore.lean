/-
Module: PeerCove.Proofs.PersonalStore
Layer: Proofs
Purpose: What one event can do to the tables of the personal store.
Trusted boundary: none
Main exports: reminderSet_ok, remindersTakeDue_run, reminder_after, RemovesReminder, Rearms
-/
import PeerCove.Memo.MemoStore

namespace PeerCove

open Stateful MemoStore

variable {db db' : MemoDb} {now : UnixMs} {key : ReminderKey} {newId id name : String}

/-! ### Operations that only add to the memos -/

/-- Memos are added or changed, and nothing else. -/
structure Grows (db db' : MemoDb) : Prop where
  memos : ∀ id, (db.memos.get? id).isSome = true → (db'.memos.get? id).isSome = true
  folders : db'.folders = db.folders
  reminders : db'.reminders = db.reminders

theorem Grows.refl (db : MemoDb) : Grows db db :=
  ⟨fun _ => id, rfl, rfl⟩

theorem Grows.trans (one two three : MemoDb) (first : Grows one two) (second : Grows two three) :
    Grows one three where
  memos := fun id there => second.memos id (first.memos id there)
  folders := second.folders.trans first.folders
  reminders := second.reminders.trans first.reminders

theorem get_readOnly (id : String) : ReadOnly (MemoStore.get id) := by
  refine (readOnly_query _).bind (fun found => ?_)
  exact (readOnly_expect found _).bind (fun memo => readOnly_pure _)

theorem backlinks_readOnly (id : String) : ReadOnly (MemoStore.backlinks id) := by
  refine (get_readOnly id).bind (fun memo => ?_)
  split
  · exact readOnly_pure _
  · exact readOnly_query _

theorem ensureFolder_readOnly (folderId : Option String) : ReadOnly (ensureFolder folderId) := by
  cases folderId with
  | none => exact readOnly_pure _
  | some folderId => exact (readOnly_query _).bind (fun _ => readOnly_refuse _ _)

theorem requireNew_readOnly (taken : MemoDb → Bool) (error : String) :
    ReadOnly (requireNew taken error) :=
  (readOnly_query _).bind (fun _ => readOnly_refuse _ _)

theorem setMemo_grows (id : String) (change : PersonalMemo → PersonalMemo) :
    Moves Grows (setMemo id change) := by
  apply moves_execute
  intro db
  refine ⟨fun other there => ?_, rfl, rfl⟩
  rw [Table.get?_update]
  split
  · rw [Option.isSome_map]
    exact there
  · exact there

theorem patchField_grows {α : Type} (id : String) (field : Option α)
    (change : α → PersonalMemo → PersonalMemo) : Moves Grows (patchField id field change) := by
  cases field with
  | none => exact (readOnly_pure _).moves Grows.refl
  | some value => exact setMemo_grows id _

theorem patchFolder_grows (id : String) (folder : Option (Option String)) :
    Moves Grows (patchFolder id folder) := by
  cases folder with
  | none => exact (readOnly_pure _).moves Grows.refl
  | some folder =>
      exact Moves.after_readOnly Grows.refl (ensureFolder_readOnly folder)
        (fun _ => setMemo_grows id _)

theorem create_grows (now : UnixMs) (newId title body : String) (folderId : Option String)
    (tags : List String) : Moves Grows (create now newId title body folderId tags) := by
  refine Moves.after_readOnly Grows.refl (readOnly_lift _) (fun _ => ?_)
  refine Moves.after_readOnly Grows.refl (readOnly_lift _) (fun tags => ?_)
  refine Moves.bind Grows.trans ?_ (fun _ => (get_readOnly newId).moves Grows.refl)
  apply Moves.transaction Grows.refl
  refine Moves.after_readOnly Grows.refl (ensureFolder_readOnly folderId) (fun _ => ?_)
  refine Moves.after_readOnly Grows.refl (requireNew_readOnly _ _) (fun _ => ?_)
  refine moves_execute (fun db => ⟨fun other there => ?_, rfl, rfl⟩)
  rw [Table.get?_insert]
  split
  · rfl
  · exact there

theorem update_grows (now : UnixMs) (id : String) (patch : MemoPatch) :
    Moves Grows (MemoStore.update now id patch) := by
  refine Moves.after_readOnly Grows.refl (readOnly_lift _) (fun _ => ?_)
  refine Moves.after_readOnly Grows.refl (readOnly_lift _) (fun _ => ?_)
  refine Moves.after_readOnly Grows.refl (readOnly_lift _) (fun tags => ?_)
  refine Moves.bind Grows.trans ?_ (fun _ => (get_readOnly id).moves Grows.refl)
  apply Moves.transaction Grows.refl
  refine Moves.after_readOnly Grows.refl (readOnly_query _) (fun found => ?_)
  refine Moves.after_readOnly Grows.refl (readOnly_refuse _ _) (fun _ => ?_)
  refine Moves.bind Grows.trans (patchField_grows id _ _) (fun _ => ?_)
  refine Moves.bind Grows.trans (patchField_grows id _ _) (fun _ => ?_)
  refine Moves.bind Grows.trans (patchFolder_grows id _) (fun _ => ?_)
  refine Moves.bind Grows.trans (patchField_grows id _ _) (fun _ => ?_)
  refine Moves.bind Grows.trans (patchField_grows id _ _) (fun _ => ?_)
  refine Moves.bind Grows.trans (patchField_grows id _ _) (fun _ => ?_)
  split
  · exact setMemo_grows id _
  · exact (readOnly_pure _).moves Grows.refl

theorem duplicate_grows (now : UnixMs) (newId id : String) :
    Moves Grows (duplicate now newId id) :=
  Moves.after_readOnly Grows.refl (get_readOnly id) (fun _ => create_grows now newId _ _ _ _)

theorem trash_grows (now : UnixMs) (id : String) : Moves Grows (MemoStore.trash now id) := by
  refine Moves.after_readOnly Grows.refl (readOnly_query _) (fun changed => ?_)
  exact Moves.after_readOnly Grows.refl (readOnly_refuse _ _) (fun _ => setMemo_grows id _)

theorem restore_grows (id : String) : Moves Grows (MemoStore.restore id) := by
  refine Moves.after_readOnly Grows.refl (readOnly_query _) (fun changed => ?_)
  exact Moves.after_readOnly Grows.refl (readOnly_refuse _ _) (fun _ => setMemo_grows id _)

/-- The operations that only read, or add to the memos. -/
def MemoOp.addsOnly : MemoOp → Bool
  | .get _ | .resolveTitles _ | .backlinks _ | .create .. | .update .. | .duplicate _ | .trash _
  | .restore _ | .reminderList => true
  | _ => false

theorem addsOnly_grows {op : MemoOp} (adds : op.addsOnly = true) (now : UnixMs) (newId : String) :
    Moves Grows (MemoStore.apply now newId op) := by
  cases op with
  | get id => exact ((get_readOnly id).moves Grows.refl).map _
  | resolveTitles titles => exact ((readOnly_query _).moves Grows.refl).map _
  | backlinks id => exact ((backlinks_readOnly id).moves Grows.refl).map _
  | create title body folderId tags => exact (create_grows now newId _ _ _ _).map _
  | update id patch => exact (update_grows now id patch).map _
  | duplicate id => exact (duplicate_grows now newId id).map _
  | trash id => exact (trash_grows now id).map _
  | restore id => exact (restore_grows id).map _
  | reminderList => exact ((readOnly_query _).moves Grows.refl).map _
  | _ => cases adds

/-! ### Folder operations -/

/-- Folders are written, and the folder of memos. -/
structure Refiles (db db' : MemoDb) : Prop where
  memos : ∀ id, (db'.memos.get? id).isSome = (db.memos.get? id).isSome
  reminders : db'.reminders = db.reminders

theorem Refiles.refl (db : MemoDb) : Refiles db db :=
  ⟨fun _ => rfl, rfl⟩

theorem Refiles.trans (one two three : MemoDb) (first : Refiles one two)
    (second : Refiles two three) : Refiles one three where
  memos := fun id => (second.memos id).trans (first.memos id)
  reminders := second.reminders.trans first.reminders

theorem folderCreate_refiles (now : UnixMs) (newId name : String) :
    Moves Refiles (MemoStore.folderCreate now newId name) := by
  refine Moves.after_readOnly Refiles.refl (readOnly_lift _) (fun name => ?_)
  refine Moves.after_readOnly Refiles.refl (requireNew_readOnly _ _) (fun _ => ?_)
  refine Moves.after_readOnly Refiles.refl (requireNew_readOnly _ _) (fun _ => ?_)
  apply Moves.bind Refiles.trans
  · exact moves_execute (fun db => ⟨fun _ => rfl, rfl⟩)
  · exact fun _ => (readOnly_pure _).moves Refiles.refl

theorem folderRename_refiles (id name : String) :
    Moves Refiles (MemoStore.folderRename id name) := by
  refine Moves.after_readOnly Refiles.refl (readOnly_lift _) (fun name => ?_)
  refine Moves.after_readOnly Refiles.refl (readOnly_query _) (fun found => ?_)
  refine Moves.after_readOnly Refiles.refl (readOnly_refuse _ _) (fun _ => ?_)
  exact moves_execute (fun db => ⟨fun _ => rfl, rfl⟩)

theorem folderDelete_refiles (id : String) : Moves Refiles (MemoStore.folderDelete id) := by
  apply Moves.transaction Refiles.refl
  apply Moves.bind Refiles.trans
  · refine moves_execute (fun db => ⟨fun other => ?_, rfl⟩)
    rw [Table.get?_mapRows, Option.isSome_map]
  · intro _
    refine Moves.after_readOnly Refiles.refl (readOnly_query _) (fun found => ?_)
    refine Moves.after_readOnly Refiles.refl (readOnly_refuse _ _) (fun _ => ?_)
    exact moves_execute (fun db => ⟨fun _ => rfl, rfl⟩)

/-! ### Deleting -/

theorem deleteForever_done (trashed : inTrash id db = true) :
    MemoStore.deleteForever id db = (.ok (), { db with
      memos := db.memos.erase id
      reminders := db.reminders.filter (fun key _ => !ofMemo id key) }) := by
  rw [MemoStore.deleteForever, run_bind (ok_query.mpr ⟨trashed, rfl⟩),
    run_bind (run_refuse Bool.noConfusion _ db), run_bind (run_execute _ db), run_execute]

theorem deleteForever_refused (kept : inTrash id db = false) :
    (MemoStore.deleteForever id db).2 = db := by
  rw [MemoStore.deleteForever, run_bind (ok_query.mpr ⟨kept, rfl⟩)]
  rfl

/-! ### Reminders -/

/-- A reminder is accepted: its time is to come and there is room for it. -/
def AcceptsReminder (now : UnixMs) (key : ReminderKey) (db : MemoDb) : Prop :=
  now < key.remindAt ∧ otherReminders key db < MAX_REMINDERS_PER_TARGET

theorem get?_putReminder (key other : ReminderKey) (offset : Option UInt32) (db : MemoDb) :
    (putReminder key offset db).reminders.get? other =
      if other = key then some { offsetMinutes := offset, fired := false }
      else db.reminders.get? other := by
  have either : (putReminder key offset db).reminders.get? other =
      if (db.reminders.get? key).isSome then
        (db.reminders.update key (fun _ => { offsetMinutes := offset, fired := false })).get? other
      else
        (db.reminders.insert key { offsetMinutes := offset, fired := false }).get? other := by
    rw [putReminder]
    split <;> rfl
  rw [either, Table.get?_update, Table.get?_insert]
  by_cases same : other = key
  · rw [if_pos same, if_pos same, same]
    cases db.reminders.get? key <;> rfl
  · rw [if_neg same, if_neg same, ite_self]

/-- A reminder is set exactly when it is accepted. -/
theorem reminderSet_ok {offset : Option UInt32} :
    reminderSet now key offset db = (.ok (), db') ↔
      AcceptsReminder now key db ∧ putReminder key offset db = db' := by
  simp only [reminderSet, ok_bind, ok_refuse, ok_query, ok_execute]
  constructor
  · rintro ⟨_, _, ⟨future, rfl⟩, _, _, ⟨rfl, rfl⟩, _, _, ⟨room, rfl⟩, done⟩
    exact ⟨⟨Int64.not_le.mp future, Nat.not_le.mp room⟩, done⟩
  · rintro ⟨⟨future, room⟩, done⟩
    exact ⟨(), db, ⟨Int64.not_le.mpr future, rfl⟩, _, db, ⟨rfl, rfl⟩, (), db,
      ⟨Nat.not_le.mpr room, rfl⟩, done⟩

theorem reminderSet_refused (offset : Option UInt32) (refused : ¬ AcceptsReminder now key db) :
    ∃ error, reminderSet now key offset db = (.error error, db) := by
  by_cases past : key.remindAt ≤ now
  · exact ⟨_, by rw [reminderSet]; simp only [bind, refuse, if_pos past]; rfl⟩
  · have full : otherReminders key db ≥ MAX_REMINDERS_PER_TARGET := by
      apply Nat.le_of_not_lt
      exact fun room => refused ⟨Int64.not_le.mp past, room⟩
    rw [reminderSet, run_bind (run_refuse past _ db), run_bind (ok_query.mpr ⟨rfl, rfl⟩)]
    exact ⟨_, by simp only [bind, refuse, if_pos full]; rfl⟩

/-- What is due, earliest first. -/
def dueReminders (now : UnixMs) (db : MemoDb) : List MemoReminder :=
  (byRemindAt (db.reminders.rows.filter (fun row => due now row.1 row.2))).map
    (fun row => toReminder row.1 row.2)

/-- An event takes a reminder out of the store: it is cleared, or removed with its memo. -/
def RemovesReminder (key : ReminderKey) : MemoEvent → MemoDb → Prop
  | .applied _ _ (.deleteForever id), db => inTrash id db = true ∧ ofMemo id key = true
  | .applied _ _ .emptyTrash, db =>
      key.scope = .personal ∧ key.network = "" ∧ inTrash key.memoId db = true
  | .applied _ _ (.reminderClear scope network memoId remindAt), _ =>
      key.scope = scope ∧ key.network = network ∧ key.memoId = memoId ∧
        ∀ time, remindAt = some time → key.remindAt = time.toInt64
  | _, _ => False

/-- An event sets a reminder, or overwrites it. -/
def Rearms (key : ReminderKey) (offset : Option UInt32) : MemoEvent → MemoDb → Prop
  | .applied now _ (.reminderSet scope network memoId remindAt minutes), db =>
      key = { scope := scope, network := network, memoId := memoId, remindAt := remindAt.toInt64 } ∧
        offset = minutes ∧ AcceptsReminder now key db
  | _, _ => False

def MemoEvent.takesDue : MemoEvent → Bool
  | .applied _ _ .reminderTakeDue => true
  | _ => false

/-- What one event can do to a reminder: nothing, remove it, set it, or mark it as fired when its
time has come. -/
theorem reminder_after (event : MemoEvent) (db : MemoDb) (key : ReminderKey) :
    (event.perform db).2.reminders.get? key = db.reminders.get? key ∨
      (RemovesReminder key event db ∧ (event.perform db).2.reminders.get? key = none) ∨
      (∃ offset, Rearms key offset event db ∧
        (event.perform db).2.reminders.get? key = some { offsetMinutes := offset, fired := false }) ∨
      (event.takesDue = true ∧ ∃ row, db.reminders.get? key = some row ∧
        due event.now key row = true ∧
          (event.perform db).2.reminders.get? key = some { row with fired := true }) := by
  have grown : ∀ {now : UnixMs} {newId : String} {op : MemoOp}, op.addsOnly = true →
      (MemoEvent.perform (.applied now newId op) db).2.reminders.get? key =
        db.reminders.get? key := by
    intro now newId op adds
    have same := (addsOnly_grows adds now newId db).reminders
    exact congrArg (fun table => table.get? key) same
  have refiled : ∀ {step : MemoStep MemoReply}, event.perform = step → Moves Refiles step →
      (event.perform db).2.reminders.get? key = db.reminders.get? key := by
    intro step same refiles
    rw [same, (refiles db).reminders]
  have filtered : ∀ {keep : ReminderKey → Bool} {rest : Prop},
      (keep key = false → RemovesReminder key event db) →
        (db.reminders.filter (fun key _ => keep key)).get? key = db.reminders.get? key ∨
          (RemovesReminder key event db ∧ (db.reminders.filter (fun key _ => keep key)).get? key = none) ∨
            rest := by
    intro keep rest gone
    rw [Table.get?_filter]
    cases kept : keep key with
    | true =>
        refine .inl ?_
        cases db.reminders.get? key with
        | none => rfl
        | some row => rw [Option.filter_some, if_pos rfl]
    | false =>
        refine .inr (.inl ⟨gone kept, ?_⟩)
        cases db.reminders.get? key with
        | none => rfl
        | some row => rw [Option.filter_some, if_neg Bool.false_ne_true]
  cases event with
  | opened now => exact .inl rfl
  | applied now newId op =>
      cases op with
      | get | resolveTitles | backlinks | create | update | duplicate | trash | restore
      | reminderList => exact .inl (grown rfl)
      | folderCreate name => exact .inl (refiled rfl ((folderCreate_refiles now newId name).map _))
      | folderRename id name => exact .inl (refiled rfl ((folderRename_refiles id name).map _))
      | folderDelete id => exact .inl (refiled rfl ((folderDelete_refiles id).map _))
      | deleteForever id =>
          have after : (MemoEvent.perform (.applied now newId (.deleteForever id)) db).2 =
              (MemoStore.deleteForever id db).2 := run_map_snd _ _ db
          rw [after]
          cases trashed : inTrash id db with
          | false => exact .inl (by rw [deleteForever_refused trashed])
          | true =>
              rw [deleteForever_done trashed]
              exact filtered (fun gone => ⟨trashed, by simpa using gone⟩)
      | emptyTrash =>
          refine filtered (fun gone => ?_)
          simp only [Bool.not_eq_false', Bool.and_eq_true, decide_eq_true_eq] at gone
          exact ⟨gone.1.1, gone.1.2, gone.2⟩
      | reminderSet scope network memoId remindAt offset =>
          let target : ReminderKey :=
            { scope := scope, network := network, memoId := memoId, remindAt := remindAt.toInt64 }
          have after : (MemoEvent.perform
              (.applied now newId (.reminderSet scope network memoId remindAt offset)) db).2 =
                (reminderSet now target offset db).2 := run_map_snd _ _ db
          rw [after]
          by_cases accepted : AcceptsReminder now target db
          · rw [reminderSet_ok.mpr ⟨accepted, rfl⟩, get?_putReminder]
            by_cases same : key = target
            · rw [if_pos same]
              exact .inr (.inr (.inl ⟨offset, ⟨same, rfl, same ▸ accepted⟩, rfl⟩))
            · rw [if_neg same]
              exact .inl rfl
          · obtain ⟨error, refused⟩ := reminderSet_refused offset accepted
            exact .inl (by rw [refused])
      | reminderClear scope network memoId remindAt =>
          refine filtered (fun gone => ?_)
          simp only [Bool.not_eq_false', Bool.and_eq_true, decide_eq_true_eq] at gone
          refine ⟨gone.1.1.1, gone.1.1.2, gone.1.2, fun time given => ?_⟩
          rw [given] at gone
          exact of_decide_eq_true gone.2
      | reminderTakeDue =>
          have after : (MemoEvent.perform (.applied now newId .reminderTakeDue) db).2.reminders.get?
              key = (db.reminders.get? key).map (fun row =>
                if due now key row then { row with fired := true } else row) :=
            Table.get?_mapRows _ db.reminders key
          rw [after]
          cases found : db.reminders.get? key with
          | none => exact .inl rfl
          | some row =>
              rw [Option.map_some]
              by_cases now_ : due now key row = true
              · rw [if_pos now_]
                exact .inr (.inr (.inr ⟨rfl, row, rfl, now_, rfl⟩))
              · rw [if_neg now_]
                exact .inl rfl

end PeerCove
