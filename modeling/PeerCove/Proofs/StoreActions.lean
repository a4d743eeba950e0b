/-
Module: PeerCove.Proofs.StoreActions
Layer: Proofs
Purpose: What an action on memos and versions can do to the database: one case for each kind of
  change, and which of them nobody has measured.
Trusted boundary: none
Main exports: uncheckedVersion, ActionChange, perform_actionChange
-/
import PeerCove.Memo.StoreRuns
import PeerCove.Proofs.StoreSteps

namespace PeerCove

open Stateful SharedStore

/-- The memo of which an action stores a version although it measures nothing. -/
def uncheckedVersion (action : MemoAction) (db : SharedDb) : Option Row :=
  match action with
  | .saveVersion actor id => (db.row? id).filter (fun row =>
      row.canEdit actor (db.permContext id) &&
        decide ((db.latestHistory id).map HistoryRow.revision ≠ some row.revision))
  | .close id sinceRevision => (db.row? id).filter (fun row => row.revision ≠ sinceRevision)
  | _ => none

/-- The database has room for some bytes. -/
def SharedDb.HasRoom (db : SharedDb) (added : Nat) : Prop :=
  db.totalBodyBytes + added ≤ db.limits.maxTotalBytes

/-- What an action can do. -/
inductive ActionChange (now : Nat) (action : MemoAction) (db : SharedDb) : SharedDb → Prop where
  | same (measured : uncheckedVersion action db = none) : ActionChange now action db db
  | create (newId : String) (memo : MemoRow) (measured : uncheckedVersion action db = none)
      (unused : db.memos.get? newId = none) (room : db.HasRoom (Text.len memo.body)) :
      ActionChange now action db (db.insertMemo newId memo)
  | update (actor : Actor) (id title body : String) (row : Row)
      (measured : uncheckedVersion action db = none) (present : db.row? id = some row)
      (room : db.HasRoom (Text.len body)) :
      ActionChange now action db
        ((withAutoSnapshot now row db).setMemo id (withContent now actor title body))
  | historyRestore (actor : Actor) (id title body : String) (row : Row)
      (measured : uncheckedVersion action db = none) (present : db.row? id = some row)
      (room : db.HasRoom (Text.len body)) :
      ActionChange now action db
        ((withSnapshot now "restore" row db).setMemo id (withContent now actor title body))
  | version (kind id : String) (row : Row) (present : db.row? id = some row)
      (unchecked : uncheckedVersion action db = some row) :
      ActionChange now action db (withSnapshot now kind row db)
  | mark (id : String) (change : MemoRow → MemoRow) (measured : uncheckedVersion action db = none)
      (same : ∀ memo, (change memo).body = memo.body) :
      ActionChange now action db (db.setMemo id change)
  | purge (id : String) (measured : uncheckedVersion action db = none) :
      ActionChange now action db (db.purgeMemo id now)

variable {now : Nat} {db db' : SharedDb}

theorem ActionChange.of_eq {action : MemoAction} {after : SharedDb} (same : db' = after)
    (change : ActionChange now action db after) : ActionChange now action db db' :=
  same ▸ change

/-! ### Room -/

theorem update_room {actor : Actor} {id title body : String} {base : Nat}
    {detail : SharedMemoDetail}
    (done : update now actor id base title body db = (.ok detail, db')) :
    db.HasRoom (Text.len body) := by
  obtain ⟨⟨⟩, _, done⟩ := ok_bind_lift.mp done
  obtain ⟨limits, rfl, done⟩ := ok_bind_query.mp done
  obtain ⟨⟨⟩, _, done⟩ := ok_bind_lift.mp done
  obtain ⟨⟨row, ctx⟩, db₄, read, done⟩ := ok_bind.mp done
  obtain ⟨_, _, _, rfl⟩ := visibleRow_ok.mp read
  obtain ⟨_, done⟩ := ok_bind_refuse.mp done
  obtain ⟨_, done⟩ := ok_bind_refuse.mp done
  obtain ⟨⟨⟩, db₇, room, done⟩ := ok_bind.mp done
  exact (checkTotalCapacity_ok.mp room).1

theorem historyRestore_room {actor : Actor} {id : String} {hid : Nat} {version : HistoryRow}
    {detail : SharedMemoDetail} (stored : db.historyRow? id hid = some version)
    (done : historyRestore now actor id hid db = (.ok detail, db')) :
    db.HasRoom (Text.len version.body) := by
  obtain ⟨⟨row, ctx⟩, db₁, read, done⟩ := ok_bind.mp done
  obtain ⟨_, _, _, rfl⟩ := visibleRow_ok.mp read
  obtain ⟨_, done⟩ := ok_bind_refuse.mp done
  obtain ⟨version', db₃, looked, done⟩ := ok_bind.mp done
  obtain ⟨stored', rfl⟩ := historyRow_ok.mp looked
  cases stored.symm.trans stored'
  obtain ⟨⟨⟩, _, done⟩ := ok_bind_lift.mp done
  obtain ⟨limits, rfl, done⟩ := ok_bind_query.mp done
  obtain ⟨⟨⟩, _, done⟩ := ok_bind_lift.mp done
  obtain ⟨⟨⟩, db₇, room, done⟩ := ok_bind.mp done
  exact (checkTotalCapacity_ok.mp room).1

theorem create_room {newId : String} {actor : Actor} {title body : String}
    {folderId : Option String} {detail : SharedMemoDetail}
    (done : create now newId actor title body folderId db = (.ok detail, db')) :
    db.HasRoom (Text.len body) := by
  obtain ⟨⟨⟩, _, done⟩ := ok_bind_lift.mp done
  obtain ⟨limits, rfl, done⟩ := ok_bind_query.mp done
  obtain ⟨⟨⟩, _, done⟩ := ok_bind_lift.mp done
  obtain ⟨count, _, done⟩ := ok_bind_query.mp done
  obtain ⟨_, done⟩ := ok_bind_refuse.mp done
  obtain ⟨⟨⟩, db₆, room, done⟩ := ok_bind.mp done
  exact (checkTotalCapacity_ok.mp room).1

/-! ### Actions -/

/-- An operation whose reply is dropped: it succeeds, or changes nothing. -/
theorem dropped_cases {α : Type} {operation : StoreOp α} (atomic : Atomic operation)
    (db : SharedDb) :
    ((operation >>= fun _ => pure ()) db).2 = db ∨
      ∃ value, operation db = (.ok value, ((operation >>= fun _ => pure ()) db).2) := by
  cases done : operation db with
  | mk outcome after =>
      cases outcome with
      | error error =>
          refine .inl ?_
          have same := atomic db error after done
          simp only [bind, done]
          exact same
      | ok value =>
          refine .inr ⟨value, ?_⟩
          simp only [bind, done]
          rfl

theorem atomic_cases {operation : StoreOp Unit} (atomic : Atomic operation) (db : SharedDb) :
    (operation db).2 = db ∨ operation db = (.ok (), (operation db).2) := by
  cases done : operation db with
  | mk outcome after =>
      cases outcome with
      | error error => exact .inl (atomic db error after done)
      | ok value => exact .inr rfl

/-- What `save_version` does when the actor may edit. -/
theorem saveVersion_run {actor : Actor} {id : String} {row : Row} (present : db.row? id = some row)
    (edit : row.canEdit actor (db.permContext id) = true) :
    saveVersion now actor id db =
      (.ok (), if (db.latestHistory id).map HistoryRow.revision = some row.revision then db
        else withSnapshot now "manual" row db) := by
  refine (run_bind (rowAndContext_ok.mpr ⟨present, rfl, rfl⟩)).trans ?_
  refine (run_bind (run_refuse (by simp [edit]) _ _)).trans ?_
  refine (run_bind (ok_query.mpr ⟨rfl, rfl⟩)).trans ?_
  by_cases same : (db.latestHistory id).map HistoryRow.revision = some row.revision
  · rw [if_pos same, if_pos same]
    rfl
  · rw [if_neg same, if_neg same]
    exact snapshotHistory_run present

/-- A version on request is stored exactly when the actor may edit and the newest one is of another
revision. -/
theorem saveVersion_cases (now : Nat) (actor : Actor) (id : String) (db : SharedDb) :
    (uncheckedVersion (.saveVersion actor id) db = none ∧
        (saveVersion now actor id db).2 = db) ∨
      ∃ row, db.row? id = some row ∧
        uncheckedVersion (.saveVersion actor id) db = some row ∧
        (saveVersion now actor id db).2 = withSnapshot now "manual" row db := by
  cases present : db.row? id with
  | none =>
      refine .inl ⟨by rw [uncheckedVersion, present]; rfl, ?_⟩
      rcases atomic_cases (atomic_saveVersion now actor id) db with same | done
      · exact same
      · obtain ⟨row, found, _⟩ := saveVersion_ok done
        cases present.symm.trans found
  | some row =>
      cases edit : row.canEdit actor (db.permContext id) with
      | false =>
          refine .inl ⟨by simp [uncheckedVersion, present, edit], ?_⟩
          rcases atomic_cases (atomic_saveVersion now actor id) db with same | done
          · exact same
          · obtain ⟨other, found, may, _⟩ := saveVersion_ok done
            cases present.symm.trans found
            cases edit.symm.trans may
      | true =>
          rw [saveVersion_run present edit]
          by_cases same : (db.latestHistory id).map HistoryRow.revision = some row.revision
          · exact .inl ⟨by simp [uncheckedVersion, present, same], if_pos same⟩
          · refine .inr ⟨row, rfl, ?_, if_neg same⟩
            rw [uncheckedVersion, present, Option.filter_some, if_pos]
            rw [edit, Bool.true_and]
            exact decide_eq_true same

/-- A version "close" is stored exactly when the revision is another one. -/
theorem close_cases (now : Nat) (id : String) (since : Nat) (db : SharedDb) :
    (uncheckedVersion (.close id since) db = none ∧
        (snapshotIfRevisionChanged now id since db).2 = db) ∨
      ∃ row, db.row? id = some row ∧ uncheckedVersion (.close id since) db = some row ∧
        (snapshotIfRevisionChanged now id since db).2 = withSnapshot now "close" row db := by
  cases present : db.row? id with
  | none =>
      refine .inl ⟨by rw [uncheckedVersion, present]; rfl, ?_⟩
      have missing : row id db = (.error NOT_FOUND, db) := by
        simp [row, bind, query, expect, present]
      rw [snapshotIfRevisionChanged]
      simp only [bind, missing]
  | some row =>
      rw [snapshotIfRevisionChanged_run present]
      by_cases changed : row.revision ≠ since
      · exact .inr ⟨row, rfl, by simp [uncheckedVersion, present, changed], if_pos changed⟩
      · exact .inl ⟨by simp [uncheckedVersion, present, not_not.mp changed], if_neg changed⟩

/-- Every action does one of these. -/
theorem perform_actionChange (now : Nat) (action : MemoAction) (db : SharedDb) :
    ActionChange now action db (action.perform now db).2 := by
  cases action with
  | create newId actor title body folderId =>
      rcases dropped_cases (atomic_create now newId actor title body folderId) db with
        same | ⟨detail, done⟩
      · exact .of_eq same (.same rfl)
      · obtain ⟨unused, after, _⟩ := create_ok done
        exact .of_eq after (.create newId (newMemo now actor title body folderId) rfl unused
          (create_room done))
  | update actor id base title body =>
      rcases dropped_cases (atomic_update now actor id base title body) db with
        same | ⟨detail, done⟩
      · exact .of_eq same (.same rfl)
      · obtain ⟨row, present, _, _, _, after⟩ := update_ok done
        exact .of_eq after (.update actor id title body row rfl present (update_room done))
  | saveVersion actor id =>
      rcases saveVersion_cases now actor id db with ⟨measured, same⟩ | ⟨row, present, some_, after⟩
      · exact .of_eq same (.same measured)
      · exact .of_eq after (.version "manual" id row present some_)
  | close id since =>
      rcases close_cases now id since db with ⟨measured, same⟩ | ⟨row, present, some_, after⟩
      · exact .of_eq same (.same measured)
      · exact .of_eq after (.version "close" id row present some_)
  | historyRestore actor id hid =>
      rcases dropped_cases (atomic_historyRestore now actor id hid) db with same | ⟨detail, done⟩
      · exact .of_eq same (.same rfl)
      · obtain ⟨row, version, present, _, stored, _, after⟩ := historyRestore_ok done
        exact .of_eq after (.historyRestore actor id version.title version.body row rfl present
          (historyRestore_room stored done))
  | trash actor id =>
      rcases atomic_cases (atomic_trash now actor id) db with same | done
      · exact .of_eq same (.same rfl)
      · obtain ⟨row, _, _, after⟩ := trash_ok done
        refine .of_eq after (.mark id _ rfl (fun memo => ?_))
        split
        · rfl
        · rfl
  | restore actor id =>
      rcases atomic_cases (atomic_restore actor id) db with same | done
      · exact .of_eq same (.same rfl)
      · obtain ⟨row, _, _, after⟩ := restore_ok done
        exact .of_eq after (.mark id _ rfl (fun _ => rfl))
  | deleteForever actor id =>
      rcases atomic_cases (atomic_deleteForever now actor id) db with same | done
      · exact .of_eq same (.same rfl)
      · obtain ⟨row, _, _, _, after⟩ := deleteForever_ok done
        exact .of_eq after (.purge id rfl)

end PeerCove
