/-
Module: PeerCove.Proofs.FolderNames
Layer: Proofs
Purpose: When the folders of a store have different names over all runs, for the personal store and
  the shared one.
Trusted boundary: none
Main exports: RenamesFreshly, FolderAction.RenamesFreshly, folder_names_distinct_iff
-/
import PeerCove.Library.Runs
import PeerCove.Memo.StoreRuns
import PeerCove.Proofs.PersonalStore
import PeerCove.Proofs.StoreSteps

namespace PeerCove

open Stateful

/-! ### The personal store -/

section Personal

variable {db db' : MemoDb} {now : UnixMs} {newId id name : String}

/-- A folder that is renamed gets a name that no other folder has. -/
def RenamesFreshly : MemoEvent → MemoDb → Prop
  | .applied _ _ (.folderRename id name), db =>
      ∀ valid, validateFolderName name = .ok valid → (db.folders.get? id).isSome = true →
        ∀ other folder, db.folders.get? other = some folder → other ≠ id → folder.name ≠ valid
  | _, _ => True

theorem requireNew_ok {taken : MemoDb → Bool} {error : String} :
    MemoStore.requireNew taken error db = (.ok (), db') ↔ taken db = false ∧ db = db' := by
  simp [MemoStore.requireNew]

theorem personalCreate_ok {folder : MemoFolder}
    (done : MemoStore.folderCreate now newId name db = (.ok folder, db')) :
    db.folders.rows.any (fun entry => entry.2.name = folder.name) = false ∧
      db' = { db with folders :=
        db.folders.insert newId { name := folder.name, createdAt := now } } := by
  obtain ⟨valid, _, done⟩ := ok_bind_lift.mp done
  obtain ⟨⟨⟩, db₂, compared, done⟩ := ok_bind.mp done
  obtain ⟨distinct, rfl⟩ := requireNew_ok.mp compared
  obtain ⟨⟨⟩, db₃, unused, done⟩ := ok_bind.mp done
  obtain ⟨_, rfl⟩ := requireNew_ok.mp unused
  obtain ⟨⟨⟩, db₄, stored, done⟩ := ok_bind.mp done
  obtain rfl := ok_execute.mp stored
  obtain ⟨rfl, rfl⟩ := ok_pure.mp done
  exact ⟨distinct, rfl⟩

theorem atomic_personalCreate (now : UnixMs) (newId name : String) :
    Atomic (MemoStore.folderCreate now newId name) := by
  intro db
  refine AtomicAt.check (readOnly_lift _) (fun _ _ => ?_)
  refine AtomicAt.check (requireNew_readOnly _ _) (fun _ _ => ?_)
  refine AtomicAt.check (requireNew_readOnly _ _) (fun _ _ => ?_)
  exact AtomicAt.of_ok ((run_bind (run_execute _ _)).trans rfl)

/-- A new folder has a name that no folder has. -/
theorem personalCreate_distinct (distinct : db.folders.Distinct PersonalFolder.name) :
    (MemoStore.folderCreate now newId name db).2.folders.Distinct PersonalFolder.name := by
  cases outcome : MemoStore.folderCreate now newId name db with
  | mk result after =>
      cases result with
      | error error =>
          rw [atomic_personalCreate now newId name db error after outcome]
          exact distinct
      | ok folder =>
          obtain ⟨fresh, rfl⟩ := personalCreate_ok outcome
          refine distinct.insert (fun other row listed same => ?_)
          have absent := List.any_eq_false.mp fresh (other, row) (Table.get?_eq_some.mp listed)
          exact absent (decide_eq_true same)

theorem personalRename_done {valid : String} (checked : validateFolderName name = .ok valid)
    {folder : PersonalFolder} (found : db.folders.get? id = some folder) :
    MemoStore.folderRename id name db = (.ok (), { db with
      folders := db.folders.update id (fun folder => { folder with name := valid }) }) := by
  have known : ¬ some folder = none := Option.some_ne_none folder
  have looked : (query (fun db => db.folders.get? id) : MemoStep (Option PersonalFolder)) db =
      (.ok (some folder), db) := ok_query.mpr ⟨found, rfl⟩
  rw [MemoStore.folderRename, run_bind (ok_lift.mpr ⟨checked, rfl⟩), run_bind looked,
    run_bind (run_refuse known _ db), run_execute]

theorem atomic_personalRename (id name : String) : Atomic (MemoStore.folderRename id name) :=
  Atomic.after_readOnly (readOnly_lift _) (fun _ =>
    Atomic.after_readOnly (readOnly_query _) (fun _ =>
      Atomic.after_readOnly (readOnly_refuse _ _) (fun _ => atomic_execute _)))

theorem personalRename_ok (done : MemoStore.folderRename id name db = (.ok (), db')) :
    ∃ valid, validateFolderName name = .ok valid ∧ (db.folders.get? id).isSome = true := by
  obtain ⟨valid, fine, done⟩ := ok_bind_lift.mp done
  obtain ⟨found, rfl, done⟩ := ok_bind_query.mp done
  obtain ⟨⟨⟩, db₃, known, _⟩ := ok_bind.mp done
  exact ⟨valid, fine, Option.isSome_iff_ne_none.mpr (ok_refuse.mp known).1⟩

theorem personalRename_distinct (distinct : db.folders.Distinct PersonalFolder.name) :
    (MemoStore.folderRename id name db).2.folders.Distinct PersonalFolder.name ↔
      RenamesFreshly (.applied now newId (.folderRename id name)) db := by
  cases outcome : MemoStore.folderRename id name db with
  | mk result after =>
      cases result with
      | error error =>
          rw [atomic_personalRename id name db error after outcome]
          refine ⟨fun _ valid checked known => ?_, fun _ => distinct⟩
          obtain ⟨folder, found⟩ := Option.isSome_iff_exists.mp known
          rw [personalRename_done checked found] at outcome
          cases outcome
      | ok done =>
          obtain ⟨valid, checked, known⟩ := personalRename_ok outcome
          obtain ⟨folder, found⟩ := Option.isSome_iff_exists.mp known
          rw [personalRename_done checked found] at outcome
          cases outcome
          apply (Table.distinct_update distinct found _).trans
          constructor
          · intro fresh other checked' _
            cases checked.symm.trans checked'
            exact fresh
          · exact fun fresh => fresh valid checked known

theorem personalDelete_ok (done : MemoStore.folderDelete id db = (.ok (), db')) :
    db'.folders = db.folders.erase id := by
  have done := ok_transaction.mp done
  obtain ⟨⟨⟩, db₁, cleared, done⟩ := ok_bind.mp done
  obtain rfl := ok_execute.mp cleared
  obtain ⟨found, _, done⟩ := ok_bind_query.mp done
  obtain ⟨_, done⟩ := ok_bind_refuse.mp done
  obtain rfl := ok_execute.mp done
  rfl

theorem personalDelete_distinct (distinct : db.folders.Distinct PersonalFolder.name) :
    (MemoStore.folderDelete id db).2.folders.Distinct PersonalFolder.name := by
  cases outcome : MemoStore.folderDelete id db with
  | mk result after =>
      cases result with
      | error error =>
          rw [atomic_transaction _ db error after outcome]
          exact distinct
      | ok done =>
          rw [personalDelete_ok outcome]
          exact distinct.erase id

theorem deleteForever_folders (id : String) :
    Keeps MemoDb.folders (MemoStore.deleteForever id) := by
  refine ((readOnly_query _).keeps _).bind (fun changed => ?_)
  refine ((readOnly_refuse _ _).keeps _).bind (fun _ => ?_)
  apply Keeps.bind
  · exact keeps_execute (fun _ => rfl)
  · exact fun _ => keeps_execute (fun _ => rfl)

theorem reminderSet_folders (now : UnixMs) (key : ReminderKey) (offset : Option UInt32) :
    Keeps MemoDb.folders (MemoStore.reminderSet now key offset) := by
  refine ((readOnly_refuse _ _).keeps _).bind (fun _ => ?_)
  refine ((readOnly_query _).keeps _).bind (fun existing => ?_)
  exact ((readOnly_refuse _ _).keeps _).bind (fun _ => keeps_execute (fun _ => rfl))

/-- Only renaming a folder can give two folders the same name. -/
theorem personal_distinct_iff (event : MemoEvent)
    (distinct : db.folders.Distinct PersonalFolder.name) :
    (event.perform db).2.folders.Distinct PersonalFolder.name ↔ RenamesFreshly event db := by
  have performed : ∀ {α : Type} {step : MemoStep α} {f : α → MemoReply},
      event.perform = f <$> step → (event.perform db).2 = (step db).2 := by
    intro α step f same
    rw [same, run_map]
  cases event with
  | opened now => exact iff_true_intro distinct
  | applied now newId op =>
      have grown : op.addsOnly = true →
          ((MemoEvent.perform (.applied now newId op) db).2.folders.Distinct PersonalFolder.name ↔
            True) := by
        intro adds
        have same := (addsOnly_grows adds now newId db).folders
        exact iff_true_intro (same.symm ▸ distinct)
      cases op with
      | get | resolveTitles | backlinks | create | update | duplicate | trash | restore
      | reminderList => exact grown rfl
      | folderCreate name =>
          rw [performed rfl]
          exact iff_true_intro (personalCreate_distinct distinct)
      | folderRename id name =>
          rw [performed rfl]
          exact personalRename_distinct distinct
      | folderDelete id =>
          rw [performed rfl]
          exact iff_true_intro (personalDelete_distinct distinct)
      | deleteForever id =>
          rw [performed rfl, deleteForever_folders id db]
          exact iff_true_intro distinct
      | emptyTrash => exact iff_true_intro distinct
      | reminderSet scope network memoId remindAt offset =>
          rw [performed rfl, reminderSet_folders]
          exact iff_true_intro distinct
      | reminderClear scope network memoId remindAt => exact iff_true_intro distinct
      | reminderTakeDue => exact iff_true_intro distinct

end Personal

/-! ### The shared store -/

section Shared

variable {db db' : SharedDb} {now : Nat} {actor : Actor} {newId id name : String}

/-- A folder that is renamed gets a name that no other folder has. -/
def FolderAction.RenamesFreshly : FolderAction → SharedDb → Prop
  | .rename actor id name, db =>
      actor.isAdmin = true → ∀ valid, validateFolderName name = .ok valid →
        (db.folders.get? id).isSome = true →
          ∀ other folder, db.folders.get? other = some folder → other ≠ id → folder.name ≠ valid
  | _, _ => True

theorem sharedCreate_distinct (distinct : db.folders.Distinct FolderRow.name) :
    (SharedStore.folderCreate now newId actor name db).2.folders.Distinct FolderRow.name := by
  cases outcome : SharedStore.folderCreate now newId actor name db with
  | mk result after =>
      cases result with
      | error error =>
          rw [SharedStore.atomic_folderCreate now newId actor name db error after outcome]
          exact distinct
      | ok folder =>
          obtain ⟨-, -, fresh, rfl⟩ := SharedStore.folderCreate_ok outcome
          refine distinct.insert (fun other row listed same => ?_)
          have absent := List.any_eq_false.mp fresh (other, row) (Table.get?_eq_some.mp listed)
          exact absent (decide_eq_true same)

theorem sharedRename_done {valid : String} (admin : actor.isAdmin = true)
    (checked : validateFolderName name = .ok valid) {folder : FolderRow}
    (found : db.folders.get? id = some folder) :
    SharedStore.folderRename actor id name db = (.ok (), { db with
      folders := db.folders.update id (fun folder => { folder with name := valid }) }) := by
  have known : ¬ some folder = none := Option.some_ne_none folder
  have looked : (query (fun db => db.folders.get? id) : StoreOp (Option FolderRow)) db =
      (.ok (some folder), db) := ok_query.mpr ⟨found, rfl⟩
  have allowed : SharedStore.requireAdmin actor db = (.ok (), db) :=
    SharedStore.requireAdmin_ok.mpr ⟨admin, rfl⟩
  rw [SharedStore.folderRename, run_bind allowed, run_bind (ok_lift.mpr ⟨checked, rfl⟩),
    run_bind looked, run_bind (run_refuse known _ db), run_execute]

theorem sharedRename_known (done : SharedStore.folderRename actor id name db = (.ok (), db')) :
    actor.isAdmin = true ∧ ∃ valid, validateFolderName name = .ok valid ∧
      (db.folders.get? id).isSome = true := by
  obtain ⟨⟨⟩, db₁, allowed, done⟩ := ok_bind.mp done
  obtain ⟨admin, rfl⟩ := SharedStore.requireAdmin_ok.mp allowed
  obtain ⟨valid, fine, done⟩ := ok_bind_lift.mp done
  obtain ⟨found, rfl, done⟩ := ok_bind_query.mp done
  obtain ⟨⟨⟩, db₄, known, _⟩ := ok_bind.mp done
  exact ⟨admin, valid, fine, Option.isSome_iff_ne_none.mpr (ok_refuse.mp known).1⟩

theorem sharedRename_distinct (distinct : db.folders.Distinct FolderRow.name) :
    (SharedStore.folderRename actor id name db).2.folders.Distinct FolderRow.name ↔
      FolderAction.RenamesFreshly (.rename actor id name) db := by
  cases outcome : SharedStore.folderRename actor id name db with
  | mk result after =>
      cases result with
      | error error =>
          rw [SharedStore.atomic_folderRename actor id name db error after outcome]
          refine ⟨fun _ admin valid checked known => ?_, fun _ => distinct⟩
          obtain ⟨folder, found⟩ := Option.isSome_iff_exists.mp known
          rw [sharedRename_done admin checked found] at outcome
          cases outcome
      | ok done =>
          obtain ⟨admin, valid, checked, known⟩ := sharedRename_known outcome
          obtain ⟨folder, found⟩ := Option.isSome_iff_exists.mp known
          rw [sharedRename_done admin checked found] at outcome
          cases outcome
          apply (Table.distinct_update distinct found _).trans
          constructor
          · intro fresh _ other checked' _
            cases checked.symm.trans checked'
            exact fresh
          · exact fun fresh => fresh admin valid checked known

theorem sharedDelete_distinct (distinct : db.folders.Distinct FolderRow.name) :
    (SharedStore.folderDelete actor id db).2.folders.Distinct FolderRow.name := by
  cases outcome : SharedStore.folderDelete actor id db with
  | mk result after =>
      cases result with
      | error error =>
          rw [SharedStore.atomic_folderDelete actor id db error after outcome]
          exact distinct
      | ok done =>
          obtain ⟨-, rfl⟩ := SharedStore.folderDelete_ok outcome
          exact distinct.erase id

/-- Only renaming a folder can give two folders the same name. -/
theorem shared_distinct_iff (action : FolderAction)
    (distinct : db.folders.Distinct FolderRow.name) :
    (action.perform db).2.folders.Distinct FolderRow.name ↔ action.RenamesFreshly db := by
  cases action with
  | create now newId actor name =>
      have after : (FolderAction.perform (.create now newId actor name) db).2 =
          (SharedStore.folderCreate now newId actor name db).2 :=
        run_map_snd (fun _ => ()) _ db
      rw [after]
      exact iff_true_intro (sharedCreate_distinct distinct)
  | rename actor id name => exact sharedRename_distinct distinct
  | delete actor id => exact iff_true_intro (sharedDelete_distinct distinct)

end Shared

/-! ### Runs -/

/-- In both stores no two folders have the same name in any state of a run exactly when each
folder that is renamed gets a name that no other folder has. -/
theorem folder_names_distinct_iff (events : List MemoEvent) {start final : MemoRun}
    (actions : List FolderAction) {db db' : SharedDb}
    (first : start.db.folders.Distinct PersonalFolder.name)
    (reached : Runs.run MemoRun.step events start = some final)
    (firstShared : db.folders.Distinct FolderRow.name)
    (reachedShared : Runs.run FolderAction.step actions db = some db') :
    ((∀ done, done <+: events → ∀ run, Runs.run MemoRun.step done start = some run →
        run.db.folders.Distinct PersonalFolder.name) ↔
      Runs.Along MemoRun.step (fun event run => RenamesFreshly event run.db) events start) ∧
      ((∀ done, done <+: actions → ∀ mid, Runs.run FolderAction.step done db = some mid →
          mid.folders.Distinct FolderRow.name) ↔
        Runs.Along FolderAction.step FolderAction.RenamesFreshly actions db) := by
  constructor
  · refine Runs.safe_iff_along (fun _ => True)
      (fun run => run.db.folders.Distinct PersonalFolder.name) (fun _ _ _ _ _ => trivial)
      (fun event run next _ distinct happens => ?_) trivial first reached
    cases happens
    exact personal_distinct_iff event distinct
  · refine Runs.safe_iff_along (fun _ => True) (fun mid => mid.folders.Distinct FolderRow.name)
      (fun _ _ _ _ _ => trivial) (fun action mid next _ distinct happens => ?_) trivial
      firstShared reachedShared
    cases happens
    exact shared_distinct_iff action distinct

/-- A folder that is created and renamed, in either store. -/
def renamedMemoFolder : List MemoEvent :=
  [.applied 0 "1" (.folderCreate "work"), .applied 0 "" (.folderRename "1" " home ")]

def renamedSharedFolder : List FolderAction :=
  [.create 0 "1" (.host "host") "work", .rename (.host "host") "1" " home "]

theorem folder_names_distinct_renamed :
    (∀ done, done <+: renamedMemoFolder → ∀ run,
      Runs.run MemoRun.step done { db := MemoDb.empty } = some run →
        run.db.folders.Distinct PersonalFolder.name) ∧
      ∀ done, done <+: renamedSharedFolder → ∀ db,
        Runs.run FolderAction.step done SharedDb.empty = some db →
          db.folders.Distinct FolderRow.name := by
  have names := folder_names_distinct_iff renamedMemoFolder renamedSharedFolder
    Table.distinct_empty (rfl : Runs.run MemoRun.step renamedMemoFolder { db := MemoDb.empty } = _)
    Table.distinct_empty (rfl : Runs.run FolderAction.step renamedSharedFolder SharedDb.empty = _)
  constructor
  · refine names.1.mpr ⟨trivial, fun created happens =>
      ⟨fun valid _ _ other folder listed differs => ?_, fun _ _ => trivial⟩⟩
    cases happens
    have absent : (Table.empty.insert "1" (PersonalFolder.mk "work" 0)).get? other = none := by
      rw [Table.get?_insert_of_ne _ differs]
      rfl
    cases absent.symm.trans listed
  · refine names.2.mpr ⟨trivial, fun created happens =>
      ⟨fun _ valid _ _ other folder listed differs => ?_, fun _ _ => trivial⟩⟩
    cases happens
    have absent : (Table.empty.insert "1" (FolderRow.mk "work" 0)).get? other = none := by
      rw [Table.get?_insert_of_ne _ differs]
      rfl
    cases absent.symm.trans listed

/-- Two folders of either store have the same name after one is renamed. -/
theorem folder_names_repeated :
    (∃ final, Runs.run MemoRun.step [.applied 0 "1" (.folderCreate "work"),
        .applied 0 "2" (.folderCreate "home"), .applied 0 "" (.folderRename "2" " work ")]
        { db := MemoDb.empty } = some final ∧
      final.db.folders.rows.map (fun entry => (entry.1, entry.2.name)) =
        [("1", "work"), ("2", "work")]) ∧
      ∃ final, Runs.run FolderAction.step [.create 0 "1" (.host "host") "work",
          .create 0 "2" (.host "host") "home", .rename (.host "host") "2" " work "]
          SharedDb.empty = some final ∧
        final.folders.rows.map (fun entry => (entry.1, entry.2.name)) =
          [("1", "work"), ("2", "work")] :=
  ⟨⟨_, rfl, by decide⟩, ⟨_, rfl, by decide⟩⟩

end PeerCove
