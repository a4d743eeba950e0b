/-
Module: PeerCove.Proofs.MemoReferences
Layer: Proofs
Purpose: When every reminder of a personal memo refers to a memo of the store, over all runs.
Trusted boundary: none
Main exports: Referenced, KeepsReferences, referenced_iff, references_kept_iff
-/
import PeerCove.Library.Runs
import PeerCove.Proofs.PersonalStore

namespace PeerCove

open Stateful MemoStore

/-- Every reminder of a personal memo refers to a memo of the store. -/
def Referenced (db : MemoDb) : Prop :=
  ∀ key row, db.reminders.get? key = some row → key.scope = .personal →
    (db.memos.get? key.memoId).isSome = true

/-- The reminders that the store does not remove with a personal memo name a network, or belong to
a memo whose time in the trash is over.  A reminder is set for a memo that exists. -/
def KeepsReferences : MemoEvent → MemoDb → Prop
  | .opened now, db =>
      ∀ key row memo, db.reminders.get? key = some row → key.scope = .personal →
        db.memos.get? key.memoId = some memo → expired now memo = false
  | .applied _ _ (.deleteForever id), db =>
      inTrash id db = true → ∀ key row, db.reminders.get? key = some row →
        key.scope = .personal → key.memoId = id → key.network = ""
  | .applied _ _ .emptyTrash, db =>
      ∀ key row, db.reminders.get? key = some row → key.scope = .personal →
        inTrash key.memoId db = true → key.network = ""
  | .applied now _ (.reminderSet .personal network memoId remindAt _), db =>
      AcceptsReminder now { scope := .personal, network, memoId, remindAt := remindAt.toInt64 } db →
        (db.memos.get? memoId).isSome = true
  | _, _ => True

variable {db : MemoDb} {now : UnixMs} {key : ReminderKey} {event : MemoEvent}
  {newId id name : String}

/-! ### One event -/

/-- Nothing is lost when memos stay and reminders are a part of what they were. -/
theorem Referenced.of_fewer {after : MemoDb} (safe : Referenced db)
    (memos : ∀ id, (db.memos.get? id).isSome = true → (after.memos.get? id).isSome = true)
    (fewer : ∀ key row, after.reminders.get? key = some row →
      ∃ row, db.reminders.get? key = some row) : Referenced after := by
  intro key row listed personal
  obtain ⟨before, found⟩ := fewer key row listed
  exact memos key.memoId (safe key before found personal)

theorem isSome_filter {ρ : Type} {keep : ρ → Bool} {row : Option ρ} :
    (row.filter keep).isSome = true ↔ ∃ value, row = some value ∧ keep value = true := by
  cases row with
  | none => simp
  | some value => simp [Option.filter_some]

theorem referenced_opened (safe : Referenced db) :
    Referenced (MemoEvent.perform (.opened now) db).2 ↔ KeepsReferences (.opened now) db := by
  have memos : ∀ id, (MemoEvent.perform (.opened now) db).2.memos.get? id =
      (db.memos.get? id).filter (fun memo => !expired now memo) :=
    Table.get?_filter _ db.memos
  constructor
  · intro still key row memo listed personal found
    have there := still key row listed personal
    rw [memos, found] at there
    obtain ⟨other, same, kept⟩ := isSome_filter.mp there
    cases same
    exact Bool.eq_false_of_not_eq_true' kept
  · intro keeps key row listed personal
    obtain ⟨memo, found⟩ := Option.isSome_iff_exists.mp (safe key row listed personal)
    rw [memos, found]
    exact isSome_filter.mpr ⟨memo, rfl, by rw [keeps key row memo listed personal found]; rfl⟩

theorem filter_eq_some {ρ : Type} {keep : ρ → Bool} {row : Option ρ} {value : ρ} :
    row.filter keep = some value ↔ row = some value ∧ keep value = true :=
  Option.filter_eq_some_iff

theorem ofMemo_iff : ofMemo id key = true ↔
    key.scope = .personal ∧ key.network = "" ∧ key.memoId = id := by
  simp only [ofMemo, Bool.and_eq_true, decide_eq_true_eq, and_assoc]

theorem referenced_deleteForever (safe : Referenced db) :
    Referenced (MemoEvent.perform (.applied now newId (.deleteForever id)) db).2 ↔
      KeepsReferences (.applied now newId (.deleteForever id)) db := by
  have after : (MemoEvent.perform (.applied now newId (.deleteForever id)) db).2 =
      (MemoStore.deleteForever id db).2 := run_map_snd _ _ db
  rw [after]
  cases trashed : inTrash id db with
  | false =>
      rw [deleteForever_refused trashed]
      refine ⟨fun _ impossible => ?_, fun _ => safe⟩
      rw [trashed] at impossible
      cases impossible
  | true =>
      rw [deleteForever_done trashed]
      constructor
      · intro still _ key row listed personal same
        apply Classical.byContradiction
        intro named
        have kept : (db.reminders.filter (fun key _ => !ofMemo id key)).get? key = some row := by
          rw [Table.get?_filter]
          refine filter_eq_some.mpr ⟨listed, ?_⟩
          exact Bool.not_eq_true' _ ▸ Bool.eq_false_of_not_eq_true
            (fun its => named (ofMemo_iff.mp its).2.1)
        have there := still key row kept personal
        rw [same, Table.get?_erase_self] at there
        cases there
      · intro keeps key row listed personal
        rw [Table.get?_filter] at listed
        obtain ⟨found, kept⟩ := filter_eq_some.mp listed
        by_cases same : key.memoId = id
        · have its := ofMemo_iff.mpr ⟨personal, keeps trashed key row found personal same, same⟩
          rw [its] at kept
          cases kept
        · rw [Table.get?_erase_of_ne _ same]
          exact safe key row found personal

theorem referenced_emptyTrash (safe : Referenced db) :
    Referenced (MemoEvent.perform (.applied now newId .emptyTrash) db).2 ↔
      KeepsReferences (.applied now newId .emptyTrash) db := by
  have memos : ∀ id, (MemoEvent.perform (.applied now newId .emptyTrash) db).2.memos.get? id =
      (db.memos.get? id).filter (fun memo => memo.deletedAt.isNone) :=
    Table.get?_filter _ db.memos
  have reminders : ∀ key, (MemoEvent.perform (.applied now newId .emptyTrash) db).2.reminders.get?
      key = (db.reminders.get? key).filter (fun _ =>
        !(key.scope = .personal && key.network = "" && inTrash key.memoId db)) :=
    Table.get?_filter _ db.reminders
  constructor
  · intro still key row listed personal trashed
    apply Classical.byContradiction
    intro named
    have kept : (MemoEvent.perform (.applied now newId .emptyTrash) db).2.reminders.get? key =
        some row := by
      rw [reminders]
      refine filter_eq_some.mpr ⟨listed, ?_⟩
      simp [named]
    have there := still key row kept personal
    rw [memos] at there
    obtain ⟨memo, found, outside⟩ := isSome_filter.mp there
    rw [inTrash, found, Option.any_some] at trashed
    rw [Option.isNone_iff_eq_none.mp outside] at trashed
    cases trashed
  · intro keeps key row listed personal
    rw [reminders] at listed
    obtain ⟨found, kept⟩ := filter_eq_some.mp listed
    obtain ⟨memo, there⟩ := Option.isSome_iff_exists.mp (safe key row found personal)
    rw [memos, there]
    refine isSome_filter.mpr ⟨memo, rfl, ?_⟩
    apply Classical.byContradiction
    intro deleted
    have trashed : inTrash key.memoId db = true := by
      rw [inTrash, there, Option.any_some]
      cases when_ : memo.deletedAt with
      | none => exact absurd (by rw [when_]; rfl) deleted
      | some time => rfl
    have plain := keeps key row found personal trashed
    simp [personal, plain, trashed] at kept

theorem referenced_reminderSet {scope : ReminderScope} {network memoId : String}
    {remindAt : UInt64} {offset : Option UInt32} (safe : Referenced db) :
    Referenced (MemoEvent.perform
        (.applied now newId (.reminderSet scope network memoId remindAt offset)) db).2 ↔
      KeepsReferences (.applied now newId (.reminderSet scope network memoId remindAt offset))
        db := by
  let target : ReminderKey :=
    { scope := scope, network := network, memoId := memoId, remindAt := remindAt.toInt64 }
  have after : (MemoEvent.perform
      (.applied now newId (.reminderSet scope network memoId remindAt offset)) db).2 =
        (reminderSet now target offset db).2 := run_map_snd _ _ db
  rw [after]
  by_cases accepted : AcceptsReminder now target db
  · rw [reminderSet_ok.mpr ⟨accepted, rfl⟩]
    have others : Referenced (putReminder target offset db) ↔
        (scope = .personal → (db.memos.get? memoId).isSome = true) := by
      constructor
      · intro still personal
        exact still target _ (by rw [get?_putReminder, if_pos rfl]) personal
      · intro there key row listed personal
        rw [get?_putReminder] at listed
        by_cases same : key = target
        · rw [same] at personal ⊢
          exact there personal
        · rw [if_neg same] at listed
          exact safe key row listed personal
    rw [others]
    cases scope with
    | personal => exact ⟨fun there _ => there rfl, fun keeps _ => keeps accepted⟩
    | shared => exact ⟨fun _ => trivial, fun _ impossible => nomatch impossible⟩
    | schedule => exact ⟨fun _ => trivial, fun _ impossible => nomatch impossible⟩
  · obtain ⟨error, refused⟩ := reminderSet_refused offset accepted
    rw [refused]
    refine ⟨fun _ => ?_, fun _ => safe⟩
    cases scope with
    | personal => exact fun accepts => absurd accepts accepted
    | shared => exact trivial
    | schedule => exact trivial

/-- Every event keeps the references exactly under its condition. -/
theorem referenced_iff (event : MemoEvent) (safe : Referenced db) :
    Referenced (event.perform db).2 ↔ KeepsReferences event db := by
  have stays : ∀ {after : MemoDb},
      (∀ id, (db.memos.get? id).isSome = true → (after.memos.get? id).isSome = true) →
      after.reminders = db.reminders → (Referenced after ↔ True) := by
    intro after memos same
    refine iff_true_intro (safe.of_fewer memos (fun key row listed => ⟨row, ?_⟩))
    rw [← same]
    exact listed
  have refiled : ∀ {step : MemoStep MemoReply}, event.perform = step → Moves Refiles step →
      (Referenced (event.perform db).2 ↔ True) := by
    intro step same refiles
    rw [same]
    have led := refiles db
    exact stays (fun id there => (led.memos id).trans there) led.reminders
  cases event with
  | opened now => exact referenced_opened safe
  | applied now newId op =>
      have grown : op.addsOnly = true →
          (Referenced (MemoEvent.perform (.applied now newId op) db).2 ↔ True) := by
        intro adds
        have led := addsOnly_grows adds now newId db
        exact stays led.memos led.reminders
      cases op with
      | get | resolveTitles | backlinks | create | update | duplicate | trash | restore
      | reminderList => exact grown rfl
      | folderCreate name => exact refiled rfl ((folderCreate_refiles now newId name).map _)
      | folderRename id name => exact refiled rfl ((folderRename_refiles id name).map _)
      | folderDelete id => exact refiled rfl ((folderDelete_refiles id).map _)
      | deleteForever id => exact referenced_deleteForever safe
      | emptyTrash => exact referenced_emptyTrash safe
      | reminderSet scope network memoId remindAt offset => exact referenced_reminderSet safe
      | reminderClear scope network memoId remindAt =>
          refine iff_true_intro (safe.of_fewer (fun _ there => there) (fun key row listed => ?_))
          exact ⟨row, (filter_eq_some.mp ((Table.get?_filter _ _ _).symm.trans listed)).1⟩
      | reminderTakeDue =>
          refine iff_true_intro (safe.of_fewer (fun _ there => there) (fun key row listed => ?_))
          obtain ⟨before, found, -⟩ :=
            Option.map_eq_some_iff.mp ((Table.get?_mapRows _ _ _).symm.trans listed)
          exact ⟨before, found⟩

/-! ### Runs -/

/-- In a run of the personal store, every reminder of a personal memo refers to a memo in every
state exactly when each event meets its condition. -/
theorem references_kept_iff {events : List MemoEvent} {start final : MemoRun}
    (first : Referenced start.db) (reached : Runs.run MemoRun.step events start = some final) :
    (∀ done, done <+: events → ∀ run, Runs.run MemoRun.step done start = some run →
        Referenced run.db) ↔
      Runs.Along MemoRun.step (fun event run => KeepsReferences event run.db) events start := by
  refine Runs.safe_iff_along (fun _ => True) (fun run => Referenced run.db)
    (fun _ _ _ _ _ => trivial) (fun event run next _ safe happens => ?_) trivial first reached
  cases happens
  exact referenced_iff event safe

/-- A memo with a reminder goes to the trash. -/
def trashedWithReminder : List MemoEvent :=
  [.applied 0 "m" (.create "milk" "" none []),
    .applied 0 "" (.reminderSet .personal "" "m" 10 none), .applied 1 "" (.trash "m")]

theorem referenced_empty : Referenced MemoDb.empty := by
  intro key row listed
  cases listed

theorem references_kept_trashed :
    ∃ final, Runs.run MemoRun.step trashedWithReminder { db := MemoDb.empty } = some final ∧
      ∀ done, done <+: trashedWithReminder → ∀ run,
        Runs.run MemoRun.step done { db := MemoDb.empty } = some run → Referenced run.db := by
  refine ⟨_, rfl, (references_kept_iff referenced_empty rfl).mpr ?_⟩
  refine ⟨trivial, fun created happens => ⟨fun _ => ?_, fun _ _ => ⟨trivial, fun _ _ => trivial⟩⟩⟩
  cases happens
  rfl

/-- Opened 30 days later, the store has lost the memo and still delivers its reminder. -/
theorem references_lost :
    ∃ final, Runs.run MemoRun.step
        (trashedWithReminder ++ [.opened 2592000002, .applied 2592000002 "" .reminderTakeDue])
        { db := MemoDb.empty } = some final ∧
      ¬ Referenced final.db ∧
      final.delivered = [(2592000002,
        [{ scope := .personal, network := "", memoId := "m", remindAt := 10,
           offsetMinutes := none }])] := by
  refine ⟨_, rfl, fun referenced => ?_, rfl⟩
  have there := referenced { scope := .personal, network := "", memoId := "m", remindAt := 10 }
    { offsetMinutes := none, fired := true } rfl rfl
  exact absurd there (by decide)

end PeerCove
