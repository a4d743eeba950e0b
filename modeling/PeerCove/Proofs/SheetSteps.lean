/-
Module: PeerCove.Proofs.SheetSteps
Layer: Proofs
Purpose: What the operations on sheets and on the schedule check, and that they leave the database
  alone when they fail.
Trusted boundary: none
Main exports: sheetRename_ok, sheetDelete_ok, scheduleUpdate_ok, scheduleDelete_ok,
  atomic_performSheet, atomic_performSchedule
-/
import PeerCove.Memo.Requests
import PeerCove.Proofs.StoreSteps

namespace PeerCove.SharedStore

open Fallible Stateful

variable {now : Nat} {actor : Actor} {id newId name error : String} {db db' : SharedDb}

/-! ### Sheets -/

theorem sheetRow_ok {row : SheetRow} :
    sheetRow id db = (.ok row, db') ↔ db.sheets.get? id = some row ∧ db = db' := by
  simp [sheetRow]

theorem readOnly_sheetRow (id : String) : ReadOnly (sheetRow id) :=
  (readOnly_query _).bind (fun _ => readOnly_expect _ _)

theorem sheetGet_run {row : SheetRow} (present : db.sheets.get? id = some row) :
    sheetGet actor id db = (.ok (row.intoMeta id actor), db) :=
  (run_bind (sheetRow_ok.mpr ⟨present, rfl⟩)).trans rfl

/-- After a change of a sheet that exists, its description can be read. -/
theorem sheetGet_setSheet {row : SheetRow} (present : db.sheets.get? id = some row)
    (change : SheetRow → SheetRow) :
    (execute (setSheet id change) >>= fun _ => sheetGet actor id) db =
      (.ok ((change row).intoMeta id actor), setSheet id change db) := by
  refine (run_bind (run_execute _ _)).trans (sheetGet_run ?_)
  rw [setSheet, Table.get?_update_self, present]
  rfl

theorem managedSheet_ok {row : SheetRow} :
    managedSheet actor id error db = (.ok row, db') ↔
      db.sheets.get? id = some row ∧ actor.canManageOwned row.ownerId = true ∧ db = db' := by
  constructor
  · intro done
    obtain ⟨row, mid, read, done⟩ := ok_bind.mp done
    obtain ⟨present, rfl⟩ := sheetRow_ok.mp read
    obtain ⟨manage, done⟩ := ok_bind_refuse.mp done
    obtain ⟨rfl, rfl⟩ := ok_pure.mp done
    exact ⟨present, by simpa using manage, rfl⟩
  · intro h
    obtain ⟨present, manage, rfl⟩ := h
    refine (run_bind (sheetRow_ok.mpr ⟨present, rfl⟩)).trans ?_
    exact (run_bind (run_refuse (by simp [manage]) _ _)).trans rfl

theorem readOnly_managedSheet (actor : Actor) (id error : String) :
    ReadOnly (managedSheet actor id error) :=
  (readOnly_sheetRow id).bind (fun _ => (readOnly_refuse _ _).bind (fun _ => readOnly_pure _))

theorem sheetRename_ok {sheet : SheetMeta}
    (renamed : sheetRename now actor id name db = (.ok sheet, db')) :
    ∃ row, db.sheets.get? id = some row ∧ actor.canManageOwned row.ownerId = true := by
  obtain ⟨⟨⟩, _, renamed⟩ := ok_bind_lift.mp renamed
  obtain ⟨row, db₂, read, renamed⟩ := ok_bind.mp renamed
  obtain ⟨present, manage, rfl⟩ := managedSheet_ok.mp read
  exact ⟨row, present, manage⟩

theorem sheetDelete_ok {done : Unit} (deleted : sheetDelete actor id db = (.ok done, db')) :
    ∃ row, db.sheets.get? id = some row ∧ actor.canManageOwned row.ownerId = true := by
  obtain ⟨row, db₁, read, deleted⟩ := ok_bind.mp deleted
  obtain ⟨present, manage, rfl⟩ := managedSheet_ok.mp read
  exact ⟨row, present, manage⟩

theorem atomic_sheetCreate (now : Nat) (newId : String) (actor : Actor) (name : String) :
    Atomic (sheetCreate now newId actor name) := by
  intro db
  refine AtomicAt.check (readOnly_lift _) (fun _ _ => ?_)
  refine AtomicAt.check (readOnly_query _) (fun _ _ => ?_)
  refine AtomicAt.check (readOnly_refuse _ _) (fun _ _ => ?_)
  refine AtomicAt.check (readOnly_requireUnused _ _) (fun _ _ => ?_)
  exact AtomicAt.of_ok ((run_bind (run_execute _ _)).trans
    (sheetGet_run (Table.get?_insert_self _ _ _)))

theorem atomic_sheetRename (now : Nat) (actor : Actor) (id name : String) :
    Atomic (sheetRename now actor id name) := by
  intro db
  refine AtomicAt.check (readOnly_lift _) (fun _ _ => ?_)
  refine AtomicAt.check (readOnly_managedSheet _ _ _) (fun row passed => ?_)
  obtain ⟨present, _, _⟩ := managedSheet_ok.mp passed
  exact AtomicAt.of_ok (sheetGet_setSheet present _)

theorem atomic_sheetDelete (actor : Actor) (id : String) : Atomic (sheetDelete actor id) :=
  Atomic.after_readOnly (readOnly_managedSheet _ _ _) (fun _ => atomic_execute _)

theorem atomic_sheetSetColWidth (id : String) (col : Nat) (width : Option Nat) :
    Atomic (sheetSetColWidth id col width) := by
  refine Atomic.after_readOnly (readOnly_sheetRow id) (fun _ => ?_)
  refine Atomic.after_readOnly (readOnly_refuse _ _) (fun _ => ?_)
  cases width with
  | none => exact Atomic.after_readOnly (readOnly_pure _) (fun _ => atomic_execute _)
  | some width => exact Atomic.after_readOnly (readOnly_lift _) (fun _ => atomic_execute _)

theorem atomic_sheetSetRowHeight (id : String) (row : Nat) (height : Option Nat) :
    Atomic (sheetSetRowHeight id row height) := by
  refine Atomic.after_readOnly (readOnly_sheetRow id) (fun _ => ?_)
  refine Atomic.after_readOnly (readOnly_refuse _ _) (fun _ => ?_)
  cases height with
  | none => exact Atomic.after_readOnly (readOnly_pure _) (fun _ => atomic_execute _)
  | some height => exact Atomic.after_readOnly (readOnly_lift _) (fun _ => atomic_execute _)

theorem atomic_sheetMerge (now : Nat) (actor : Actor) (id : String) (merge : SheetMerge) :
    Atomic (sheetMerge now actor id merge) := by
  intro db
  refine AtomicAt.check (readOnly_sheetRow id) (fun _ _ => ?_)
  refine AtomicAt.check (readOnly_lift _) (fun _ _ => ?_)
  exact AtomicAt.of_ok ((run_bind (run_execute _ _)).trans rfl)

theorem atomic_sheetUnmerge (id : String) (row col : Nat) : Atomic (sheetUnmerge id row col) := by
  intro db
  refine AtomicAt.check (readOnly_sheetRow id) (fun _ _ => ?_)
  refine AtomicAt.check (readOnly_lift _) (fun _ _ => ?_)
  exact AtomicAt.of_ok ((run_bind (run_execute _ _)).trans rfl)

theorem atomic_sheetSetSettings (actor : Actor) (id : String) (gridlines : Bool)
    (freezeRows freezeCols : Nat) :
    Atomic (sheetSetSettings actor id gridlines freezeRows freezeCols) := by
  intro db
  refine AtomicAt.check (readOnly_sheetRow id) (fun row passed => ?_)
  obtain ⟨present, _⟩ := sheetRow_ok.mp passed
  refine AtomicAt.check (readOnly_refuse _ _) (fun _ _ => ?_)
  exact AtomicAt.of_ok (sheetGet_setSheet present _)

theorem atomic_sheetWrite (now : Nat) (actor : Actor) (id : String) (cells : List CellWrite) :
    Atomic (sheetWrite now actor id cells) := by
  intro db
  refine AtomicAt.check (readOnly_sheetRow id) (fun _ _ => ?_)
  refine AtomicAt.check (readOnly_lift _) (fun _ _ => ?_)
  exact AtomicAt.of_ok ((run_bind (run_execute _ _)).trans rfl)

theorem readOnly_sheetCells (id : String) : ReadOnly (sheetCells id) :=
  (readOnly_sheetRow id).bind (fun _ => readOnly_pure _)

theorem readOnly_sheetLayout (id : String) : ReadOnly (sheetLayout id) :=
  (readOnly_sheetRow id).bind (fun _ => readOnly_pure _)

theorem readOnly_sheetMerges (id : String) : ReadOnly (sheetMerges id) :=
  (readOnly_sheetRow id).bind (fun _ => readOnly_pure _)

/-! ### The schedule -/

theorem scheduleRow_ok {row : ScheduleRow} :
    scheduleRow id db = (.ok row, db') ↔ db.scheduleEvents.get? id = some row ∧ db = db' := by
  simp [scheduleRow]

theorem readOnly_scheduleRow (id : String) : ReadOnly (scheduleRow id) :=
  (readOnly_query _).bind (fun _ => readOnly_expect _ _)

theorem scheduleGet_run {row : ScheduleRow} (present : db.scheduleEvents.get? id = some row) :
    scheduleGet actor id db = (.ok (row.intoEvent id actor), db) :=
  (run_bind (scheduleRow_ok.mpr ⟨present, rfl⟩)).trans rfl

theorem scheduleGet_setSchedule {row : ScheduleRow}
    (present : db.scheduleEvents.get? id = some row) (change : ScheduleRow → ScheduleRow) :
    (execute (setSchedule id change) >>= fun _ => scheduleGet actor id) db =
      (.ok ((change row).intoEvent id actor), setSchedule id change db) := by
  refine (run_bind (run_execute _ _)).trans (scheduleGet_run ?_)
  rw [setSchedule, Table.get?_update_self, present]
  rfl

theorem managedSchedule_ok {row : ScheduleRow} :
    managedSchedule actor id error db = (.ok row, db') ↔
      db.scheduleEvents.get? id = some row ∧ actor.canManageOwned row.ownerId = true ∧
        db = db' := by
  constructor
  · intro done
    obtain ⟨row, mid, read, done⟩ := ok_bind.mp done
    obtain ⟨present, rfl⟩ := scheduleRow_ok.mp read
    obtain ⟨manage, done⟩ := ok_bind_refuse.mp done
    obtain ⟨rfl, rfl⟩ := ok_pure.mp done
    exact ⟨present, by simpa using manage, rfl⟩
  · intro h
    obtain ⟨present, manage, rfl⟩ := h
    refine (run_bind (scheduleRow_ok.mpr ⟨present, rfl⟩)).trans ?_
    exact (run_bind (run_refuse (by simp [manage]) _ _)).trans rfl

theorem readOnly_managedSchedule (actor : Actor) (id error : String) :
    ReadOnly (managedSchedule actor id error) :=
  (readOnly_scheduleRow id).bind (fun _ => (readOnly_refuse _ _).bind (fun _ => readOnly_pure _))

section Schedule

variable {title note : String} {start : Nat} {stop : Option Nat} {allDay : Bool}
  {participants : List ScheduleParticipant} {base : Nat}

theorem scheduleUpdate_ok {event : ScheduleEvent}
    (done : scheduleUpdate now actor id base title note start stop allDay participants db =
      (.ok event, db')) :
    ∃ row, db.scheduleEvents.get? id = some row ∧ actor.canManageOwned row.ownerId = true ∧
      row.revision = base := by
  obtain ⟨⟨⟩, _, done⟩ := ok_bind_lift.mp done
  obtain ⟨row, db₂, read, done⟩ := ok_bind.mp done
  obtain ⟨present, manage, rfl⟩ := managedSchedule_ok.mp read
  obtain ⟨current, done⟩ := ok_bind_refuse.mp done
  exact ⟨row, present, manage, not_not.mp current⟩

theorem scheduleDelete_ok {done : Unit} (deleted : scheduleDelete actor id db = (.ok done, db')) :
    ∃ row, db.scheduleEvents.get? id = some row ∧ actor.canManageOwned row.ownerId = true := by
  obtain ⟨row, db₁, read, deleted⟩ := ok_bind.mp deleted
  obtain ⟨present, manage, rfl⟩ := managedSchedule_ok.mp read
  exact ⟨row, present, manage⟩

theorem atomic_scheduleCreate :
    Atomic (scheduleCreate now newId actor title note start stop allDay participants) := by
  intro db
  refine AtomicAt.check (readOnly_lift _) (fun _ _ => ?_)
  refine AtomicAt.check (readOnly_query _) (fun _ _ => ?_)
  refine AtomicAt.check (readOnly_refuse _ _) (fun _ _ => ?_)
  refine AtomicAt.check (readOnly_requireUnused _ _) (fun _ _ => ?_)
  exact AtomicAt.of_ok ((run_bind (run_execute _ _)).trans
    (scheduleGet_run (Table.get?_insert_self _ _ _)))

theorem atomic_scheduleUpdate :
    Atomic (scheduleUpdate now actor id base title note start stop allDay participants) := by
  intro db
  refine AtomicAt.check (readOnly_lift _) (fun _ _ => ?_)
  refine AtomicAt.check (readOnly_managedSchedule _ _ _) (fun row passed => ?_)
  obtain ⟨present, _, _⟩ := managedSchedule_ok.mp passed
  refine AtomicAt.check (readOnly_refuse _ _) (fun _ _ => ?_)
  exact AtomicAt.of_ok (scheduleGet_setSchedule present _)

theorem atomic_scheduleDelete (actor : Actor) (id : String) : Atomic (scheduleDelete actor id) :=
  Atomic.after_readOnly (readOnly_managedSchedule _ _ _) (fun _ => atomic_execute _)

end Schedule

end PeerCove.SharedStore
