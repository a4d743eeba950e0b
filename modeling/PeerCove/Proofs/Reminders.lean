/-
Module: PeerCove.Proofs.Reminders
Layer: Proofs
Purpose: Reminders over runs of the personal store: when one is delivered, and when a new one is
  refused.
Trusted boundary: none
Main exports: deliveriesOf, reminder_delivered_once, cap_counts_pending_iff
-/
import PeerCove.Library.Runs
import PeerCove.Proofs.PersonalStore

namespace PeerCove

open Stateful MemoStore

/-! ### Deliveries of one reminder -/

/-- The row that a delivered reminder was read from. -/
def MemoReminder.key (reminder : MemoReminder) : ReminderKey where
  scope := reminder.scope
  network := reminder.network
  memoId := reminder.memoId
  remindAt := reminder.remindAt.toInt64

/-- The operation that sets a reminder. -/
def MemoReminder.setting (reminder : MemoReminder) : MemoOp :=
  .reminderSet reminder.scope reminder.network reminder.memoId reminder.remindAt
    reminder.offsetMinutes

/-- The deliveries of one reminder, with their times. -/
def deliveriesOf (key : ReminderKey) (delivered : List (UnixMs × List MemoReminder)) :
    List (UnixMs × MemoReminder) :=
  delivered.flatMap (fun delivery =>
    (delivery.2.filter (fun reminder => reminder.key = key)).map (fun reminder =>
      (delivery.1, reminder)))

theorem deliveriesOf_append (key : ReminderKey) (one two : List (UnixMs × List MemoReminder)) :
    deliveriesOf key (one ++ two) = deliveriesOf key one ++ deliveriesOf key two :=
  List.flatMap_append

variable {db : MemoDb} {now : UnixMs} {key : ReminderKey} {event : MemoEvent}
  {run next : MemoRun}

theorem rows_of_key (key : ReminderKey) (db : MemoDb) :
    db.reminders.rows.filter (fun entry => entry.1 = key) =
      ((db.reminders.get? key).map (fun row => (key, row))).toList := by
  cases found : db.reminders.get? key with
  | none =>
      apply List.filter_eq_nil_iff.mpr
      intro entry listed same
      apply Table.get?_eq_none.mp found entry.2
      rw [← of_decide_eq_true same]
      exact listed
  | some row => exact Table.rows_filter_key found

/-- A reminder is delivered once when it is due, and not at all otherwise. -/
theorem dueReminders_filter (now : UnixMs) (key : ReminderKey) (db : MemoDb) :
    (dueReminders now db).filter (fun reminder => reminder.key = key) =
      (((db.reminders.get? key).filter (due now key)).map (toReminder key)).toList := by
  have sorted : ((byRemindAt (db.reminders.rows.filter (fun row => due now row.1 row.2))).filter
      (fun row => row.1 = key)).Perm
        ((((db.reminders.get? key).filter (due now key)).map (fun row => (key, row))).toList) := by
    apply ((List.perm_insertionSort _ _).filter _).trans
    rw [List.filter_comm, rows_of_key]
    cases db.reminders.get? key with
    | none => exact List.Perm.refl _
    | some row =>
        rw [Option.map_some, Option.toList_some, Option.filter_some]
        by_cases due_ : due now key row = true
        · have kept : [(key, row)].filter (fun row => due now row.1 row.2) = [(key, row)] :=
            List.filter_cons_of_pos due_
          rw [kept, if_pos due_]
          exact List.Perm.refl _
        · have dropped : [(key, row)].filter (fun row => due now row.1 row.2) = [] :=
            List.filter_cons_of_neg due_
          rw [dropped, if_neg due_]
          exact List.Perm.refl _
  have chosen : (byRemindAt (db.reminders.rows.filter (fun row => due now row.1 row.2))).filter
      (fun row => row.1 = key) =
        (((db.reminders.get? key).filter (due now key)).map (fun row => (key, row))).toList := by
    cases left : (db.reminders.get? key).filter (due now key) with
    | none =>
        rw [left] at sorted
        exact sorted.eq_nil
    | some row =>
        rw [left] at sorted
        exact List.perm_singleton.mp sorted
  rw [dueReminders, List.filter_map]
  have same : (fun reminder : MemoReminder => decide (reminder.key = key)) ∘
      (fun row : ReminderKey × ReminderRow => toReminder row.1 row.2) =
        fun row => decide (row.1 = key) := rfl
  rw [same, chosen]
  cases (db.reminders.get? key).filter (due now key) with
  | none => rfl
  | some row => rfl

theorem deliveriesOf_single (now : UnixMs) (key : ReminderKey) (db : MemoDb) :
    deliveriesOf key [(now, dueReminders now db)] =
      ((((db.reminders.get? key).filter (due now key)).map (toReminder key)).toList).map
        (fun reminder => (now, reminder)) := by
  rw [deliveriesOf, List.flatMap_singleton, dueReminders_filter]

/-- Only `ReminderTakeDue` delivers anything, and it delivers what is due. -/
theorem deliveriesOf_event (event : MemoEvent) (db : MemoDb) (key : ReminderKey) :
    deliveriesOf key (event.delivery (event.perform db).1) =
      if event.takesDue then
        ((((db.reminders.get? key).filter (due event.now key)).map (toReminder key)).toList).map
          (fun reminder => (event.now, reminder))
      else [] := by
  cases event with
  | opened now => rfl
  | applied now newId op =>
      cases op with
      | reminderTakeDue => exact deliveriesOf_single now key db
      | _ => rfl

/-! ### One reminder over a run -/

/-- Nothing is delivered of a reminder before its time. -/
theorem silent_early (early : event.takesDue = true → event.now < key.remindAt) :
    deliveriesOf key (event.delivery (event.perform db).1) = [] := by
  rw [deliveriesOf_event]
  split
  · have notDue : (db.reminders.get? key).filter (due event.now key) = none := by
      apply Option.filter_eq_none_iff.mpr
      intro row _ due_
      have past : key.remindAt ≤ event.now := of_decide_eq_true (Bool.and_eq_true_iff.mp due_).2
      exact Int64.not_le.mpr (early ‹_›) past
    rw [notDue]
    rfl
  · rfl

/-- A reminder that is not there or has fired is not delivered. -/
def Spent (key : ReminderKey) (db : MemoDb) : Prop :=
  ∀ row, db.reminders.get? key = some row → row.fired = true

theorem Spent.silent (spent : Spent key db) :
    deliveriesOf key (event.delivery (event.perform db).1) = [] := by
  rw [deliveriesOf_event]
  split
  · have notDue : (db.reminders.get? key).filter (due event.now key) = none := by
      apply Option.filter_eq_none_iff.mpr
      intro row found due_
      rw [due, spent row found] at due_
      cases due_
    rw [notDue]
    rfl
  · rfl

/-- A reminder is set before its time. -/
theorem Rearms.future {offset : Option UInt32} (rearms : Rearms key offset event db) :
    event.now < key.remindAt := by
  cases event with
  | opened now => cases rearms
  | applied now newId op =>
      cases op with
      | reminderSet scope network memoId remindAt minutes => exact rearms.2.2.1
      | _ => cases rearms

/-- After its time a reminder cannot be set again. -/
theorem Spent.after (spent : Spent key db) (past : key.remindAt ≤ event.now) :
    Spent key (event.perform db).2 := by
  intro row found
  rcases reminder_after event db key with same | ⟨-, gone⟩ | ⟨offset, rearms, -⟩ |
    ⟨-, before, -, -, fired⟩
  · exact spent row (same.symm.trans found)
  · rw [gone] at found
    cases found
  · exact absurd past (Int64.not_le.mpr rearms.future)
  · rw [fired] at found
    cases found
    rfl

/-- An event that neither removes nor sets a reminder, nor comes when it is due, leaves it. -/
theorem reminder_kept (kept : ¬ RemovesReminder key event db)
    (noReset : ∀ offset, ¬ Rearms key offset event db)
    (early : event.takesDue = true → event.now < key.remindAt) :
    (event.perform db).2.reminders.get? key = db.reminders.get? key := by
  rcases reminder_after event db key with same | ⟨removes, -⟩ | ⟨offset, rearms, -⟩ |
    ⟨takes, row, -, due_, -⟩
  · exact same
  · exact absurd removes kept
  · exact absurd rearms (noReset offset)
  · have past : key.remindAt ≤ event.now := of_decide_eq_true (Bool.and_eq_true_iff.mp due_).2
    exact absurd past (Int64.not_le.mpr (early takes))

/-- What a step records of one reminder. -/
theorem step_deliveries (key : ReminderKey) (happens : MemoRun.step event run = some next) :
    next.db = (event.perform run.db).2 ∧
      deliveriesOf key next.delivered =
        deliveriesOf key run.delivered ++
          deliveriesOf key (event.delivery (event.perform run.db).1) := by
  cases happens
  exact ⟨rfl, deliveriesOf_append ..⟩

/-- Setting a reminder before its time: it is pending, and nothing of it was delivered. -/
theorem set_pending {reminder : MemoReminder} {setAt : UnixMs} {setId : String}
    (accepted : (MemoEvent.perform (.applied setAt setId reminder.setting) db).1 = .ok .done) :
    setAt < reminder.key.remindAt ∧
      (MemoEvent.perform (.applied setAt setId reminder.setting) db).2.reminders.get?
        reminder.key = some { offsetMinutes := reminder.offsetMinutes, fired := false } := by
  have mapped : MemoEvent.perform (.applied setAt setId reminder.setting) db =
      ((reminderSet setAt reminder.key reminder.offsetMinutes db).1.map (fun _ => .done),
        (reminderSet setAt reminder.key reminder.offsetMinutes db).2) := run_map _ _ db
  rw [mapped] at accepted ⊢
  by_cases accepts : AcceptsReminder setAt reminder.key db
  · refine ⟨accepts.1, ?_⟩
    rw [reminderSet_ok.mpr ⟨accepts, rfl⟩, get?_putReminder, if_pos rfl]
  · obtain ⟨error, refused⟩ := reminderSet_refused reminder.offsetMinutes accepts
    rw [refused] at accepted
    cases accepted

/-- While no `ReminderTakeDue` comes at or after its time, nothing of a reminder is delivered. -/
theorem run_silent {events : List MemoEvent} {start final : MemoRun}
    (early : ∀ event ∈ events, event.takesDue = true → event.now < key.remindAt)
    (silent : deliveriesOf key start.delivered = [])
    (reached : Runs.run MemoRun.step events start = some final) :
    deliveriesOf key final.delivered = [] := by
  have fair : Runs.Along MemoRun.step (fun event _ =>
      event.takesDue = true → event.now < key.remindAt) events start :=
    Runs.along_of_forall (fun event listed _ => early event listed) start
  refine Runs.run_invariant (fun run => deliveriesOf key run.delivered = [])
    (fun event run next quiet early happens => ?_) silent fair reached
  have delivered := (step_deliveries key happens).2
  rw [quiet, silent_early early] at delivered
  exact delivered

/-- A reminder that is left alone stays as it is. -/
theorem run_kept {events : List MemoEvent} {start final : MemoRun}
    (early : ∀ event ∈ events, event.takesDue = true → event.now < key.remindAt)
    (kept : Runs.Along MemoRun.step (fun event run =>
      ¬ RemovesReminder key event run.db ∧ ∀ offset, ¬ Rearms key offset event run.db) events start)
    (reached : Runs.run MemoRun.step events start = some final) :
    final.db.reminders.get? key = start.db.reminders.get? key := by
  have fair := (Runs.along_of_forall (fun event listed _ => early event listed) start).and kept
  refine Runs.run_invariant
    (fun run => run.db.reminders.get? key = start.db.reminders.get? key)
    (fun event run next same fair happens => ?_) rfl fair reached
  rw [(step_deliveries key happens).1]
  exact (reminder_kept fair.2.1 fair.2.2 fair.1).trans same

/-- A pending reminder is delivered when it is due, and spent then. -/
theorem take_delivers {reminder : MemoReminder} {takeAt : UnixMs} {takeId : String}
    (pending : run.db.reminders.get? reminder.key =
      some { offsetMinutes := reminder.offsetMinutes, fired := false })
    (due_ : reminder.key.remindAt ≤ takeAt)
    (takes : MemoRun.step (.applied takeAt takeId .reminderTakeDue) run = some next) :
    deliveriesOf reminder.key next.delivered =
        deliveriesOf reminder.key run.delivered ++ [(takeAt, reminder)] ∧
      Spent reminder.key next.db := by
  obtain ⟨after, delivered⟩ := step_deliveries reminder.key takes
  have isDue : due takeAt reminder.key
      { offsetMinutes := reminder.offsetMinutes, fired := false } = true :=
    Bool.and_eq_true_iff.mpr ⟨rfl, decide_eq_true due_⟩
  constructor
  · rw [delivered, deliveriesOf_event, pending]
    have taken : (some { offsetMinutes := reminder.offsetMinutes, fired := false }).filter
        (due takeAt reminder.key) =
          some { offsetMinutes := reminder.offsetMinutes, fired := false } := by
      rw [Option.filter_some, if_pos isDue]
    have now_ : (MemoEvent.applied takeAt takeId .reminderTakeDue).now = takeAt := rfl
    rw [now_, taken]
    rfl
  · intro row found
    have marked : next.db.reminders.get? reminder.key =
        (run.db.reminders.get? reminder.key).map (fun row =>
          if due takeAt reminder.key row then { row with fired := true } else row) := by
      rw [after]
      exact Table.get?_mapRows _ _ _
    rw [pending, Option.map_some, if_pos isDue] at marked
    rw [marked] at found
    cases found
    rfl

/-- A spent reminder whose time is over is not delivered again. -/
theorem run_spent {events : List MemoEvent} {start final : MemoRun}
    (past : ∀ event ∈ events, key.remindAt ≤ event.now) (spent : Spent key start.db)
    (reached : Runs.run MemoRun.step events start = some final) :
    deliveriesOf key final.delivered = deliveriesOf key start.delivered := by
  have fair : Runs.Along MemoRun.step (fun event _ => key.remindAt ≤ event.now) events start :=
    Runs.along_of_forall (fun event listed _ => past event listed) start
  have both := Runs.run_invariant
    (fun run => Spent key run.db ∧
      deliveriesOf key run.delivered = deliveriesOf key start.delivered)
    (fun event run next holds past happens => by
      obtain ⟨after, delivered⟩ := step_deliveries key happens
      rw [holds.1.silent, List.append_nil, holds.2] at delivered
      rw [after]
      exact ⟨holds.1.after past, delivered⟩) ⟨spent, rfl⟩ fair reached
  exact both.2

/-- A reminder that is set, and neither overwritten nor cleared nor removed with its memo before
the first `ReminderTakeDue` at or after its time, is delivered by that one and by no other. -/
theorem reminder_delivered_once {before between after : List MemoEvent} {reminder : MemoReminder}
    {setAt takeAt : UnixMs} {setId takeId : String}
    {atSet afterSet atTake afterTake final : MemoRun}
    (ordered : (before ++ .applied setAt setId reminder.setting ::
      (between ++ .applied takeAt takeId .reminderTakeDue :: after)).Pairwise
        (fun one two => one.now ≤ two.now))
    (toSet : Runs.run MemoRun.step before { db := db } = some atSet)
    (accepted : (MemoEvent.perform (.applied setAt setId reminder.setting) atSet.db).1 = .ok .done)
    (sets : MemoRun.step (.applied setAt setId reminder.setting) atSet = some afterSet)
    (toTake : Runs.run MemoRun.step between afterSet = some atTake)
    (kept : Runs.Along MemoRun.step (fun event run =>
      ¬ RemovesReminder reminder.key event run.db ∧
        ∀ offset, ¬ Rearms reminder.key offset event run.db) between afterSet)
    (first : ∀ event ∈ between, event.takesDue = true → event.now < reminder.key.remindAt)
    (due_ : reminder.key.remindAt ≤ takeAt)
    (takes : MemoRun.step (.applied takeAt takeId .reminderTakeDue) atTake = some afterTake)
    (toEnd : Runs.run MemoRun.step after afterTake = some final) :
    deliveriesOf reminder.key atTake.delivered = [] ∧
      deliveriesOf reminder.key afterTake.delivered = [(takeAt, reminder)] ∧
      deliveriesOf reminder.key final.delivered = [(takeAt, reminder)] := by
  obtain ⟨future, pending⟩ := set_pending accepted
  obtain ⟨-, fromSet, beforeSet⟩ := List.pairwise_append.mp ordered
  obtain ⟨-, later⟩ := List.pairwise_cons.mp fromSet
  obtain ⟨-, fromTake, -⟩ := List.pairwise_append.mp later
  obtain ⟨afterwards, -⟩ := List.pairwise_cons.mp fromTake
  have early : ∀ event ∈ before ++ [MemoEvent.applied setAt setId reminder.setting],
      event.takesDue = true → event.now < reminder.key.remindAt := by
    intro event listed _
    rcases List.mem_append.mp listed with earlier | same
    · have notLater : event.now ≤ setAt := beforeSet event earlier _ List.mem_cons_self
      exact Int64.lt_of_le_of_lt notLater future
    · rw [List.mem_singleton.mp same]
      exact future
  have silentSet : deliveriesOf reminder.key afterSet.delivered = [] :=
    run_silent early rfl (Runs.run_append.mpr ⟨atSet, toSet, Runs.run_cons.mpr ⟨_, sets, rfl⟩⟩)
  have silent := run_silent first silentSet toTake
  have stays : atTake.db.reminders.get? reminder.key =
      some { offsetMinutes := reminder.offsetMinutes, fired := false } := by
    rw [run_kept first kept toTake, (step_deliveries reminder.key sets).1]
    exact pending
  obtain ⟨delivered, spent⟩ := take_delivers stays due_ takes
  rw [silent, List.nil_append] at delivered
  refine ⟨silent, delivered, ?_⟩
  rw [run_spent (fun event listed => Int64.le_trans due_ (afterwards event listed)) spent toEnd]
  exact delivered

/-- A reminder for the time 10. -/
def milkReminder : MemoReminder where
  scope := .personal
  network := ""
  memoId := "milk"
  remindAt := 10
  offsetMinutes := none

theorem reminder_delivered_once_milk :
    ∃ final, Runs.run MemoRun.step
        [.applied 0 "" milkReminder.setting, .applied 5 "" .reminderTakeDue,
          .applied 20 "" .reminderTakeDue, .applied 30 "" .reminderTakeDue]
        { db := MemoDb.empty } = some final ∧
      deliveriesOf milkReminder.key final.delivered = [(20, milkReminder)] := by
  have ordered : ([] ++ MemoEvent.applied 0 "" milkReminder.setting ::
      ([MemoEvent.applied 5 "" .reminderTakeDue] ++ MemoEvent.applied 20 "" .reminderTakeDue ::
        [MemoEvent.applied 30 "" .reminderTakeDue])).Pairwise (fun one two : MemoEvent =>
          one.now ≤ two.now) := by
    decide
  have toSet : Runs.run MemoRun.step [] { db := MemoDb.empty } =
      some { db := MemoDb.empty } := rfl
  have accepted : (MemoEvent.perform (.applied 0 "" milkReminder.setting) MemoDb.empty).1 =
      .ok .done := rfl
  have first : ∀ event ∈ [MemoEvent.applied 5 "" .reminderTakeDue],
      event.takesDue = true → event.now < milkReminder.key.remindAt := by
    intro event listed _
    rw [List.mem_singleton.mp listed]
    decide
  exact ⟨_, rfl, (reminder_delivered_once ordered toSet accepted rfl rfl
    ⟨⟨id, fun _ => id⟩, fun _ _ => trivial⟩ first (by decide) rfl rfl).2.2⟩

/-- Cleared after its time but before the next `ReminderTakeDue`, a reminder is not delivered. -/
theorem reminder_clearedLate :
    ∃ final, Runs.run MemoRun.step
        [.applied 0 "" milkReminder.setting,
          .applied 20 "" (.reminderClear .personal "" "milk" none),
          .applied 30 "" .reminderTakeDue] { db := MemoDb.empty } = some final ∧
      (MemoEvent.perform (.applied 0 "" milkReminder.setting) MemoDb.empty).1 = .ok .done ∧
      milkReminder.key.remindAt < (20 : UnixMs) ∧
      deliveriesOf milkReminder.key final.delivered = [] :=
  ⟨_, rfl, rfl, by decide, rfl⟩

/-! ### Room for a reminder -/

/-- Number of the pending reminders that are counted. -/
def pendingCount (counted : ReminderKey → Bool) (db : MemoDb) : Nat :=
  (db.reminders.filter (fun key row => counted key && !row.fired)).size

/-- A reminder for a time to come is set when fewer than the maximum number of the reminders that
count for it are pending. -/
def CapCountsPending (counted : ReminderKey → ReminderKey → Bool) (event : MemoEvent)
    (run : MemoRun) : Prop :=
  ∀ now newId reminder, event = .applied now newId (MemoReminder.setting reminder) →
    now < reminder.key.remindAt →
      pendingCount (counted reminder.key) run.db < MAX_REMINDERS_PER_TARGET →
        (event.perform run.db).1 = .ok .done

/-- There is room for the reminder among all of its target, fired or not, or those that count are
too many as well. -/
def CapHasRoom (counted : ReminderKey → ReminderKey → Bool) (event : MemoEvent)
    (run : MemoRun) : Prop :=
  ∀ now newId reminder, event = .applied now newId (MemoReminder.setting reminder) →
    now < reminder.key.remindAt →
      otherReminders reminder.key run.db < MAX_REMINDERS_PER_TARGET ∨
        MAX_REMINDERS_PER_TARGET ≤ pendingCount (counted reminder.key) run.db

/-- A reminder for a time to come is set exactly when there is room among all of its target. -/
theorem set_done_iff {reminder : MemoReminder} (future : now < reminder.key.remindAt)
    (newId : String) :
    (MemoEvent.perform (.applied now newId reminder.setting) db).1 = .ok .done ↔
      otherReminders reminder.key db < MAX_REMINDERS_PER_TARGET := by
  have mapped : (MemoEvent.perform (.applied now newId reminder.setting) db).1 =
      (reminderSet now reminder.key reminder.offsetMinutes db).1.map (fun _ => .done) :=
    congrArg Prod.fst (run_map _ _ db)
  rw [mapped]
  constructor
  · intro done
    apply Classical.byContradiction
    intro full
    obtain ⟨error, refused⟩ :=
      reminderSet_refused reminder.offsetMinutes (fun accepts => full (And.right accepts))
    rw [refused] at done
    cases done
  · intro room
    rw [reminderSet_ok.mpr ⟨⟨future, room⟩, rfl⟩]
    rfl

theorem capCountsPending_iff (counted : ReminderKey → ReminderKey → Bool) (event : MemoEvent)
    (run : MemoRun) : CapCountsPending counted event run ↔ CapHasRoom counted event run := by
  constructor
  · intro counts now newId reminder same future
    rcases Nat.lt_or_ge (pendingCount (counted reminder.key) run.db) MAX_REMINDERS_PER_TARGET with
      few | many
    · have done := counts now newId reminder same future few
      rw [same] at done
      exact .inl ((set_done_iff future newId).mp done)
    · exact .inr many
  · intro room now newId reminder same future few
    rw [same]
    apply (set_done_iff future newId).mpr
    exact (room now newId reminder same future).resolve_right (Nat.not_le_of_lt few)

/-- Whichever reminders are meant to count: in a run the pending ones alone decide about every new
reminder exactly when, each time, there is room among all reminders of its target, those that
have fired included. -/
theorem cap_counts_pending_iff (counted : ReminderKey → ReminderKey → Bool)
    (events : List MemoEvent) (start : MemoRun) :
    Runs.Along MemoRun.step (CapCountsPending counted) events start ↔
      Runs.Along MemoRun.step (CapHasRoom counted) events start :=
  Runs.along_congr (capCountsPending_iff counted)

/-- The reminder for a later time of the same memo. -/
def milkAt (time : UInt64) : MemoReminder :=
  { milkReminder with remindAt := time }

/-- Ten reminders that are set and delivered. -/
def tenDelivered : List MemoEvent :=
  [1, 2, 3, 4, 5, 6, 7, 8, 9, 10].map (fun time => .applied 0 "" (milkAt time).setting) ++
    [.applied 20 "" .reminderTakeDue]

/-- No reminder is pending, and a new one is refused. -/
theorem cap_counts_fired :
    ∃ run, Runs.run MemoRun.step tenDelivered { db := MemoDb.empty } = some run ∧
      run.db.reminders.rows.all (fun row => row.2.fired) = true ∧
      (20 : UnixMs) < (milkAt 30).key.remindAt ∧
      (MemoEvent.perform (.applied 20 "" (milkAt 30).setting) run.db).1 =
        .error "リマインダーの件数が上限(10 件)に達しています" := by
  refine ⟨_, rfl, ?_, by decide, ?_⟩
  · decide
  · rfl

end PeerCove
