/-
Module: PeerCove.Host.CalendarRun
Layer: Host
Purpose: The shared calendar in the host's store, and the copy of one member that is kept by the
  answers to `List` and by notices.
Trusted boundary: the participants read back as they were printed; the configuration, and so what
  the member may do, does not change while a notice is on its way
Main exports: ScheduleNotice, applyNotice, cachedScheduleList, CalendarRun.step
-/
import PeerCove.Host.ServiceTasks

namespace PeerCove

open SharedStore ServiceTask

/-! ### The copy of a member -/

/-- The table `schedule_events` of the cache. -/
abbrev CalendarCopy : Type := Table String ScheduleEvent

/-- What a member is told of the calendar. -/
inductive ScheduleNotice where
  | changed (event : ScheduleEvent)
  | removed (id : String)
  /-- The answer to `List`. -/
  | listing (events : List ScheduleEvent)
deriving DecidableEq

/-- `schedule_upsert`, `schedule_remove` and `schedule_replace_all`. -/
def applyNotice (copy : CalendarCopy) : ScheduleNotice → CalendarCopy
  | .changed event => copy.insert event.id event
  | .removed id => copy.erase id
  | .listing events => events.foldl (fun copy event => copy.insert event.id event) Table.empty

/-- `ORDER BY start_at ASC, id ASC`. -/
def ScheduleEvent.before (one two : ScheduleEvent) : Prop :=
  one.startUnixMs < two.startUnixMs ∨ one.startUnixMs = two.startUnixMs ∧ one.id ≤ two.id

instance : DecidableRel ScheduleEvent.before :=
  fun one two => by unfold ScheduleEvent.before; infer_instance

/-- `schedule_list` of the cache. -/
def cachedScheduleList (copy : CalendarCopy) : List ScheduleEvent :=
  (copy.rows.map Prod.snd).insertionSort ScheduleEvent.before

/-! ### The host and the member -/

/-- What an effect of a request tells one reader: `broadcast_schedule_changed` and
`broadcast_schedule_removed`. -/
def scheduleNotice (reader : Actor) : Effect → Option ScheduleNotice
  | .broadcastNotice (.scheduleChanged event) =>
      some (.changed { event with canEdit := reader.canManageOwned event.ownerId })
  | .announce (.schedule (.removed id)) _ => some (.removed id)
  | _ => none

/-- The store, what is still to be sent to one member, in the order of the changes it is about, what
is on its way to that member, and its copy. -/
structure CalendarRun where
  db : SharedDb
  tasks : List ScheduleNotice
  wire : List ScheduleNotice
  copy : CalendarCopy

/-- `handle_schedule`: the announcement is made after the change, by a task of its own. -/
def handleSchedule (reader : Actor) (env : StoreEnv) (actor : Actor) (op : ScheduleOp)
    (run : CalendarRun) : CalendarRun :=
  match performSchedule env actor op run.db with
  | (.ok reply, db) =>
      { run with
        db := db
        tasks := run.tasks ++ (announceSchedule op reply).filterMap (scheduleNotice reader) }
  | (.error _, db) => { run with db := db }

inductive CalendarEvent where
  /-- A request of anybody. -/
  | request (env : StoreEnv) (actor : Actor) (op : ScheduleOp)
  /-- The member's own `List` is answered from the store. -/
  | answer
  /-- One of the tasks sends what it is for. -/
  | send (index : Nat)
  | arrive

def CalendarRun.step (reader : Actor) : CalendarEvent → CalendarRun → Option CalendarRun
  | .request env actor op, run => some (handleSchedule reader env actor op run)
  | .answer, run =>
      match scheduleList reader run.db with
      | (.ok events, db) => some { run with db := db, tasks := run.tasks ++ [.listing events] }
      | (.error _, _) => none
  | .send index, run => do
      let notice ← run.tasks[index]?
      return { run with tasks := run.tasks.eraseIdx index, wire := run.wire ++ [notice] }
  | .arrive, run =>
      match run.wire with
      | [] => none
      | notice :: rest => some { run with wire := rest, copy := applyNotice run.copy notice }

end PeerCove
