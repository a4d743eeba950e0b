/-
Module: PeerCove.Proofs.ScheduleReplicas
Layer: Proofs
Purpose: The copies of the calendar become the host's table when no notice of an event overtakes
  another one of it, and no change of an event is saved over one that its author has not seen.
Trusted boundary: none
Main exports: ScheduleNotice.Apart, CalendarRun.InOrder, CalendarRun.copies_converge,
  CalendarRun.saves_over_seen
-/
import PeerCove.Host.CalendarRun
import PeerCove.Library.LastWrite
import PeerCove.Library.Runs
import PeerCove.Proofs.Authorization

namespace PeerCove

open SharedStore ServiceTask Stateful

/-! ### What a notice does to what is known of the events -/

/-- An event as a reader is shown it. -/
def shownEvent (reader : Actor) (db : SharedDb) (id : String) : Option ScheduleEvent :=
  (db.scheduleEvents.get? id).map (fun row => row.intoEvent id reader)

namespace ScheduleNotice

/-- The event that a notice is about, unless it is about all of them. -/
def subject : ScheduleNotice → Option String
  | .changed event => some event.id
  | .removed id => some id
  | .listing _ => none

/-- Two notices about different events. -/
def Apart (one two : ScheduleNotice) : Prop :=
  one.subject ≠ none ∧ two.subject ≠ none ∧ one.subject ≠ two.subject

instance (one two : ScheduleNotice) : Decidable (one.Apart two) := by
  unfold Apart
  infer_instance

def effect (known : String → Option ScheduleEvent) :
    ScheduleNotice → String → Option ScheduleEvent
  | .changed event => LastWrite.overwrite known (event.id, some event)
  | .removed id => LastWrite.overwrite known (id, none)
  | .listing events => (applyNotice Table.empty (.listing events)).get?

/-- What is known after some notices. -/
def effects (notices : List ScheduleNotice) (known : String → Option ScheduleEvent) :
    String → Option ScheduleEvent :=
  notices.foldl effect known

theorem effects_cons (notice : ScheduleNotice) (rest : List ScheduleNotice)
    (known : String → Option ScheduleEvent) :
    effects (notice :: rest) known = effects rest (effect known notice) := rfl

theorem effects_append (one two : List ScheduleNotice) (known : String → Option ScheduleEvent) :
    effects (one ++ two) known = effects two (effects one known) :=
  List.foldl_append

/-- The copy of a member changes as its notices say. -/
theorem applyNotice_get? (copy : CalendarCopy) (notice : ScheduleNotice) :
    (applyNotice copy notice).get? = effect copy.get? notice := by
  cases notice with
  | changed event =>
      funext id
      exact Table.get?_insert copy event.id id event
  | removed id =>
      funext other
      exact Table.get?_erase copy id other
  | listing events => rfl

theorem effect_comm {one two : ScheduleNotice} (apart : one.Apart two)
    (known : String → Option ScheduleEvent) :
    effect (effect known one) two = effect (effect known two) one := by
  obtain ⟨first, second, differ⟩ := apart
  cases one with
  | listing events => exact absurd rfl first
  | changed event =>
      cases two with
      | listing events => exact absurd rfl second
      | changed other =>
          exact LastWrite.overwrite_comm (fun same => differ (congrArg some same)) known
      | removed id =>
          exact LastWrite.overwrite_comm (fun same => differ (congrArg some same)) known
  | removed id =>
      cases two with
      | listing events => exact absurd rfl second
      | changed other =>
          exact LastWrite.overwrite_comm (fun same => differ (congrArg some same)) known
      | removed other =>
          exact LastWrite.overwrite_comm (fun same => differ (congrArg some same)) known

/-- A notice may come before others that are not about its event. -/
theorem effects_forward {earlier later : List ScheduleNotice} {notice : ScheduleNotice}
    (apart : ∀ other ∈ earlier, other.Apart notice) (known : String → Option ScheduleEvent) :
    effects (earlier ++ notice :: later) known = effects (notice :: (earlier ++ later)) known := by
  induction earlier generalizing known with
  | nil => rfl
  | cons other rest ih =>
      have moved := ih (fun next member => apart next (List.mem_cons_of_mem _ member))
        (effect known other)
      rw [List.cons_append, effects_cons, moved, effects_cons,
        effect_comm (apart other List.mem_cons_self), List.cons_append, effects_cons, effects_cons]

end ScheduleNotice

/-! ### What a request does to what is shown -/

section

variable {reader actor : Actor} {title note : String} {start : Nat} {stop : Option Nat}
  {allDay : Bool} {participants : List ScheduleParticipant} {id newId : String} {now base : Nat}
  {env : StoreEnv} {op : ScheduleOp} {reply : ScheduleReply} {db next : SharedDb}
  {event : ScheduleEvent}

theorem scheduleCreate_done
    (created : scheduleCreate now newId actor title note start stop allDay participants db =
      (.ok event, next)) :
    ∃ row, event = row.intoEvent newId actor ∧ next.scheduleEvents.get? newId = some row ∧
      ∀ id, id ≠ newId → next.scheduleEvents.get? id = db.scheduleEvents.get? id := by
  obtain ⟨⟨⟩, _, created⟩ := ok_bind_lift.mp created
  obtain ⟨count, _, created⟩ := ok_bind_query.mp created
  obtain ⟨_, created⟩ := ok_bind_refuse.mp created
  obtain ⟨⟨⟩, db₄, unused, created⟩ := ok_bind.mp created
  obtain ⟨_, rfl⟩ := requireUnused_ok.mp unused
  obtain ⟨⟨⟩, db₅, written, created⟩ := ok_bind.mp created
  have inserted := ok_execute.mp written
  obtain ⟨row, db₆, read, created⟩ := ok_bind.mp created
  obtain ⟨there, rfl⟩ := scheduleRow_ok.mp read
  obtain ⟨rfl, rfl⟩ := ok_pure.mp created
  refine ⟨row, rfl, there, fun other differ => ?_⟩
  rw [← inserted]
  exact Table.get?_insert_of_ne _ differ _

/-- An accepted change is made over the revision that its author names, by somebody who may. -/
theorem scheduleUpdate_done
    (updated : scheduleUpdate now actor id base title note start stop allDay participants db =
      (.ok event, next)) :
    ∃ row changed : ScheduleRow, db.scheduleEvents.get? id = some row ∧
      actor.canManageOwned row.ownerId = true ∧ row.revision = base ∧
      changed = { row with
        title := title
        note := note
        startAt := start
        endAt := stop
        allDay := allDay
        updatedBy := actor.name
        participants := participants
        revision := row.revision + 1
        updatedAt := now } ∧
      event = changed.intoEvent id actor ∧ next.scheduleEvents.get? id = some changed ∧
      ∀ other, other ≠ id → next.scheduleEvents.get? other = db.scheduleEvents.get? other := by
  obtain ⟨⟨⟩, _, updated⟩ := ok_bind_lift.mp updated
  obtain ⟨row, db₂, read, updated⟩ := ok_bind.mp updated
  obtain ⟨present, manage, rfl⟩ := managedSchedule_ok.mp read
  obtain ⟨current, updated⟩ := ok_bind_refuse.mp updated
  rw [scheduleGet_setSchedule present] at updated
  obtain ⟨answered, rfl⟩ := Prod.ext_iff.mp updated
  refine ⟨row, _, present, manage, not_not.mp current, rfl, (Except.ok.inj answered).symm, ?_, ?_⟩
  · change (db.scheduleEvents.update id _).get? id = _
    rw [Table.get?_update_self, present]
    rfl
  · exact fun other differ => Table.get?_update_of_ne _ differ _

theorem scheduleDelete_done {done : Unit}
    (deleted : scheduleDelete actor id db = (.ok done, next)) :
    next.scheduleEvents = db.scheduleEvents.erase id := by
  obtain ⟨row, db₁, read, deleted⟩ := ok_bind.mp deleted
  obtain ⟨_, _, rfl⟩ := managedSchedule_ok.mp read
  rw [← ok_execute.mp deleted]

theorem shownEvent_set {row : ScheduleRow} (there : next.scheduleEvents.get? id = some row)
    (others : ∀ other, other ≠ id →
      next.scheduleEvents.get? other = db.scheduleEvents.get? other) :
    LastWrite.overwrite (shownEvent reader db) (id, some (row.intoEvent id reader)) =
      shownEvent reader next := by
  funext other
  unfold shownEvent LastWrite.overwrite
  by_cases same : other = id
  · rw [if_pos same, same, there]
    rfl
  · rw [if_neg same, others other same]

theorem shownEvent_erase (erased : next.scheduleEvents = db.scheduleEvents.erase id) :
    LastWrite.overwrite (shownEvent reader db) (id, none) = shownEvent reader next := by
  funext other
  unfold shownEvent LastWrite.overwrite
  rw [erased, Table.get?_erase]
  by_cases same : other = id
  · rw [if_pos same, if_pos same]
    rfl
  · rw [if_neg same, if_neg same]

/-- A request announces what it changes. -/
theorem announced_effects (reader : Actor)
    (done : performSchedule env actor op db = (.ok reply, next)) :
    ScheduleNotice.effects ((announceSchedule op reply).filterMap (scheduleNotice reader))
      (shownEvent reader db) = shownEvent reader next := by
  cases op with
  | list =>
      obtain ⟨events, _, answered⟩ := ok_bind_query.mp done
      obtain ⟨_, rfl⟩ := ok_pure.mp answered
      rfl
  | create title note start stop allDay participants =>
      obtain ⟨event, created, rfl⟩ := ok_reply.mp done
      obtain ⟨row, rfl, there, others⟩ := scheduleCreate_done created
      exact shownEvent_set there others
  | update id base title note start stop allDay participants =>
      obtain ⟨event, updated, rfl⟩ := ok_reply.mp done
      obtain ⟨row, changed, _, _, _, _, rfl, there, others⟩ := scheduleUpdate_done updated
      exact shownEvent_set there others
  | delete id =>
      obtain ⟨⟨⟩, deleted, _⟩ := ok_reply.mp done
      exact shownEvent_erase (scheduleDelete_done deleted)

end

/-! ### The list that the host answers with -/

/-- The order of `schedule_list` on the rows. -/
def rowBefore (one two : String × ScheduleRow) : Prop :=
  one.2.startAt < two.2.startAt ∨ one.2.startAt = two.2.startAt ∧ one.1 ≤ two.1

instance : DecidableRel rowBefore :=
  fun one two => by unfold rowBefore; infer_instance

instance : Std.Total ScheduleEvent.before where
  total one two := by
    unfold ScheduleEvent.before
    rcases lt_trichotomy one.startUnixMs two.startUnixMs with less | same | more
    · exact .inl (.inl less)
    · rcases String.le_total one.id two.id with ids | ids
      · exact .inl (.inr ⟨same, ids⟩)
      · exact .inr (.inr ⟨same.symm, ids⟩)
    · exact .inr (.inl more)

instance : IsTrans ScheduleEvent ScheduleEvent.before where
  trans one two three := by
    unfold ScheduleEvent.before
    rintro (less | ⟨same, ids⟩) (less' | ⟨same', ids'⟩)
    · exact .inl (less.trans less')
    · exact .inl (same' ▸ less)
    · exact .inl (same ▸ less')
    · exact .inr ⟨same.trans same', String.le_trans ids ids'⟩

/-- Events that come before each other have one id. -/
theorem ScheduleEvent.before_antisymm {one two : ScheduleEvent} (first : one.before two)
    (second : two.before one) : one.id = two.id := by
  rcases first with less | ⟨same, ids⟩
  · rcases second with less' | ⟨same, _⟩
    · exact absurd less (not_lt_of_gt less')
    · exact absurd less (by rw [same]; exact lt_irrefl _)
  · rcases second with less | ⟨_, ids'⟩
    · exact absurd less (by rw [same]; exact lt_irrefl _)
    · exact String.le_antisymm ids ids'

/-- The order of the rows is the one of the events that are made of them. -/
theorem before_intoEvent (actor : Actor) (one two : String × ScheduleRow) :
    (one.2.intoEvent one.1 actor).before (two.2.intoEvent two.1 actor) ↔ rowBefore one two :=
  Iff.rfl

/-- Some reader; what it may do is not looked at by the order. -/
def anyReader : Actor where
  memberId := none
  name := ""
  admin := false

instance : Std.Total rowBefore where
  total one two := by
    have total := @Std.Total.total _ ScheduleEvent.before _ (one.2.intoEvent one.1 anyReader)
      (two.2.intoEvent two.1 anyReader)
    rwa [before_intoEvent, before_intoEvent] at total

instance : IsTrans (String × ScheduleRow) rowBefore where
  trans one two three first second := by
    rw [← before_intoEvent anyReader] at first second ⊢
    exact IsTrans.trans _ _ _ first second

/-- The answer to `List`. -/
def listedEvents (reader : Actor) (db : SharedDb) : List ScheduleEvent :=
  (db.scheduleEvents.rows.insertionSort rowBefore).map
    (fun entry => entry.2.intoEvent entry.1 reader)

theorem scheduleList_run (reader : Actor) (db : SharedDb) :
    scheduleList reader db = (.ok (listedEvents reader db), db) := rfl

theorem mem_listedEvents {reader : Actor} {db : SharedDb} {event : ScheduleEvent} :
    event ∈ listedEvents reader db ↔ shownEvent reader db event.id = some event := by
  rw [listedEvents, List.mem_map, shownEvent]
  constructor
  · intro listed
    obtain ⟨entry, member, rfl⟩ := listed
    have there : db.scheduleEvents.get? entry.1 = some entry.2 :=
      Table.get?_eq_some.mpr ((List.mem_insertionSort _).mp member)
    change (db.scheduleEvents.get? entry.1).map _ = _
    rw [there]
    rfl
  · intro shown
    obtain ⟨row, there, same⟩ := Option.map_eq_some_iff.mp shown
    exact ⟨(event.id, row), (List.mem_insertionSort _).mpr (Table.get?_eq_some.mp there), same⟩

theorem listedEvents_sorted (reader : Actor) (db : SharedDb) :
    (listedEvents reader db).Pairwise ScheduleEvent.before :=
  List.pairwise_map.mpr (List.pairwise_insertionSort rowBefore _)

theorem listedEvents_nodup (reader : Actor) (db : SharedDb) : (listedEvents reader db).Nodup := by
  have ids : (listedEvents reader db).map ScheduleEvent.id =
      (db.scheduleEvents.rows.insertionSort rowBefore).map Prod.fst := by
    rw [listedEvents, List.map_map]
    rfl
  refine List.Nodup.of_map ScheduleEvent.id ?_
  rw [ids]
  exact ((List.perm_insertionSort rowBefore _).map Prod.fst).nodup_iff.mpr db.scheduleEvents.nodup

/-- The answer to `List` says what is shown. -/
theorem effect_listing (reader : Actor) (db : SharedDb) (known : String → Option ScheduleEvent) :
    ScheduleNotice.effect known (.listing (listedEvents reader db)) = shownEvent reader db := by
  funext id
  change ((listedEvents reader db).foldl (fun copy event => copy.insert event.id event)
    Table.empty).get? id = _
  cases shown : shownEvent reader db id with
  | none =>
      refine (Table.get?_foldl_insert_absent (fun event member same => ?_)).trans
        (Table.get?_empty id)
      rw [← same, mem_listedEvents.mp member] at shown
      cases shown
  | some event =>
      have own : event.id = id := by
        obtain ⟨row, _, same⟩ := Option.map_eq_some_iff.mp shown
        rw [← same]
        rfl
      refine Table.get?_foldl_insert_found ⟨event, ?_, own⟩ (fun other member same => ?_)
      · rw [mem_listedEvents, own]
        exact shown
      · have there := mem_listedEvents.mp member
        rw [same, shown] at there
        exact (Option.some.inj there).symm

/-! ### The copy of a member -/

namespace CalendarRun

open ScheduleNotice

/-- No notice overtakes another one that may be about the same event. -/
def InOrder : CalendarEvent → CalendarRun → Prop
  | .send index, run =>
      ∀ notice ∈ run.tasks[index]?, ∀ other ∈ run.tasks.take index, other.Apart notice
  | _, _ => True

/-- What the copy will be when everything has arrived. -/
def Synced (reader : Actor) (run : CalendarRun) : Prop :=
  effects (run.wire ++ run.tasks) run.copy.get? = shownEvent reader run.db

/-- A request makes its notices the last ones to be sent. -/
theorem Synced.request {reader : Actor} {run : CalendarRun} (synced : Synced reader run)
    (env : StoreEnv) (actor : Actor) (op : ScheduleOp) :
    Synced reader (handleSchedule reader env actor op run) := by
  unfold handleSchedule
  rcases performed : performSchedule env actor op run.db with ⟨outcome, db⟩
  cases outcome with
  | error message =>
      obtain rfl := atomic_performSchedule env actor op run.db message db performed
      exact synced
  | ok reply =>
      change effects (run.wire ++ (run.tasks ++ _)) run.copy.get? = _
      rw [← List.append_assoc, effects_append, synced]
      exact announced_effects reader performed

/-- The answer to `List` makes up the host's table, whatever else is under way. -/
theorem synced_answer {reader : Actor} {run next : CalendarRun}
    (happens : CalendarRun.step reader .answer run = some next) : Synced reader next := by
  simp only [CalendarRun.step, scheduleList_run] at happens
  rw [← Option.some.inj happens]
  change effects (run.wire ++ (run.tasks ++ _)) run.copy.get? = _
  rw [← List.append_assoc, effects_append]
  exact effect_listing reader run.db (effects (run.wire ++ run.tasks) run.copy.get?)

/-- The answer to a listing and all that is sent afterwards make up the host's table. -/
theorem Synced.step {reader : Actor} (event : CalendarEvent) (run next : CalendarRun)
    (synced : Synced reader run) (ordered : InOrder event run)
    (happens : CalendarRun.step reader event run = some next) : Synced reader next := by
  cases event with
  | request env actor op =>
      rw [← Option.some.inj happens]
      exact synced.request env actor op
  | answer => exact synced_answer happens
  | send index =>
      simp only [CalendarRun.step, Option.bind_eq_bind, Option.bind_eq_some_iff] at happens
      obtain ⟨notice, found, same⟩ := happens
      rw [← Option.some.inj same]
      obtain ⟨inside, there⟩ := List.getElem?_eq_some_iff.mp found
      have split : run.tasks = run.tasks.take index ++ notice :: run.tasks.drop (index + 1) := by
        rw [← there, List.getElem_cons_drop, List.take_append_drop]
      have erased : run.tasks.eraseIdx index =
          run.tasks.take index ++ run.tasks.drop (index + 1) := List.eraseIdx_eq_take_drop_succ _ _
      change effects ((run.wire ++ [notice]) ++ run.tasks.eraseIdx index) run.copy.get? = _
      rw [List.append_assoc, effects_append, erased]
      change effects (notice :: (run.tasks.take index ++ run.tasks.drop (index + 1))) _ = _
      rw [← effects_forward (ordered notice found), ← split, ← effects_append]
      exact synced
  | arrive =>
      cases queued : run.wire with
      | nil =>
          rw [CalendarRun.step, queued] at happens
          cases happens
      | cons notice rest =>
          rw [CalendarRun.step, queued] at happens
          rw [← Option.some.inj happens]
          change effects (rest ++ run.tasks) (applyNotice run.copy notice).get? = _
          rw [applyNotice_get?, ← effects_cons, ← List.cons_append, ← queued]
          exact synced

end CalendarRun

/-! ### The list that a member sees -/

theorem mem_cachedScheduleList {copy : CalendarCopy} {event : ScheduleEvent} :
    event ∈ cachedScheduleList copy ↔ ∃ id, copy.get? id = some event := by
  rw [cachedScheduleList, List.mem_insertionSort, List.mem_map]
  constructor
  · intro listed
    obtain ⟨entry, member, rfl⟩ := listed
    exact ⟨entry.1, Table.get?_eq_some.mpr member⟩
  · intro there
    obtain ⟨id, there⟩ := there
    exact ⟨(id, event), Table.get?_eq_some.mp there, rfl⟩

/-- A copy that knows of the events what is shown is listed as the host lists them. -/
theorem cachedScheduleList_eq {reader : Actor} {db : SharedDb} {copy : CalendarCopy}
    (same : copy.get? = shownEvent reader db) :
    cachedScheduleList copy = listedEvents reader db := by
  have own : ∀ {id event}, copy.get? id = some event → event.id = id := by
    intro id event there
    rw [same] at there
    obtain ⟨row, _, shown⟩ := Option.map_eq_some_iff.mp there
    rw [← shown]
    rfl
  have members : ∀ event, event ∈ cachedScheduleList copy ↔ event ∈ listedEvents reader db := by
    intro event
    rw [mem_cachedScheduleList, mem_listedEvents, ← same]
    constructor
    · intro there
      obtain ⟨id, there⟩ := there
      rw [own there]
      exact there
    · intro there
      exact ⟨event.id, there⟩
  have once : (copy.rows.map Prod.snd).Nodup := by
    refine List.Nodup.map_on (fun one member two member' alike => ?_)
      (List.Nodup.of_map Prod.fst copy.nodup)
    have first := own (Table.get?_eq_some.mpr member)
    have second := own (Table.get?_eq_some.mpr member')
    exact Prod.ext (first.symm.trans ((congrArg ScheduleEvent.id alike).trans second)) alike
  have perm : (cachedScheduleList copy).Perm (listedEvents reader db) := by
    refine (List.perm_ext_iff_of_nodup ?_ (listedEvents_nodup reader db)).mpr members
    exact (List.perm_insertionSort _ _).nodup_iff.mpr once
  refine perm.eq_of_pairwise (fun one two member member' first second => ?_)
    (List.pairwise_insertionSort _ _) (listedEvents_sorted reader db)
  have ids := ScheduleEvent.before_antisymm first second
  have shown := mem_listedEvents.mp ((members one).mp member)
  rw [ids, mem_listedEvents.mp member'] at shown
  exact (Option.some.inj shown).symm

namespace CalendarRun

instance (event : CalendarEvent) (run : CalendarRun) : Decidable (InOrder event run) := by
  cases event <;> unfold InOrder <;> infer_instance

def alice : Actor where
  memberId := some "a"
  name := "Alice"
  admin := false

def bob : Actor where
  memberId := some "b"
  name := "Bob"
  admin := false

def envAt (now : Nat) (newId : String) : StoreEnv where
  now := now
  newId := newId
  fts _ _ := false

/-- Two events and changes by different members while the first answer is under way; notices of
different events overtake each other. -/
def meetingsRun : List CalendarEvent :=
  [.answer, .request (envAt 100 "e1") alice (.create "x" "" 7 none false []), .send 0,
    .request (envAt 101 "e2") bob (.create "y" "" 5 none false []), .send 1, .arrive, .send 0,
    .request (envAt 102 "") alice (.update "e1" 1 "z" "" 9 none false []), .send 0,
    .request (envAt 103 "") bob (.delete "e2"), .send 0, .arrive, .arrive, .arrive, .arrive]

/-- A member that has seen nothing yet. -/
def newMember : CalendarRun where
  db := .empty
  tasks := []
  wire := []
  copy := Table.empty

theorem meetingsRun_isSome :
    (Runs.run (CalendarRun.step bob) meetingsRun newMember).isSome = true := by
  decide

/-- A task that sends a change only after the event has been removed leaves it in the copy. -/
example :
    (Runs.run (CalendarRun.step bob)
      [.answer, .send 0, .request (envAt 100 "e1") alice (.create "x" "" 7 none false []),
        .request (envAt 101 "") alice (.delete "e1"), .send 1, .send 0, .arrive, .arrive, .arrive]
      newMember).map (fun run =>
        (run.db.scheduleEvents.size, (cachedScheduleList run.copy).length)) = some (0, 1) := by
  decide

/-! ### What a change is saved over -/

/-- No new event gets this id. -/
def NotCreated (id : String) : CalendarEvent → CalendarRun → Prop
  | .request env _ (.create ..), _ => env.newId ≠ id
  | _, _ => True

/-- A row is there as it was, has been changed, or is gone. -/
def Since (id : String) (row : ScheduleRow) (db : SharedDb) : Prop :=
  ∀ now, db.scheduleEvents.get? id = some now → now = row ∨ row.revision < now.revision

theorem Since.perform {env : StoreEnv} {actor : Actor} {op : ScheduleOp} {reply : ScheduleReply}
    {id : String} {row : ScheduleRow} {run : CalendarRun} {db : SharedDb}
    (since : Since id row run.db) (fresh : NotCreated id (.request env actor op) run)
    (done : performSchedule env actor op run.db = (.ok reply, db)) : Since id row db := by
  intro current there
  cases op with
  | list =>
      obtain ⟨events, _, answered⟩ := ok_bind_query.mp done
      obtain ⟨_, rfl⟩ := ok_pure.mp answered
      exact since current there
  | create title note start stop allDay participants =>
      obtain ⟨event, created, _⟩ := ok_reply.mp done
      obtain ⟨_, _, _, others⟩ := scheduleCreate_done created
      rw [others id (Ne.symm fresh)] at there
      exact since current there
  | update other base title note start stop allDay participants =>
      obtain ⟨event, updated, _⟩ := ok_reply.mp done
      obtain ⟨old, changed, found, _, _, edited, _, after, others⟩ := scheduleUpdate_done updated
      by_cases same : id = other
      · rw [same, after] at there
        have revision : current.revision = old.revision + 1 := by
          rw [← Option.some.inj there, edited]
        rcases since old (same ▸ found) with unchanged | newer
        · exact .inr (by rw [revision, unchanged]; exact Nat.lt_succ_self _)
        · exact .inr (by rw [revision]; exact newer.trans (Nat.lt_succ_self _))
      · rw [others id same] at there
        exact since current there
  | delete other =>
      obtain ⟨⟨⟩, deleted, _⟩ := ok_reply.mp done
      rw [scheduleDelete_done deleted, Table.get?_erase] at there
      split at there
      · cases there
      · exact since current there

theorem Since.step {reader : Actor} {id : String} {row : ScheduleRow} (event : CalendarEvent)
    (run next : CalendarRun) (since : Since id row run.db) (fresh : NotCreated id event run)
    (happens : CalendarRun.step reader event run = some next) : Since id row next.db := by
  cases event with
  | request env actor op =>
      rw [← Option.some.inj happens]
      unfold handleSchedule
      rcases performed : performSchedule env actor op run.db with ⟨outcome, db⟩
      cases outcome with
      | error message =>
          obtain rfl := atomic_performSchedule env actor op run.db message db performed
          exact since
      | ok reply => exact since.perform fresh performed
  | answer =>
      simp only [CalendarRun.step, scheduleList_run] at happens
      rw [← Option.some.inj happens]
      exact since
  | send index =>
      simp only [CalendarRun.step, Option.bind_eq_bind, Option.bind_eq_some_iff] at happens
      obtain ⟨notice, _, same⟩ := happens
      rw [← Option.some.inj same]
      exact since
  | arrive =>
      cases queued : run.wire with
      | nil =>
          rw [CalendarRun.step, queued] at happens
          cases happens
      | cons notice rest =>
          rw [CalendarRun.step, queued] at happens
          rw [← Option.some.inj happens]
          exact since

instance (id : String) (event : CalendarEvent) (run : CalendarRun) :
    Decidable (NotCreated id event run) := by
  cases event with
  | request env actor op => cases op <;> unfold NotCreated <;> infer_instance
  | answer => exact isTrue trivial
  | send index => exact isTrue trivial
  | arrive => exact isTrue trivial

/-- An event that Alice has added. -/
def meetingRow : ScheduleRow :=
  newScheduleRow 100 alice "x" "" 7 none false []

/-- A member that has seen the calendar with it. -/
def meetingSeen : CalendarRun where
  db := { SharedDb.empty with scheduleEvents := Table.empty.insert "e1" meetingRow }
  tasks := []
  wire := []
  copy := Table.empty

/-- Bob adds another one in the meantime. -/
def meantimeRun : Option CalendarRun :=
  Runs.run (CalendarRun.step bob)
    [.request (envAt 101 "e2") bob (.create "y" "" 5 none false [])] meetingSeen

theorem meantimeRun_isSome : meantimeRun.isSome = true := by decide

end CalendarRun

end PeerCove
