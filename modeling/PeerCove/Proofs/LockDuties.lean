/-
Module: PeerCove.Proofs.LockDuties
Layer: Proofs
Purpose: What the end of an edit lock calls for, and that every turn of the service that drops no lock
  silently does or hands on these duties.
Trusted boundary: none
Main exports: LockDuty, endedLocks, ServiceTask.lockDue, ServiceTask.lockDone, ServiceTask.balanced
-/
import PeerCove.Proofs.ServiceEffects
import PeerCove.Proofs.ServiceRuns

namespace PeerCove

/-- What the end of a lock calls for. -/
inductive LockDuty where
  /-- A version of the memo, when its revision is not the one of the lock any more. -/
  | close (id : String) (since : Nat)
  /-- The announcement that nobody holds the lock. -/
  | announce (id : String)
  /-- The event of that announcement for one connection. -/
  | tell (connection : Connection) (id : String)
deriving DecidableEq

namespace LockDuty

def ofEvent (event : SharedMemoEvent) : List LockDuty :=
  event.unlocked?.toList.map .announce

def ofEventTo (event : SharedMemoEvent) (connection : Connection) : List LockDuty :=
  event.unlocked?.toList.map (.tell connection)

def ofSent (sent : Sent) : List LockDuty :=
  match sent.message with
  | .memoEvent event => ofEventTo event sent.connection
  | .memoResp _ _ => []

def ofEffect : Effect → List LockDuty
  | .snapshotAfterUnlock id since => [.close id since]
  | .announce event _ => ofEvent event
  | .send sent => ofSent sent
  | _ => []

/-- The duties of a task. -/
def ofTask : ServiceTask → List LockDuty
  | .effects _ rest => rest.flatMap ofEffect
  | .changedSend sent _ _ _ _ => ofSent sent
  | _ => []

/-- What the end of one lock calls for. -/
def ofEnd (ended : String × Nat) : List LockDuty :=
  [.close ended.1 ended.2, .announce ended.1]

end LockDuty

/-- Ids and revisions of the locks that their holders have lost. -/
def endedLocks (before after : Table String LockInfo) : List (String × Nat) :=
  (before.filter (fun id lock => (after.get? id).map LockInfo.key ≠ some lock.key)).rows.map
    (fun (id, lock) => (id, lock.revisionAtAcquire))

namespace ServiceTask

/-- The connections to be told when a turn announces the end of a lock. -/
def toTell (service : MemoService) : ServiceTask → List LockDuty
  | .effects _ (.announce event _ :: _) => service.memoConnections.flatMap (LockDuty.ofEventTo event)
  | _ => []

/-- The duties that arise in a turn. -/
def lockDue (env : ServiceEnv) (task : ServiceTask) (service : MemoService) : List LockDuty :=
  (endedLocks service.locks (advance env task service).1.locks).flatMap LockDuty.ofEnd ++
    task.toTell service

/-- The versions and announcements made in a turn. -/
def lockDone : ServiceTask → List LockDuty
  | .effects _ (.snapshotAfterUnlock id since :: _) => [.close id since]
  | .effects _ (.announce event _ :: _) => LockDuty.ofEvent event
  | _ => []

/-- Whether a turn of the task drops the locks that have expired. -/
def prunes : ServiceTask → Bool
  | .handle ⟨_, _, .update _ _ _ _⟩ => true
  | .handle ⟨_, _, .historyRestore _ _⟩ => true
  | .stored ⟨_, _, .list _⟩ (.memos _ _) _ _ _ => true
  | .stored ⟨_, _, .get _⟩ (.memo _) _ _ _ => true
  | .stored ⟨_, _, .update _ _ _ _⟩ (.memo _) _ _ _ => true
  | .stored ⟨_, _, .setPerms _ _ _ _⟩ (.memo _) _ _ _ => true
  | .stored ⟨_, _, .historyRestore _ _⟩ (.memo _) _ _ _ => true
  | .stored ⟨_, _, .acquireLock _⟩ (.memo memo) _ _ _ => memo.canEdit
  | .changedHolder _ _ _ => true
  | _ => false

/-- The memo that a request has put in the trash, and whose lock it then drops. -/
def trashes? : ServiceTask → Option String
  | .stored ⟨_, _, .trash id⟩ _ _ _ _ => some id
  | _ => none

/-- A lock that a turn of the task drops without a word. -/
def forgets (env : ServiceEnv) (service : MemoService) (task : ServiceTask) : Bool :=
  (task.prunes && service.locks.rows.any (fun entry => entry.2.expired env.instant)) ||
    task.trashes?.any (fun id => (service.locks.get? id).isSome)

end ServiceTask

/-! ### Locks that end -/

section Locks

variable {locks after : Table String LockInfo} {id key : String} {lock : LockInfo} {instant : Nat}

/-- No lock ends where every memo keeps its holder. -/
theorem endedLocks_nil
    (kept : ∀ id lock, locks.get? id = some lock →
      (after.get? id).map LockInfo.key = some lock.key) : endedLocks locks after = [] := by
  rw [endedLocks, List.map_eq_nil_iff]
  apply List.filter_eq_nil_iff.mpr
  intro entry member
  have same := kept entry.1 entry.2 (Table.get?_eq_some.mpr member)
  simp [same]

theorem endedLocks_self (locks : Table String LockInfo) : endedLocks locks locks = [] := by
  apply endedLocks_nil
  intro id lock held
  rw [held]
  rfl

/-- The locks that are dropped are those that end. -/
theorem endedLocks_dropLocks (which : LockInfo → Bool) (locks : Table String LockInfo) :
    endedLocks locks (dropLocks which locks) = locksWhere which locks := by
  rw [endedLocks, locksWhere]
  congr 1
  apply List.filter_congr
  intro entry member
  have held : locks.get? entry.1 = some entry.2 := Table.get?_eq_some.mpr member
  dsimp only
  rw [dropLocks, Table.get?_filter, held]
  cases chosen : which entry.2 with
  | true => simp [Option.filter, chosen]
  | false => simp [Option.filter, chosen]

/-- The lock of one memo ends when it is erased. -/
theorem endedLocks_erase (held : locks.get? id = some lock) :
    endedLocks locks (locks.erase id) = [(id, lock.revisionAtAcquire)] := by
  have one : (locks.filter (fun other row =>
      ((locks.erase id).get? other).map LockInfo.key ≠ some row.key)).rows = [(id, lock)] := by
    rw [← Table.rows_filter_key held]
    apply List.filter_congr
    intro entry member
    have there : locks.get? entry.1 = some entry.2 := Table.get?_eq_some.mpr member
    dsimp only
    rw [Table.get?_erase]
    by_cases same : entry.1 = id
    · simp [same]
    · simp [same, there]
  rw [endedLocks, one]
  rfl

theorem pruneExpired_fresh
    (fresh : locks.rows.any (fun entry => entry.2.expired instant) = false) :
    pruneExpired instant locks = locks := by
  apply Table.filter_eq_self
  intro entry member
  have alive := List.any_eq_false.mp fresh entry member
  simpa using alive

/-- Where nothing has expired, the checks and the taking of a lock leave every holder its lock. -/
theorem kept_checkUpdateLock {other : String}
    (fresh : locks.rows.any (fun entry => entry.2.expired instant) = false)
    (held : locks.get? id = some lock) :
    ((checkUpdateLock instant key other locks).2.get? id).map LockInfo.key = some lock.key := by
  unfold checkUpdateLock
  rw [pruneExpired_fresh fresh]
  split
  · rw [held]
    rfl
  · split
    · rw [Table.get?_update, held]
      split
      · rfl
      · rfl
    · rw [held]
      rfl

theorem kept_checkRestoreLock {other : String}
    (fresh : locks.rows.any (fun entry => entry.2.expired instant) = false)
    (held : locks.get? id = some lock) :
    ((checkRestoreLock instant key other locks).2.get? id).map LockInfo.key = some lock.key := by
  unfold checkRestoreLock
  rw [pruneExpired_fresh fresh]
  split
  · rw [held]
    rfl
  · split
    · rw [held]
      rfl
    · rw [held]
      rfl

theorem kept_takeLock {actor : Actor} {other : String} {memo : SharedMemoDetail}
    (fresh : locks.rows.any (fun entry => entry.2.expired instant) = false)
    (held : locks.get? id = some lock) :
    ((takeLock instant actor other memo locks).2.get? id).map LockInfo.key = some lock.key := by
  unfold takeLock
  rw [pruneExpired_fresh fresh]
  split
  · rename_i free
    rw [Table.get?_insert]
    split
    · rename_i same
      rw [same, free] at held
      cases held
    · rw [held]
      rfl
  · rename_i current there
    split
    · rename_i own
      rw [Table.get?_insert]
      split
      · rename_i same
        rw [same, there] at held
        cases held
        exact congrArg some own.symm
      · rw [held]
        rfl
    · rw [held]
      rfl

/-- A release ends the lock of which it tells the revision. -/
theorem endedLocks_releaseLock (key id : String) (locks : Table String LockInfo) :
    endedLocks locks (releaseLock key id locks).2 =
      (releaseLock key id locks).1.toList.map (fun since => (id, since)) := by
  unfold releaseLock
  split
  · exact endedLocks_self locks
  · rename_i lock held
    split
    · exact endedLocks_erase held
    · exact endedLocks_self locks

theorem erase_eq_self (free : locks.get? id = none) : locks.erase id = locks := by
  apply Table.filter_eq_self
  intro entry member
  have differ : entry.1 ≠ id := by
    intro same
    apply Table.get?_eq_none.mp free entry.2
    rw [← same]
    exact member
  simpa using differ

theorem endedLocks_forceUnlock (id : String) (locks : Table String LockInfo) :
    endedLocks locks (forceUnlock id locks).2 =
      (forceUnlock id locks).1.toList.map (fun since => (id, since)) := by
  change endedLocks locks (locks.erase id) =
    ((locks.get? id).map LockInfo.revisionAtAcquire).toList.map (fun since => (id, since))
  cases held : locks.get? id with
  | none =>
      rw [erase_eq_self held]
      exact endedLocks_self locks
  | some lock => exact endedLocks_erase held

end Locks

/-! ### Duties of the tasks that follow a turn -/

namespace ServiceTask

theorem duties_andThen (origin : Origin) (rest : List Effect) :
    (andThen origin rest).flatMap LockDuty.ofTask = rest.flatMap LockDuty.ofEffect := by
  cases rest with
  | nil => rfl
  | cons effect rest => exact List.append_nil _

theorem ofEffect_plain {effect : Effect} (plain : effect.plain = true) :
    LockDuty.ofEffect effect = [] := by
  cases effect with
  | snapshotAfterUnlock id since => cases plain
  | send sent => cases plain
  | announce event asOf =>
      have locked : event.unlocked? = none := Option.isNone_iff_eq_none.mp plain
      rw [LockDuty.ofEffect, LockDuty.ofEvent, locked]
      rfl
  | _ => rfl

/-- The duties of a task are those of its effects. -/
theorem ofTask_carries (task : ServiceTask) :
    LockDuty.ofTask task = task.carries.flatMap LockDuty.ofEffect := by
  cases task with
  | changedSend sent id config holder targets => exact (List.append_nil _).symm
  | _ => rfl

/-- Plain effects have no duties. -/
theorem Plain.duties {tasks : List ServiceTask} (plain : Plain tasks) :
    tasks.flatMap LockDuty.ofTask = [] := by
  have split : tasks.flatMap LockDuty.ofTask =
      (tasks.flatMap carries).flatMap LockDuty.ofEffect := by
    rw [List.flatMap_assoc]
    exact List.flatMap_congr (fun task _ => ofTask_carries task)
  rw [split]
  exact List.flatMap_eq_nil_iff.mpr (fun effect member => ofEffect_plain (plain effect member))

/-- A lock that ended has its duties in the rest of the request. -/
theorem duties_afterUnlock (request : Request) (id : String) (asOf : Nat) (ended : Option Nat) :
    (afterUnlock request id asOf ended).flatMap LockDuty.ofTask =
      ended.toList.flatMap (fun since => LockDuty.ofEnd (id, since)) := by
  cases ended with
  | none => rfl
  | some since => rfl

theorem duties_endingSnapshots (ended : List (String × Nat)) :
    (endingSnapshots ended).flatMap LockDuty.ofEffect =
      ended.flatMap (fun lock => [.close lock.1 lock.2]) := by
  rw [endingSnapshots, List.flatMap_map]
  rfl

theorem duties_endingAnnouncements (ended : List (String × Nat)) :
    (endingAnnouncements ended).flatMap LockDuty.ofEffect =
      ended.flatMap (fun lock => [.announce lock.1]) := by
  rw [endingAnnouncements, List.flatMap_assoc]
  rfl

/-- Versions and announcements of several locks are what the ends of these locks call for. -/
theorem duties_endings (ended : List (String × Nat)) :
    ((endingSnapshots ended).flatMap LockDuty.ofEffect ++
        (endingAnnouncements ended).flatMap LockDuty.ofEffect).Perm
      (ended.flatMap LockDuty.ofEnd) := by
  rw [duties_endingSnapshots, duties_endingAnnouncements]
  exact List.flatMap_append_perm ended _ _

/-- Messages with the same event for several connections. -/
theorem duties_toAll (service : MemoService) (event : SharedMemoEvent) (asOf : Nat) :
    ((service.toAll event asOf).map Effect.send).flatMap LockDuty.ofEffect =
      service.memoConnections.flatMap (LockDuty.ofEventTo event) := by
  rw [MemoService.toAll, List.map_map, List.flatMap_map]
  rfl

/-! ### One turn -/

section Turns

variable {env : ServiceEnv} {service : MemoService}

/-- The section that follows the database ends no lock, unless it forgets one. -/
theorem endedLocks_runStored {request : Request} {reply : SharedMemoReply}
    {merges : List SheetMerge} {cells : List SheetCell} {asOf : Nat}
    (openly : forgets env service (.stored request reply merges cells asOf) = false) :
    endedLocks service.locks (runStored env request reply merges cells asOf service).1.locks =
      [] := by
  rcases request with ⟨origin, actor, op⟩
  rcases Bool.or_eq_false_iff.mp openly with ⟨pruning, trashing⟩
  have fresh (prunes : prunes (.stored ⟨origin, actor, op⟩ reply merges cells asOf) = true) :
      service.locks.rows.any (fun entry => entry.2.expired env.instant) = false := by
    rw [prunes] at pruning
    exact pruning
  have pruned (prunes : prunes (.stored ⟨origin, actor, op⟩ reply merges cells asOf) = true) :
      endedLocks service.locks (pruneExpired env.instant service.locks) = [] := by
    rw [pruneExpired_fresh (fresh prunes)]
    exact endedLocks_self _
  unfold runStored
  split
  case h_1 query memos folders same =>
    cases same
    exact pruned rfl
  case h_2 id memo same =>
    cases same
    exact pruned rfl
  case h_3 id base title body memo same =>
    cases same
    exact pruned rfl
  case h_4 id everyone members groups memo same =>
    cases same
    exact pruned rfl
  case h_5 id hid memo same =>
    cases same
    exact pruned rfl
  case h_6 id memo same =>
    cases same
    change endedLocks service.locks (acquiredLocks env actor id memo service.locks) = []
    unfold acquiredLocks
    split
    · rename_i editable
      exact endedLocks_nil (fun other lock => kept_takeLock (fresh editable))
    · exact endedLocks_self _
  case h_7 answer id same =>
    cases same
    have free : service.locks.get? id = none := by simpa [trashes?] using trashing
    change endedLocks service.locks (service.locks.erase id) = []
    rw [erase_eq_self free]
    exact endedLocks_self _
  case h_8 => exact endedLocks_self _
  case h_9 => exact endedLocks_self _

/-- What a turn has to do with the duties of its task and those that arise in it. -/
def Balanced (env : ServiceEnv) (task : ServiceTask) (service : MemoService) : Prop :=
  (task.lockDone ++ task.sends.flatMap LockDuty.ofSent ++
      (advance env task service).2.flatMap LockDuty.ofTask).Perm
    (lockDue env task service ++ LockDuty.ofTask task)

/-- The duties that a turn itself fulfils, where it does not speak of locks. -/
theorem duties_quiet (service : MemoService) {task : ServiceTask} (quiet : task.speaks = false) :
    task.toTell service = [] ∧ task.lockDone = [] ∧
      task.sends.flatMap LockDuty.ofSent = LockDuty.ofTask task := by
  cases task with
  | effects origin rest => cases quiet
  | changedSend sent id config holder targets => exact ⟨rfl, rfl, List.append_nil _⟩
  | _ => exact ⟨rfl, rfl, rfl⟩

/-- Where no lock ends, and the tasks that follow carry plain effects only. -/
theorem balanced_quiet {task : ServiceTask} (quiet : task.speaks = false)
    (ended : endedLocks service.locks (advance env task service).1.locks = []) :
    Balanced env task service := by
  rcases duties_quiet service quiet with ⟨telling, done, silent⟩
  rw [Balanced, lockDue, ended, telling, done, silent, (plain_turn quiet).duties,
    List.append_nil]
  exact List.Perm.refl _

/-- Where locks end, their duties are handed to the tasks that follow. -/
theorem balanced_ended {task : ServiceTask} {after : Table String LockInfo}
    {spawned : List ServiceTask} {ended : List (String × Nat)}
    (locksAfter : (advance env task service).1.locks = after)
    (tasksAfter : (advance env task service).2 = spawned)
    (ends : endedLocks service.locks after = ended)
    (handed : (spawned.flatMap LockDuty.ofTask).Perm (ended.flatMap LockDuty.ofEnd))
    (telling : task.toTell service = []) (done : task.lockDone = []) (silent : task.sends = [])
    (free : LockDuty.ofTask task = []) :
    Balanced env task service := by
  rw [Balanced, lockDue, locksAfter, tasksAfter, ends, telling, done, silent, free,
    List.append_nil, List.append_nil]
  exact handed

/-- The duties of a lock that a request has ended. -/
theorem handed_afterUnlock (request : Request) (id : String) (asOf : Nat) (ended : Option Nat) :
    ((afterUnlock request id asOf ended).flatMap LockDuty.ofTask).Perm
      ((ended.toList.map (fun since => (id, since))).flatMap LockDuty.ofEnd) := by
  rw [duties_afterUnlock, List.flatMap_map]

/-- Which locks end in the first section of a request that does not speak of locks. -/
theorem endedLocks_runHandle {request : Request}
    (quiet : (ServiceTask.handle request).speaks = false)
    (openly : forgets env service (.handle request) = false) :
    endedLocks service.locks (runHandle env request service).1.locks = [] := by
  cases begins : beginsWithStore request.op with
  | true =>
      rw [runHandle_store request begins, runStore_locks]
      exact endedLocks_self _
  | false =>
      rcases request with ⟨origin, actor, op⟩
      rcases Bool.or_eq_false_iff.mp openly with ⟨pruning, _⟩
      cases op with
      | update id base title body =>
          exact endedLocks_nil (fun other lock => kept_checkUpdateLock pruning)
      | historyRestore id hid =>
          exact endedLocks_nil (fun other lock => kept_checkRestoreLock pruning)
      | releaseLock id => cases quiet
      | forceUnlock id => cases quiet
      | permGroupList => exact endedLocks_self _
      | sheet sheet =>
          cases sheet with
          | presence sheetId row col => exact endedLocks_self _
          | _ => cases begins
      | _ => cases begins

theorem balanced_handle {request : Request} (openly : forgets env service (.handle request) = false) :
    Balanced env (.handle request) service := by
  cases speaking : (ServiceTask.handle request).speaks with
  | false => exact balanced_quiet speaking (endedLocks_runHandle speaking openly)
  | true =>
      rcases request with ⟨origin, actor, op⟩
      cases op with
      | releaseLock id =>
          exact balanced_ended rfl rfl (endedLocks_releaseLock actor.key id service.locks)
            (handed_afterUnlock _ _ _ _) rfl rfl rfl rfl
      | forceUnlock id =>
          have locksAfter : (advance env (.handle ⟨origin, actor, .forceUnlock id⟩) service).1.locks =
              forcedLocks actor id service.locks := rfl
          have tasksAfter : (advance env (.handle ⟨origin, actor, .forceUnlock id⟩) service).2 =
              afterForce ⟨origin, actor, .forceUnlock id⟩ id service.sections service.locks := rfl
          cases admin : actor.isAdmin with
          | true =>
              rw [forcedLocks, if_pos admin] at locksAfter
              rw [afterForce, if_pos admin] at tasksAfter
              exact balanced_ended locksAfter tasksAfter (endedLocks_forceUnlock id service.locks)
                (handed_afterUnlock _ _ _ _) rfl rfl rfl rfl
          | false =>
              rw [forcedLocks, if_neg (by simp [admin])] at locksAfter
              rw [afterForce, if_neg (by simp [admin])] at tasksAfter
              exact balanced_ended locksAfter tasksAfter (endedLocks_self _)
                (List.Perm.refl []) rfl rfl rfl rfl
      | _ => cases speaking

/-- One effect does its own duties and leaves the rest. -/
theorem balanced_effect {origin : Origin} {effect : Effect} {rest : List Effect}
    (left : List LockDuty)
    (locksAfter : (advance env (.effects origin (effect :: rest)) service).1.locks = service.locks)
    (handed : (advance env (.effects origin (effect :: rest)) service).2.flatMap LockDuty.ofTask =
      left ++ rest.flatMap LockDuty.ofEffect)
    (balance : (lockDone (.effects origin (effect :: rest)) ++
        (sends (.effects origin (effect :: rest))).flatMap LockDuty.ofSent ++ left).Perm
      (toTell service (.effects origin (effect :: rest)) ++ LockDuty.ofEffect effect)) :
    Balanced env (.effects origin (effect :: rest)) service := by
  rw [Balanced, lockDue, locksAfter, endedLocks_self, handed, ← List.append_assoc]
  have whole := balance.append_right (rest.flatMap LockDuty.ofEffect)
  rw [List.append_assoc (toTell service _)] at whole
  exact whole

theorem duties_layoutEvent (sheetId : String) (db : SharedDb) :
    (layoutEvent sheetId db).flatMap LockDuty.ofEffect = [] :=
  List.flatMap_eq_nil_iff.mpr (fun effect member =>
    ofEffect_plain (plain_layoutEvent sheetId db effect member))

theorem balanced_effects (origin : Origin) (rest : List Effect) :
    Balanced env (.effects origin rest) service := by
  cases rest with
  | nil => exact balanced_ended rfl rfl (endedLocks_self _) (List.Perm.refl []) rfl rfl rfl rfl
  | cons effect rest =>
      have others := duties_andThen origin rest
      cases effect with
      | snapshotAfterUnlock id since => exact balanced_effect [] rfl others (List.Perm.refl _)
      | announce event asOf =>
          have told : ((service.toAll event asOf).map Effect.send ++ rest).flatMap
              LockDuty.ofEffect =
              service.memoConnections.flatMap (LockDuty.ofEventTo event) ++
                rest.flatMap LockDuty.ofEffect := by
            rw [List.flatMap_append, duties_toAll]
          refine balanced_effect (service.memoConnections.flatMap (LockDuty.ofEventTo event)) rfl
            ((duties_andThen origin _).trans told) ?_
          rw [List.append_assoc]
          exact List.perm_append_comm
      | send sent =>
          refine balanced_effect [] rfl others ?_
          change ([] ++ (LockDuty.ofSent sent ++ []) ++ []).Perm ([] ++ LockDuty.ofSent sent)
          rw [List.append_nil, List.append_nil]
      | reply reply asOf =>
          cases origin with
          | host => exact balanced_effect [] rfl others (List.Perm.refl [])
          | member connection seq => exact balanced_effect [] rfl others (List.Perm.refl [])
      | broadcastSheetLayout sheetId =>
          have quiet : (layoutEvent sheetId service.sharedStore ++ rest).flatMap
              LockDuty.ofEffect = rest.flatMap LockDuty.ofEffect := by
            rw [List.flatMap_append, duties_layoutEvent, List.nil_append]
          exact balanced_effect [] rfl ((duties_andThen origin _).trans quiet) (List.Perm.refl [])
      | broadcastSheetPresence sheetId senderKey =>
          have quiet : ((if service.memoConnections = [] then []
              else [Effect.presencePeers sheetId senderKey service.memoConnections]) ++
                rest).flatMap LockDuty.ofEffect = rest.flatMap LockDuty.ofEffect := by
            split
            · rfl
            · rfl
          exact balanced_effect [] rfl ((duties_andThen origin _).trans quiet) (List.Perm.refl [])
      | broadcastChanged id => exact balanced_effect [] rfl others (List.Perm.refl [])
      | broadcastFolders => exact balanced_effect [] rfl others (List.Perm.refl [])
      | broadcastNotice notice => exact balanced_effect [] rfl others (List.Perm.refl [])
      | presencePeers sheetId senderKey targets =>
          exact balanced_effect [] rfl others (List.Perm.refl [])
      | bump => exact balanced_effect [] rfl others (List.Perm.refl [])

/-- Events made from the configuration alone are about no lock. -/
theorem unlocked?_notice {config : Config} {ip : Ipv4Addr} {notice : Notice}
    {event : SharedMemoEvent} (made : notice.event config ip = some event) :
    event.unlocked? = none := by
  unfold Notice.event at made
  split at made
  · split at made
    · cases made
    · cases made
      rfl
  · split at made
    · cases made
    · cases made
      rfl
  · split at made
    · cases made
    · split at made
      · cases made
      · cases made
        rfl

theorem unlocked?_changedEvent {config : Config} {holder : Option String} {ip : Ipv4Addr}
    {id : String} {db : SharedDb} {event : SharedMemoEvent}
    (made : changedEvent config holder ip id db = some event) : event.unlocked? = none := by
  unfold changedEvent at made
  split at made
  · cases made
  · split at made
    · cases made
      rfl
    · cases made
      rfl
    · cases made

theorem duties_afterRead (id : String) (config : Config) (holder : Option String)
    (target : Connection) (targets : List Connection) (asOf : Nat) (db : SharedDb) :
    (afterRead id config holder target targets asOf
      (changedEvent config holder target.ip id db)).flatMap LockDuty.ofTask = [] := by
  cases made : changedEvent config holder target.ip id db with
  | none => exact (plain_nextTarget _ _ _ _).duties
  | some event =>
      change LockDuty.ofEventTo event target ++ [] = []
      rw [LockDuty.ofEventTo, unlocked?_changedEvent made]
      rfl

/-- Effects none of which has a duty. -/
theorem duties_silent (origin : Origin) {rest : List Effect}
    (silent : ∀ effect ∈ rest, LockDuty.ofEffect effect = []) :
    (andThen origin rest).flatMap LockDuty.ofTask = [] := by
  rw [duties_andThen]
  exact List.flatMap_eq_nil_iff.mpr silent

theorem silent_notices {config : Config} {notice : Notice} {targets : List Connection}
    {asOf : Nat} : ∀ effect ∈ targets.filterMap (fun target =>
      (notice.event config target.ip).map (fun event =>
        Effect.send { connection := target, message := .memoEvent event, asOf := asOf })),
      LockDuty.ofEffect effect = [] := by
  intro effect member
  rcases List.mem_filterMap.mp member with ⟨target, _, made⟩
  rcases Option.map_eq_some_iff.mp made with ⟨event, shown, rfl⟩
  change (event.unlocked?.toList).map _ = []
  rw [unlocked?_notice shown]
  rfl

theorem silent_folders {folders : List MemoFolder} {targets : List Connection} {asOf : Nat} :
    ∀ effect ∈ targets.map (fun target => Effect.send
      { connection := target, message := .memoEvent (.folders folders), asOf := asOf }),
      LockDuty.ofEffect effect = [] := by
  intro effect member
  rcases List.mem_map.mp member with ⟨target, _, rfl⟩
  rfl

/-- Every turn that forgets no lock does or hands on its duties. -/
theorem balanced (task : ServiceTask) (openly : forgets env service task = false) :
    Balanced env task service := by
  cases task with
  | handle request => exact balanced_handle openly
  | stored request reply merges cells asOf => exact balanced_quiet rfl (endedLocks_runStored openly)
  | effects origin rest => exact balanced_effects origin rest
  | sweepExpiredLocks =>
      have handed (ended : List (String × Nat)) :
          ((andThen .host (endingSnapshots ended) ++
            andThen .host (endingAnnouncements ended)).flatMap LockDuty.ofTask).Perm
              (ended.flatMap LockDuty.ofEnd) := by
        rw [List.flatMap_append, duties_andThen, duties_andThen]
        exact duties_endings ended
      exact balanced_ended rfl rfl
        (endedLocks_dropLocks (LockInfo.expired · env.instant) service.locks) (handed _)
        rfl rfl rfl rfl
  | releaseLocks key =>
      have handed (ended : List (String × Nat)) :
          ((andThen .host (endingSnapshots ended ++
            endingAnnouncements ended)).flatMap LockDuty.ofTask).Perm
              (ended.flatMap LockDuty.ofEnd) := by
        rw [duties_andThen, List.flatMap_append]
        exact duties_endings ended
      exact balanced_ended rfl rfl
        (endedLocks_dropLocks (fun lock => lock.key = key) service.locks) (handed _)
        rfl rfl rfl rfl
  | changedHolder id config targets =>
      rcases Bool.or_eq_false_iff.mp openly with ⟨pruning, _⟩
      have same : pruneExpired env.instant service.locks = service.locks :=
        pruneExpired_fresh pruning
      exact balanced_quiet rfl ((congrArg (endedLocks service.locks) same).trans
        (endedLocks_self _))
  | changedRead id config holder target targets =>
      exact balanced_ended rfl rfl (endedLocks_self _)
        (List.Perm.of_eq (duties_afterRead _ _ _ _ _ _ _)) rfl rfl rfl rfl
  | noticeConfig notice targets =>
      exact balanced_ended rfl rfl (endedLocks_self _)
        (List.Perm.of_eq (duties_silent _ silent_notices)) rfl rfl rfl rfl
  | foldersRead targets =>
      exact balanced_ended rfl rfl (endedLocks_self _)
        (List.Perm.of_eq (duties_silent _ silent_folders)) rfl rfl rfl rfl
  | _ => exact balanced_quiet rfl (endedLocks_self _)

end Turns

end ServiceTask

end PeerCove
