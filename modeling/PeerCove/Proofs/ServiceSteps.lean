/-
Module: PeerCove.Proofs.ServiceSteps
Layer: Proofs
Purpose: What one turn of the memo service can do to the database and to the edit locks: one case for
  each kind of change, from which the invariants of runs follow.
Trusted boundary: none
Main exports: ServiceTask.performs?, StoreTurn, storeTurn, LockTurn, lockTurn, content_turn
-/
import PeerCove.Host.ServiceTasks
import PeerCove.Proofs.StoreChanges

namespace PeerCove

open Stateful

namespace ServiceTask

variable {env : ServiceEnv} {service : MemoService}

/-- The operation on the database that is the next section of a task, and its actor. -/
def performs? : ServiceTask → Option (Actor × SharedMemoOp)
  | .handle request =>
      if beginsWithStore request.op then some (request.actor, request.op) else none
  | .store request => some (request.actor, request.op)
  | .abandoned actor op => some (actor, op)
  | _ => none

/-! ### The database -/

theorem performed_ok {env : StoreEnv} {actor : Actor} {op : SharedMemoOp} {reply : SharedMemoReply}
    {merges : List SheetMerge} {cells : List SheetCell} {db db' : SharedDb}
    (done : performed env actor op db = (.ok (reply, merges, cells), db')) :
    SharedStore.perform env actor op db = (.ok reply, db') := by
  cases op with
  | sheet sheet =>
      rcases ok_reply.mp done with ⟨⟨answer, ranges, changed⟩, performed, same⟩
      cases same
      exact ok_bind.mpr ⟨_, _, performed, rfl⟩
  | _ =>
      rcases ok_reply.mp done with ⟨answer, performed, same⟩
      cases same
      exact performed

/-- What is reported of sheets changes nothing about the database. -/
theorem performed_state (env : StoreEnv) (actor : Actor) (op : SharedMemoOp) (db : SharedDb) :
    (performed env actor op db).2 = (SharedStore.perform env actor op db).2 := by
  cases op with
  | sheet sheet =>
      change ((SharedStore.performSheet env actor sheet >>= fun result =>
        pure (SharedMemoReply.sheet result.1, result.2.1, result.2.2)) db).2 =
          ((SharedStore.performSheet env actor sheet >>= fun result =>
            pure (SharedMemoReply.sheet result.1)) db).2
      simp only [bind]
      cases SharedStore.performSheet env actor sheet db with
      | mk outcome after =>
          cases outcome with
          | ok result => rfl
          | error error => rfl
  | _ =>
      change ((SharedStore.perform env actor _ >>= fun reply => pure (reply, [], [])) db).2 = _
      simp only [bind]
      cases SharedStore.perform env actor _ db with
      | mk outcome after =>
          cases outcome with
          | ok result => rfl
          | error error => rfl

theorem runStore_sharedStore (env : ServiceEnv) (request : Request) (service : MemoService) :
    (runStore env request service).1.sharedStore =
      (SharedStore.perform env.toStoreEnv request.actor request.op service.sharedStore).2 :=
  performed_state _ _ _ _

/-- What a turn does to the database. -/
inductive StoreTurn (env : ServiceEnv) (db : SharedDb) : ServiceTask → SharedDb → Prop where
  | still (task : ServiceTask) (idle : task.performs? = none) : StoreTurn env db task db
  | request (task : ServiceTask) (actor : Actor) (op : SharedMemoOp)
      (performs : task.performs? = some (actor, op)) :
      StoreTurn env db task (SharedStore.perform env.toStoreEnv actor op db).2
  | purge : StoreTurn env db .maintain (SharedStore.purgeExpired env.now db).2
  | snapshot (origin : Origin) (id : String) (revision : Nat) (rest : List Effect) :
      StoreTurn env db (.effects origin (.snapshotAfterUnlock id revision :: rest))
        (SharedStore.snapshotIfRevisionChanged env.now id revision db).2

theorem runStore_locks (request : Request) :
    (runStore env request service).1.locks = service.locks := rfl

theorem runHandle_store (request : Request) (begins : beginsWithStore request.op = true) :
    runHandle env request service = runStore env request service := by
  obtain ⟨origin, actor, op⟩ := request
  cases op with
  | sheet sheet =>
      cases sheet with
      | presence sheetId row col => cases begins
      | _ => rfl
  | update id base title body => cases begins
  | historyRestore id hid => cases begins
  | releaseLock id => cases begins
  | forceUnlock id => cases begins
  | permGroupList => cases begins
  | _ => rfl

/-- A first section that is not on the database leaves it alone. -/
theorem runHandle_idle (request : Request) (begins : beginsWithStore request.op = false) :
    (runHandle env request service).1.sharedStore = service.sharedStore := by
  rcases request with ⟨origin, actor, op⟩
  cases op with
  | sheet sheet =>
      cases sheet with
      | presence sheetId row col => rfl
      | _ => cases begins
  | update id base title body => rfl
  | historyRestore id hid => rfl
  | releaseLock id => rfl
  | forceUnlock id => rfl
  | permGroupList => rfl
  | _ => cases begins

theorem runStored_sharedStore (request : Request) (reply : SharedMemoReply)
    (merges : List SheetMerge) (cells : List SheetCell) (asOf : Nat) :
    (runStored env request reply merges cells asOf service).1.sharedStore =
      service.sharedStore := by
  unfold runStored
  split
  all_goals rfl

/-- Every turn does one of these things to the database. -/
theorem storeTurn (env : ServiceEnv) (task : ServiceTask) (service : MemoService) :
    StoreTurn env service.sharedStore task (advance env task service).1.sharedStore := by
  cases task with
  | handle request =>
      change StoreTurn env service.sharedStore _ (runHandle env request service).1.sharedStore
      cases begins : beginsWithStore request.op with
      | true =>
          rw [runHandle_store request begins, runStore_sharedStore]
          exact .request _ request.actor request.op (if_pos begins)
      | false =>
          rw [runHandle_idle request begins]
          exact .still _ (if_neg (by simp [begins]))
  | store request =>
      change StoreTurn env service.sharedStore _ (runStore env request service).1.sharedStore
      rw [runStore_sharedStore]
      exact .request _ request.actor request.op rfl
  | abandoned actor op =>
      change StoreTurn env service.sharedStore _
        (performed env.toStoreEnv actor op service.sharedStore).2
      rw [performed_state]
      exact .request _ actor op rfl
  | maintain => exact .purge
  | stored request reply merges cells asOf =>
      change StoreTurn env service.sharedStore _
        (runStored env request reply merges cells asOf service).1.sharedStore
      rw [runStored_sharedStore]
      exact .still _ rfl
  | effects origin rest =>
      cases rest with
      | nil => exact .still _ rfl
      | cons effect rest =>
          cases effect with
          | snapshotAfterUnlock id revision => exact .snapshot origin id revision rest
          | _ => exact .still _ rfl
  | _ => exact .still _ rfl

/-- Deletions do not fill a memo. -/
theorem content_purge_none (now : Nat) (ids : List String) {db : SharedDb} {id : String}
    (gone : db.content id = none) :
    (ids.foldl (fun db id => db.purgeMemo id now) db).content id = none := by
  induction ids generalizing db with
  | nil => exact gone
  | cons first ids ih =>
      apply ih
      rw [SharedStore.content_purgeMemo, gone, ite_self]

/-- Deleting memos one after the other makes one move of the content of each. -/
theorem move_purge (now : Nat) (ids : List String) (db : SharedDb) (id : String) :
    Versioned.Move (db.content id)
      ((ids.foldl (fun db id => db.purgeMemo id now) db).content id) := by
  induction ids generalizing db with
  | nil => exact .stay _
  | cons first ids ih =>
      have rest := ih (db.purgeMemo first now)
      rw [SharedStore.content_purgeMemo] at rest
      rw [List.foldl_cons]
      by_cases same : id = first
      · have gone : (db.purgeMemo first now).content id = none := by
          rw [SharedStore.content_purgeMemo, if_pos same]
        rw [content_purge_none now ids gone]
        cases db.content id with
        | none => exact .stay none
        | some content => exact .delete content.1 content.2
      · rw [if_neg same] at rest
        exact rest

/-- A turn makes one move of the content of each memo. -/
theorem content_turn (id : String) (env : ServiceEnv) (task : ServiceTask)
    (service : MemoService) :
    Versioned.Move (service.sharedStore.content id)
      ((advance env task service).1.sharedStore.content id) := by
  have turn := storeTurn env task service
  generalize (advance env task service).1.sharedStore = after at turn
  cases turn with
  | still task idle => exact .stay _
  | request task actor op performs =>
      exact (SharedStore.perform_change env.toStoreEnv actor op service.sharedStore).move id
  | purge => exact move_purge env.now _ service.sharedStore id
  | snapshot origin memoId revision rest =>
      have same : (SharedStore.snapshotIfRevisionChanged env.now memoId revision
          service.sharedStore).2.memoTables = service.sharedStore.memoTables := by
        cases present : service.sharedStore.row? memoId with
        | none =>
            have failed : SharedStore.snapshotIfRevisionChanged env.now memoId revision
                service.sharedStore = (.error SharedStore.NOT_FOUND, service.sharedStore) := by
              simp [SharedStore.snapshotIfRevisionChanged, SharedStore.row, bind, query, expect,
                present]
            rw [failed]
        | some row =>
            rw [SharedStore.snapshotIfRevisionChanged_run present]
            dsimp only
            split
            · rfl
            · rfl
      rw [SharedDb.content_congr same]
      exact .stay _

/-! ### Edit locks -/

section Locks

variable {locks : Table String LockInfo} {id key : String} {lock : LockInfo} {instant : Nat}

theorem get?_pruneExpired (held : (pruneExpired instant locks).get? id = some lock) :
    locks.get? id = some lock ∧ lock.expired instant = false := by
  rw [pruneExpired, Table.get?_filter, Option.filter_eq_some_iff] at held
  exact ⟨held.1, by simpa using held.2⟩

theorem get?_dropLocks {which : LockInfo → Bool} (held : (dropLocks which locks).get? id = some lock) :
    locks.get? id = some lock ∧ which lock = false := by
  rw [dropLocks, Table.get?_filter, Option.filter_eq_some_iff] at held
  exact ⟨held.1, by simpa using held.2⟩

theorem get?_of_erase {other : String} (held : (locks.erase other).get? id = some lock) :
    locks.get? id = some lock := by
  rw [Table.get?_erase] at held
  by_cases same : id = other
  · rw [if_pos same] at held
    cases held
  · rw [if_neg same] at held
    exact held

/-- The check of `Update` changes the time of the last activity only. -/
theorem get?_checkUpdateLock {other : String}
    (held : (checkUpdateLock instant key other locks).2.get? id = some lock) :
    ∃ earlier, locks.get? id = some earlier ∧ earlier.key = lock.key ∧
      earlier.revisionAtAcquire = lock.revisionAtAcquire := by
  unfold checkUpdateLock at held
  split at held
  · exact ⟨lock, (get?_pruneExpired held).1, rfl, rfl⟩
  · split at held
    · rw [Table.get?_update] at held
      by_cases same : id = other
      · rw [if_pos same] at held
        rcases Option.map_eq_some_iff.mp held with ⟨earlier, before, rfl⟩
        exact ⟨earlier, (get?_pruneExpired before).1, rfl, rfl⟩
      · rw [if_neg same] at held
        exact ⟨lock, (get?_pruneExpired held).1, rfl, rfl⟩
    · exact ⟨lock, (get?_pruneExpired held).1, rfl, rfl⟩

/-- Who passes the check of `Update` holds the lock. -/
theorem checkUpdateLock_ok (passed : (checkUpdateLock instant key id locks).1 = .ok ()) :
    ∃ lock, locks.get? id = some lock ∧ lock.key = key := by
  unfold checkUpdateLock at passed
  split at passed
  · cases passed
  · rename_i lock held
    split at passed
    · rename_i own
      exact ⟨lock, (get?_pruneExpired held).1, own⟩
    · cases passed

theorem get?_checkRestoreLock {other : String}
    (held : (checkRestoreLock instant key other locks).2.get? id = some lock) :
    locks.get? id = some lock := by
  unfold checkRestoreLock at held
  split at held
  · exact (get?_pruneExpired held).1
  · split at held
    · exact (get?_pruneExpired held).1
    · exact (get?_pruneExpired held).1

theorem get?_releaseLock {other : String}
    (held : (releaseLock key other locks).2.get? id = some lock) : locks.get? id = some lock := by
  unfold releaseLock at held
  split at held
  · exact held
  · split at held
    · exact get?_of_erase held
    · exact held

/-- A new lock is the actor's own, on the memo it asked for; other locks stay. -/
theorem get?_takeLock {actor : Actor} {other : String} {memo : SharedMemoDetail}
    (held : (takeLock instant actor other memo locks).2.get? id = some lock) :
    locks.get? id = some lock ∨
      (id = other ∧ (takeLock instant actor other memo locks).1 = .ok () ∧
        lock = newLock instant actor memo) := by
  have inserted : ((pruneExpired instant locks).insert other (newLock instant actor memo)).get? id =
      some lock → locks.get? id = some lock ∨ (id = other ∧ lock = newLock instant actor memo) := by
    intro held
    rw [Table.get?_insert] at held
    by_cases same : id = other
    · rw [if_pos same] at held
      exact .inr ⟨same, (Option.some.inj held).symm⟩
    · rw [if_neg same] at held
      exact .inl (get?_pruneExpired held).1
  unfold takeLock at held ⊢
  split at held
  · rcases inserted held with stays | ⟨same, new⟩
    · exact .inl stays
    · exact .inr ⟨same, rfl, new⟩
  · split at held
    · rename_i own
      rcases inserted held with stays | ⟨same, new⟩
      · exact .inl stays
      · exact .inr ⟨same, by rw [if_pos own], new⟩
    · exact .inl (get?_pruneExpired held).1

end Locks

/-- The memo whose lock is given to an actor in this turn, and the key of the actor. -/
def takes? (env : ServiceEnv) (service : MemoService) : ServiceTask → Option (String × String)
  | .stored ⟨_, actor, .acquireLock id⟩ (.memo memo) _ _ _ =>
      if memo.canEdit ∧ (takeLock env.instant actor id memo service.locks).1 = .ok () then
        some (id, actor.key)
      else none
  | _ => none

/-- A turn that gives the lock of a memo to an actor. -/
inductive Takes (env : ServiceEnv) (service : MemoService) (id : String) :
    ServiceTask → LockInfo → Prop where
  | acquire (origin : Origin) (actor : Actor) (memo : SharedMemoDetail) (merges : List SheetMerge)
      (cells : List SheetCell) (asOf : Nat) (editable : memo.canEdit = true)
      (taken : (takeLock env.instant actor id memo service.locks).1 = .ok ()) :
      Takes env service id (.stored ⟨origin, actor, .acquireLock id⟩ (.memo memo) merges cells asOf)
        (newLock env.instant actor memo)

theorem Takes.takes? {env : ServiceEnv} {service : MemoService} {id : String} {task : ServiceTask}
    {lock : LockInfo} (takes : Takes env service id task lock) :
    task.takes? env service = some (id, lock.key) := by
  cases takes with
  | acquire origin actor memo merges cells asOf editable taken => exact if_pos ⟨editable, taken⟩

/-- After a turn a memo has the lock it had before, but for its activity, unless the turn takes it. -/
theorem lock_turn {env : ServiceEnv} {task : ServiceTask} {service : MemoService} {id : String}
    {lock : LockInfo} (held : (advance env task service).1.locks.get? id = some lock) :
    (∃ earlier, service.locks.get? id = some earlier ∧ earlier.key = lock.key ∧
      earlier.revisionAtAcquire = lock.revisionAtAcquire) ∨ Takes env service id task lock := by
  have kept (before : service.locks.get? id = some lock) :
      ∃ earlier, service.locks.get? id = some earlier ∧ earlier.key = lock.key ∧
        earlier.revisionAtAcquire = lock.revisionAtAcquire :=
    ⟨lock, before, rfl, rfl⟩
  cases task with
  | handle request =>
      change (runHandle env request service).1.locks.get? id = some lock at held
      cases begins : beginsWithStore request.op with
      | true =>
          rw [runHandle_store request begins, runStore_locks] at held
          exact .inl (kept held)
      | false =>
          rcases request with ⟨origin, actor, op⟩
          cases op with
          | update other base title body => exact .inl (get?_checkUpdateLock held)
          | historyRestore other hid => exact .inl (kept (get?_checkRestoreLock held))
          | releaseLock other => exact .inl (kept (get?_releaseLock held))
          | forceUnlock other =>
              change (forcedLocks actor other service.locks).get? id = some lock at held
              unfold forcedLocks at held
              split at held
              · exact .inl (kept (get?_of_erase held))
              · exact .inl (kept held)
          | permGroupList => exact .inl (kept held)
          | sheet sheet =>
              cases sheet with
              | presence sheetId row col => exact .inl (kept held)
              | _ => cases begins
          | _ => cases begins
  | stored request reply merges cells asOf =>
      rcases request with ⟨origin, actor, op⟩
      change (runStored env ⟨origin, actor, op⟩ reply merges cells asOf service).1.locks.get? id =
        some lock at held
      unfold runStored at held
      split at held
      · exact .inl (kept (get?_pruneExpired held).1)
      · exact .inl (kept (get?_pruneExpired held).1)
      · exact .inl (kept (get?_pruneExpired held).1)
      · exact .inl (kept (get?_pruneExpired held).1)
      · exact .inl (kept (get?_pruneExpired held).1)
      · rename_i other memo same
        cases same
        change (acquiredLocks env actor other memo service.locks).get? id = some lock at held
        unfold acquiredLocks at held
        split at held
        · rename_i editable
          rcases get?_takeLock held with before | ⟨rfl, taken, rfl⟩
          · exact .inl (kept before)
          · exact .inr (.acquire origin actor memo merges cells asOf editable taken)
        · exact .inl (kept held)
      · exact .inl (kept (get?_of_erase held))
      · exact .inl (kept held)
      · exact .inl (kept held)
  | sweepExpiredLocks => exact .inl (kept (get?_dropLocks held).1)
  | releaseLocks key => exact .inl (kept (get?_dropLocks held).1)
  | changedHolder other config targets => exact .inl (kept (get?_pruneExpired held).1)
  | effects origin rest =>
      cases rest with
      | nil => exact .inl (kept held)
      | cons effect rest =>
          cases effect with
          | _ => exact .inl (kept held)
  | _ => exact .inl (kept held)

/-- After a turn a memo has the holder it had before, unless the turn takes the lock. -/
theorem holder_turn {env : ServiceEnv} {task : ServiceTask} {service : MemoService} {id : String}
    {lock : LockInfo} (held : (advance env task service).1.locks.get? id = some lock) :
    (∃ earlier, service.locks.get? id = some earlier ∧ earlier.key = lock.key) ∨
      task.takes? env service = some (id, lock.key) := by
  rcases lock_turn held with ⟨earlier, before, same, _⟩ | takes
  · exact .inl ⟨earlier, before, same⟩
  · exact .inr takes.takes?

/-! ### Which tasks follow -/

/-- A request before or right after its section on the database. -/
def working : ServiceTask → Bool
  | .handle _ | .store _ | .stored .. | .abandoned .. => true
  | _ => false

/-- Tasks none of which is such a request. -/
def Idle (tasks : List ServiceTask) : Prop :=
  ∀ task ∈ tasks, task.working = false

theorem idle_nil : Idle [] := by
  intro task member
  cases member

theorem idle_single {task : ServiceTask} (idle : task.working = false) : Idle [task] := by
  intro other member
  rw [List.mem_singleton.mp member]
  exact idle

theorem Idle.cons {task : ServiceTask} {tasks : List ServiceTask} (idle : task.working = false)
    (rest : Idle tasks) : Idle (task :: tasks) := by
  intro other member
  rcases List.mem_cons.mp member with rfl | member
  · exact idle
  · exact rest other member

theorem Idle.append {one two : List ServiceTask} (first : Idle one) (second : Idle two) :
    Idle (one ++ two) := by
  intro task member
  rcases List.mem_append.mp member with member | member
  · exact first task member
  · exact second task member

theorem idle_ite {condition : Prop} [Decidable condition] {one two : List ServiceTask}
    (first : Idle one) (second : Idle two) : Idle (if condition then one else two) := by
  split
  · exact first
  · exact second

theorem idle_andThen (origin : Origin) (rest : List Effect) : Idle (andThen origin rest) := by
  cases rest with
  | nil => exact idle_nil
  | cons effect rest => exact idle_single rfl

theorem idle_nextTarget (id : String) (config : Config) (holder : Option String)
    (targets : List Connection) : Idle (nextTarget id config holder targets) := by
  cases targets with
  | nil => exact idle_nil
  | cons target targets => exact idle_single rfl

theorem idle_withGroupNames (request : Request) (memo : SharedMemoDetail) (asOf : Nat) :
    Idle (withGroupNames request memo asOf) :=
  idle_ite (idle_single rfl) (idle_single rfl)

theorem idle_afterUnlock (request : Request) (id : String) (asOf : Nat) (ended : Option Nat) :
    Idle (afterUnlock request id asOf ended) := by
  cases ended with
  | none => exact idle_single rfl
  | some revision => exact idle_single rfl

theorem idle_runStored (request : Request) (reply : SharedMemoReply) (merges : List SheetMerge)
    (cells : List SheetCell) (asOf : Nat) :
    Idle (runStored env request reply merges cells asOf service).2 := by
  unfold runStored
  split
  · exact idle_single rfl
  · exact idle_withGroupNames _ _ _
  · exact idle_withGroupNames _ _ _
  · exact idle_withGroupNames _ _ _
  · exact idle_withGroupNames _ _ _
  · dsimp only [afterAcquire]
    split
    · split
      · exact idle_withGroupNames _ _ _
      · exact idle_single rfl
    · exact idle_single rfl
  · exact idle_single rfl
  · exact idle_single rfl
  · exact idle_single rfl

theorem idle_runEffect (origin : Origin) (rest : List Effect) (effect : Effect) :
    Idle (runEffect env origin rest service effect).2 := by
  cases effect with
  | broadcastChanged id => exact Idle.cons rfl (idle_andThen origin rest)
  | broadcastFolders => exact Idle.cons rfl (idle_andThen origin rest)
  | broadcastNotice notice => exact Idle.cons rfl (idle_andThen origin rest)
  | presencePeers sheetId senderKey targets => exact Idle.cons rfl (idle_andThen origin rest)
  | _ => exact idle_andThen origin _

/-- How a request comes to its section on the database, and past it. -/
inductive Follows (env : ServiceEnv) (service : MemoService) : ServiceTask → ServiceTask → Prop
  | member (connection : Connection) (seq : Nat) (op : SharedMemoOp) (actor : Actor)
      (known : memberActor service.config connection.ip = .ok actor) :
      Follows env service (.handleForMember connection seq op)
        (.handle ⟨.member connection seq, actor, op⟩)
  | host (op : SharedMemoOp) :
      Follows env service (.handleForHost op) (.handle ⟨.host, hostActor service.config, op⟩)
  | update (origin : Origin) (actor : Actor) (id : String) (base : Nat) (title body : String)
      (passed : (checkUpdateLock env.instant actor.key id service.locks).1 = .ok ()) :
      Follows env service (.handle ⟨origin, actor, .update id base title body⟩)
        (.store ⟨origin, actor, .update id base title body⟩)
  | historyRestore (origin : Origin) (actor : Actor) (id : String) (hid : Nat)
      (passed : (checkRestoreLock env.instant actor.key id service.locks).1 = .ok ()) :
      Follows env service (.handle ⟨origin, actor, .historyRestore id hid⟩)
        (.store ⟨origin, actor, .historyRestore id hid⟩)
  | stored (task : ServiceTask) (request : Request) (reply : SharedMemoReply)
      (merges : List SheetMerge) (cells : List SheetCell)
      (performs : task.performs? = some (request.actor, request.op))
      (done : SharedStore.perform env.toStoreEnv request.actor request.op service.sharedStore =
        (.ok reply, (advance env task service).1.sharedStore)) :
      Follows env service task (.stored request reply merges cells service.sections)

theorem follows_runStore {task next : ServiceTask} {request : Request}
    (performs : task.performs? = some (request.actor, request.op))
    (same : (advance env task service).1.sharedStore =
      (SharedStore.perform env.toStoreEnv request.actor request.op service.sharedStore).2)
    (spawned : next ∈ (runStore env request service).2) (works : next.working = true) :
    Follows env service task next := by
  change next ∈ afterStore request service.sections
    (performed env.toStoreEnv request.actor request.op service.sharedStore).1 at spawned
  cases outcome : performed env.toStoreEnv request.actor request.op service.sharedStore with
  | mk result after =>
      rw [outcome] at spawned
      cases result with
      | error error =>
          rw [List.mem_singleton.mp spawned] at works
          cases works
      | ok result =>
          rcases result with ⟨reply, merges, cells⟩
          have done := performed_ok outcome
          rw [done] at same
          rw [List.mem_singleton.mp spawned]
          exact .stored task request reply merges cells performs (by rw [same]; exact done)

theorem follows_runHandle {request : Request} {next : ServiceTask}
    (spawned : next ∈ (runHandle env request service).2) (works : next.working = true) :
    Follows env service (.handle request) next := by
  have never {tasks : List ServiceTask} (idle : Idle tasks) (member : next ∈ tasks) :
      Follows env service (.handle request) next := by
    rw [idle next member] at works
    cases works
  cases begins : beginsWithStore request.op with
  | true =>
      have after : (advance env (.handle request) service).1.sharedStore =
          (SharedStore.perform env.toStoreEnv request.actor request.op service.sharedStore).2 := by
        change (runHandle env request service).1.sharedStore = _
        rw [runHandle_store request begins, runStore_sharedStore]
      rw [runHandle_store request begins] at spawned
      exact follows_runStore (if_pos begins) after spawned works
  | false =>
      rcases request with ⟨origin, actor, op⟩
      cases op with
      | update id base title body =>
          change next ∈ afterCheck _ _ (checkUpdateLock env.instant actor.key id service.locks).1
            at spawned
          cases passed : (checkUpdateLock env.instant actor.key id service.locks).1 with
          | ok =>
              rw [passed] at spawned
              rw [List.mem_singleton.mp spawned]
              exact .update origin actor id base title body passed
          | error error =>
              rw [passed] at spawned
              exact never (idle_single rfl) spawned
      | historyRestore id hid =>
          change next ∈ afterCheck _ _ (checkRestoreLock env.instant actor.key id service.locks).1
            at spawned
          cases passed : (checkRestoreLock env.instant actor.key id service.locks).1 with
          | ok =>
              rw [passed] at spawned
              rw [List.mem_singleton.mp spawned]
              exact .historyRestore origin actor id hid passed
          | error error =>
              rw [passed] at spawned
              exact never (idle_single rfl) spawned
      | releaseLock id => exact never (idle_afterUnlock _ _ _ _) spawned
      | forceUnlock id => exact never (idle_ite (idle_afterUnlock _ _ _ _) (idle_single rfl)) spawned
      | permGroupList => exact never (idle_single rfl) spawned
      | sheet sheet =>
          cases sheet with
          | presence sheetId row col => exact never (idle_single rfl) spawned
          | _ => cases begins
      | _ => cases begins

/-- Every request on its way to the database, or just past it, came there in one of these ways. -/
theorem follows {task next : ServiceTask} (spawned : next ∈ (advance env task service).2)
    (works : next.working = true) : Follows env service task next := by
  have never {tasks : List ServiceTask} (idle : Idle tasks) (member : next ∈ tasks) :
      Follows env service task next := by
    rw [idle next member] at works
    cases works
  cases task with
  | handle request => exact follows_runHandle spawned works
  | store request =>
      exact follows_runStore rfl (runStore_sharedStore env request service) spawned works
  | handleForMember connection seq op =>
      change next ∈ forMember connection seq op service.sections
        (memberActor service.config connection.ip) at spawned
      cases known : memberActor service.config connection.ip with
      | error error =>
          rw [known] at spawned
          exact never (idle_single rfl) spawned
      | ok member =>
          rw [known] at spawned
          rw [List.mem_singleton.mp spawned]
          exact .member connection seq op member known
  | handleForHost op =>
      rw [List.mem_singleton.mp spawned]
      exact .host op
  | stored request reply merges cells asOf => exact never (idle_runStored _ _ _ _ _) spawned
  | effects origin rest =>
      cases rest with
      | nil => cases spawned
      | cons effect rest => exact never (idle_runEffect origin rest effect) spawned
  | refreshGroupNames request memo asOf => exact never (idle_single rfl) spawned
  | disconnect connection => exact never (idle_ite (idle_single rfl) idle_nil) spawned
  | sweepExpiredLocks => exact never (Idle.append (idle_andThen _ _) (idle_andThen _ _)) spawned
  | sweepSheetPresence => exact never (idle_ite idle_nil (idle_andThen _ _)) spawned
  | tick => exact never (idle_single rfl) spawned
  | releaseLocksForIp ip =>
      change next ∈ releaseFor (actorForIp service.config ip) at spawned
      cases known : actorForIp service.config ip with
      | error error =>
          rw [known] at spawned
          cases spawned
      | ok member =>
          rw [known] at spawned
          exact never (idle_single rfl) spawned
  | releaseLocks key => exact never (idle_andThen _ _) spawned
  | watchGroups config => exact never (idle_ite idle_nil (idle_single rfl)) spawned
  | groupsChanged => exact never (idle_andThen _ _) spawned
  | changedTargets memo => exact never (idle_ite idle_nil (idle_single rfl)) spawned
  | changedConfig memo targets => exact never (idle_single rfl) spawned
  | changedHolder memo config targets => exact never (idle_nextTarget _ _ _ _) spawned
  | changedRead memo config holder target targets =>
      change next ∈ afterRead memo config holder target targets service.sections
        (changedEvent config holder target.ip memo service.sharedStore) at spawned
      cases shown : changedEvent config holder target.ip memo service.sharedStore with
      | none =>
          rw [shown] at spawned
          exact never (idle_nextTarget _ _ _ _) spawned
      | some event =>
          rw [shown] at spawned
          exact never (idle_single rfl) spawned
  | changedSend sent memo config holder targets =>
      exact never (idle_nextTarget _ _ _ _) spawned
  | foldersTargets => exact never (idle_ite idle_nil (idle_single rfl)) spawned
  | foldersRead targets => exact never (idle_andThen _ _) spawned
  | noticeTargets notice => exact never (idle_ite idle_nil (idle_single rfl)) spawned
  | noticeConfig notice targets => exact never (idle_andThen _ _) spawned
  | connect ip capabilities => cases spawned
  | writeConfig config => cases spawned
  | maintain => cases spawned
  | abandoned other op => cases spawned

theorem working_of_performs {task : ServiceTask} {actor : Actor} {op : SharedMemoOp}
    (performs : task.performs? = some (actor, op)) : task.working = true := by
  cases task with
  | handle request => rfl
  | store request => rfl
  | abandoned actor op => rfl
  | _ => cases performs

/-- A turn is followed by an update on the database only when it has checked the lock for it. -/
theorem spawned_update {task next : ServiceTask} {actor : Actor} {id title body : String}
    {base : Nat} (spawned : next ∈ (advance env task service).2)
    (updates : next.performs? = some (actor, .update id base title body)) :
    ∃ origin, task = .handle ⟨origin, actor, .update id base title body⟩ ∧
      (checkUpdateLock env.instant actor.key id service.locks).1 = .ok () := by
  cases follows spawned (working_of_performs updates) with
  | update origin other memo revision newTitle newBody passed =>
      cases updates
      exact ⟨origin, rfl, passed⟩
  | member connection seq op other known =>
      rw [performs?] at updates
      split at updates
      · rename_i begins
        cases updates
        cases begins
      · cases updates
  | host op =>
      rw [performs?] at updates
      split at updates
      · rename_i begins
        cases updates
        cases begins
      · cases updates
  | historyRestore origin other memo hid passed => cases updates
  | stored task request reply merges cells performs done => cases updates

end ServiceTask

end PeerCove
