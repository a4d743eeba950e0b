/-
Module: PeerCove.Host.ServiceTasks
Layer: Host
Purpose: The memo service as tasks that take turns: each request, each broadcast and each periodic
  job is cut at the points where another task may come in between, and one turn runs one section.
Trusted boundary: sections that hold a mutex, and single operations on the database, run as a whole;
  sends to a connection do not fail
Main exports: ServiceTask, Effect, ServiceTask.advance, ServiceTask.cancelled, memoService
-/
import PeerCove.Host.MemoService
import PeerCove.Library.Tasks

namespace PeerCove

open Stateful

/-- Where the reply to a request goes. -/
inductive Origin where
  | host
  | member (connection : Connection) (seq : Nat)
deriving DecidableEq

/-- A request whose actor is known. -/
structure Request where
  origin : Origin
  actor : Actor
  op : SharedMemoOp
deriving DecidableEq

/-- Events that are made for each recipient from the configuration alone. -/
inductive Notice where
  | scheduleChanged (event : ScheduleEvent)
  | sheetChanged (sheet : SheetMeta)
  | sheetPresence (sheetId : String) (peers : List SheetPresencePeer) (senderKey : Option String)
deriving DecidableEq

/-- What a recipient gets: nothing when it is unknown, or sent the selection itself. -/
def Notice.event (config : Config) (ip : Ipv4Addr) : Notice → Option SharedMemoEvent
  | .scheduleChanged event =>
      match actorForIp config ip with
      | .error _ => none
      | .ok actor =>
          some (.schedule (.changed { event with canEdit := actor.canManageOwned event.ownerId }))
  | .sheetChanged sheet =>
      match actorForIp config ip with
      | .error _ => none
      | .ok actor =>
          some (.sheet (.sheetChanged { sheet with
            canManage := actor.canManageOwned sheet.ownerId }))
  | .sheetPresence sheetId peers senderKey =>
      match actorForIp config ip with
      | .error _ => none
      | .ok actor =>
          if senderKey = some actor.key then none else some (.sheet (.presence sheetId peers))

/-- What a request or a job still has to do, one section each. -/
inductive Effect where
  | snapshotAfterUnlock (id : String) (revisionAtAcquire : Nat)
  | announce (event : SharedMemoEvent) (asOf : Nat)
  | broadcastChanged (id : String)
  | broadcastFolders
  | broadcastNotice (notice : Notice)
  | broadcastSheetLayout (sheetId : String)
  | broadcastSheetPresence (sheetId : String) (senderKey : Option String)
  | presencePeers (sheetId : String) (senderKey : Option String) (targets : List Connection)
  | send (sent : Sent)
  | bump
  | reply (reply : Except String SharedMemoReply) (asOf : Nat)
deriving DecidableEq

namespace Effect

/-- `broadcast_lock`. -/
def broadcastLock (id : String) (holder : Option String) : Effect :=
  .announce (.lock id holder) 0

/-- `broadcast_removed`, after a section that removed the memo. -/
def broadcastRemoved (id : String) (asOf : Nat) : Effect :=
  .announce (.removed id) asOf

/-- What follows a lock that ended: the version, and then the announcement. -/
def unlocked (id : String) (revisionAtAcquire : Nat) : List Effect :=
  [.snapshotAfterUnlock id revisionAtAcquire, broadcastLock id none, .bump]

end Effect

inductive ServiceTask where
  -- from outside
  | connect (ip : Ipv4Addr) (capabilities : List String)
  | disconnect (connection : Connection)
  | writeConfig (config : Config)
  | sweepExpiredLocks
  | sweepSheetPresence
  | maintain
  | tick
  | handleForMember (connection : Connection) (seq : Nat) (op : SharedMemoOp)
  | handleForHost (op : SharedMemoOp)
  -- a request
  | handle (request : Request)
  | store (request : Request)
  | stored (request : Request) (reply : SharedMemoReply) (merges : List SheetMerge)
      (cells : List SheetCell) (asOf : Nat)
  | refreshGroupNames (request : Request) (memo : SharedMemoDetail) (asOf : Nat)
  | effects (origin : Origin) (rest : List Effect)
  /-- The database operation of a request whose connection is gone. -/
  | abandoned (actor : Actor) (op : SharedMemoOp)
  -- jobs
  | releaseLocksForIp (ip : Ipv4Addr)
  | releaseLocks (key : String)
  | watchGroups (config : Config)
  | groupsChanged
  -- `broadcast_changed`, recipient by recipient
  | changedTargets (id : String)
  | changedConfig (id : String) (targets : List Connection)
  | changedHolder (id : String) (config : Config) (targets : List Connection)
  | changedRead (id : String) (config : Config) (holder : Option String)
      (target : Connection) (targets : List Connection)
  | changedSend (sent : Sent) (id : String) (config : Config) (holder : Option String)
      (targets : List Connection)
  -- the other broadcasts that run on their own
  | foldersTargets
  | foldersRead (targets : List Connection)
  | noticeTargets (notice : Notice)
  | noticeConfig (notice : Notice) (targets : List Connection)
deriving DecidableEq

namespace ServiceTask

/-- The database part of a request, with the cells a change of a sheet reports. -/
def performed (env : StoreEnv) (actor : Actor) :
    SharedMemoOp → StoreOp (SharedMemoReply × List SheetMerge × List SheetCell)
  | .sheet sheet => do
      let (reply, merges, cells) ← SharedStore.performSheet env actor sheet
      return (.sheet reply, merges, cells)
  | op => do
      let reply ← SharedStore.perform env actor op
      return (reply, [], [])

/-- A task for what is left, if anything is. -/
def andThen (origin : Origin) : List Effect → List ServiceTask
  | [] => []
  | rest => [.effects origin rest]

/-- The rest of `broadcast_changed`. -/
def nextTarget (id : String) (config : Config) (holder : Option String) :
    List Connection → List ServiceTask
  | [] => []
  | target :: targets => [.changedRead id config holder target targets]

/-- What a change of the schedule announces. -/
def announceSchedule : ScheduleOp → ScheduleReply → List Effect
  | .list, _ => []
  | .create .., .event event => [.broadcastNotice (.scheduleChanged event), .bump]
  | .update .., .event event => [.broadcastNotice (.scheduleChanged event), .bump]
  | .delete id, _ => [.announce (.schedule (.removed id)) 0, .bump]
  | _, _ => []

/-- `broadcast_sheet_cells_changed`. -/
def announceCells (sheetId : String) (cells : List SheetCell) : List Effect :=
  if cells = [] then [] else [.announce (.sheet (.cellsChanged sheetId cells)) 0]

/-- What a change of a sheet announces. -/
def announceSheet (merges : List SheetMerge) (cells : List SheetCell) :
    SheetOp → SheetReply → List Effect
  | .create _, .sheet sheet => [.broadcastNotice (.sheetChanged sheet), .bump]
  | .rename _ _, .sheet sheet => [.broadcastNotice (.sheetChanged sheet), .bump]
  | .setSheetSettings .., .sheet sheet => [.broadcastNotice (.sheetChanged sheet), .bump]
  | .delete sheetId, _ => [.announce (.sheet (.sheetRemoved sheetId)) 0, .bump]
  | .write sheetId _, .writeResult applied _ =>
      if applied > 0 then announceCells sheetId cells ++ [.bump] else []
  | .setColWidth sheetId _ _, _ => [.broadcastSheetLayout sheetId, .bump]
  | .setRowHeight sheetId _ _, _ => [.broadcastSheetLayout sheetId, .bump]
  | .merge sheetId _, _ =>
      .announce (.sheet (.merges sheetId merges)) 0 :: announceCells sheetId cells ++ [.bump]
  | .unmerge sheetId _ _, _ => [.announce (.sheet (.merges sheetId merges)) 0, .bump]
  | _, _ => []

/-- What an operation announces before its reply. -/
def announcements (actor : Actor) (merges : List SheetMerge) (cells : List SheetCell)
    (asOf : Nat) : SharedMemoOp → SharedMemoReply → List Effect
  | .create .., .memo memo => [.broadcastChanged memo.id, .bump]
  | .update id .., _ => [.broadcastChanged id, .bump]
  | .acquireLock id, .memo _ => [.broadcastLock id (some actor.name), .bump]
  | .trash id, _ => [.broadcastRemoved id asOf, .bump]
  | .restore id, _ => [.broadcastChanged id, .bump]
  | .deleteForever id, _ => [.broadcastRemoved id asOf, .bump]
  | .setPerms id .., _ => [.broadcastChanged id, .bump]
  | .folderCreate _, _ => [.broadcastFolders, .bump]
  | .folderRename _ _, _ => [.broadcastFolders, .bump]
  | .folderDelete _, _ => [.broadcastFolders, .bump]
  | .historyRestore id _, _ => [.broadcastChanged id, .bump]
  | .commentAdd id _, _ => [.broadcastChanged id, .bump]
  | .commentDelete id _, _ => [.broadcastChanged id, .bump]
  | .schedule op, .schedule reply => announceSchedule op reply
  | .sheet op, .sheet reply => announceSheet merges cells op reply
  | _, _ => []

/-- The announcements of a request, and its reply. -/
def conclude (request : Request) (reply : SharedMemoReply) (merges : List SheetMerge)
    (cells : List SheetCell) (asOf : Nat) : List ServiceTask :=
  [.effects request.origin
    (announcements request.actor merges cells asOf request.op reply ++
      [.reply (.ok reply) asOf])]

/-- A request that is answered without further effects. -/
def answer (request : Request) (reply : Except String SharedMemoReply) (asOf : Nat) :
    List ServiceTask :=
  [.effects request.origin [.reply reply asOf]]

/-- The names of groups are looked up only when the memo has group permissions. -/
def withGroupNames (request : Request) (memo : SharedMemoDetail) (asOf : Nat) :
    List ServiceTask :=
  if memo.groups = [] then conclude request (.memo memo) [] [] asOf
  else [.refreshGroupNames request memo asOf]

/-- What follows the section of a request on the database. -/
def afterStore (request : Request) (asOf : Nat) :
    Except String (SharedMemoReply × List SheetMerge × List SheetCell) → List ServiceTask
  | .ok (reply, merges, cells) => [.stored request reply merges cells asOf]
  | .error error => answer request (.error error) asOf

/-- The section of a request on the database. -/
def runStore (env : ServiceEnv) (request : Request) (service : MemoService) :
    MemoService × List ServiceTask :=
  (service.setStore
      (performed env.toStoreEnv request.actor request.op service.sharedStore).2,
    afterStore request service.sections
      (performed env.toStoreEnv request.actor request.op service.sharedStore).1)

/-- What follows a lock check: the section on the database, or an error. -/
def afterCheck (request : Request) (asOf : Nat) : Except String Unit → List ServiceTask
  | .ok () => [.store request]
  | .error error => answer request (.error error) asOf

/-- What follows when a request has ended a lock, or not. -/
def afterUnlock (request : Request) (id : String) (asOf : Nat) : Option Nat → List ServiceTask
  | none => answer request (.ok .done) asOf
  | some revision =>
      [.effects request.origin (Effect.unlocked id revision ++ [.reply (.ok .done) asOf])]

/-- The selection of the actor in a sheet. -/
def runPresence (env : ServiceEnv) (request : Request) (sheetId : String) (row col : Nat)
    (service : MemoService) : MemoService × List ServiceTask :=
  (service.setPresence (service.sheetPresence.insert request.actor.key
      { sheetId := sheetId
        row := row
        col := col
        name := request.actor.name
        seen := env.instant }),
    [.effects request.origin (.broadcastSheetPresence sheetId (some request.actor.key) ::
      (if presenceChanged request.actor.key sheetId row col service.sheetPresence then [.bump]
        else []) ++ [.reply (.ok (.sheet .done)) service.sections])])

/-- The locks after `ForceUnlock`, which only the host and administrators may use. -/
def forcedLocks (actor : Actor) (id : String) (locks : Table String LockInfo) :
    Table String LockInfo :=
  if actor.isAdmin then (forceUnlock id locks).2 else locks

/-- What follows `ForceUnlock`. -/
def afterForce (request : Request) (id : String) (asOf : Nat) (locks : Table String LockInfo) :
    List ServiceTask :=
  if request.actor.isAdmin then afterUnlock request id asOf (forceUnlock id locks).1
  else answer request (.error "編集ロックの強制解除は管理者(ホスト/admin)だけができます") asOf

/-- The list of permission groups, which is for the host and administrators. -/
def permGroupReply (actor : Actor) (config : Config) : Except String SharedMemoReply :=
  if actor.isAdmin then .ok (.permGroups (permGroups config))
  else .error "グループ一覧を取得できるのはホストと管理者(admin)だけです"

/-- A request up to the end of its first section. -/
def runHandle (env : ServiceEnv) (request : Request) (service : MemoService) :
    MemoService × List ServiceTask :=
  match request.op with
  | .update id _ _ _ =>
      (service.setLocks (checkUpdateLock env.instant request.actor.key id service.locks).2,
        afterCheck request service.sections
          (checkUpdateLock env.instant request.actor.key id service.locks).1)
  | .historyRestore id _ =>
      (service.setLocks (checkRestoreLock env.instant request.actor.key id service.locks).2,
        afterCheck request service.sections
          (checkRestoreLock env.instant request.actor.key id service.locks).1)
  | .releaseLock id =>
      (service.setLocks (releaseLock request.actor.key id service.locks).2,
        afterUnlock request id service.sections
          (releaseLock request.actor.key id service.locks).1)
  | .forceUnlock id =>
      (service.setLocks (forcedLocks request.actor id service.locks),
        afterForce request id service.sections service.locks)
  | .permGroupList =>
      (service, answer request (permGroupReply request.actor service.config) service.sections)
  | .sheet (.presence sheetId row col) => runPresence env request sheetId row col service
  | _ => runStore env request service

/-- A memo as it is answered, with the holder of its lock. -/
def withHolder (env : ServiceEnv) (memo : SharedMemoDetail) (locks : Table String LockInfo) :
    SharedMemoDetail :=
  { memo with lockedBy := (lockHolder env.instant memo.id locks).1 }

/-- The locks after the second section of `AcquireLock`. -/
def acquiredLocks (env : ServiceEnv) (actor : Actor) (id : String) (memo : SharedMemoDetail)
    (locks : Table String LockInfo) : Table String LockInfo :=
  if memo.canEdit then (takeLock env.instant actor id memo locks).2 else locks

/-- What follows the second section of `AcquireLock`. -/
def afterAcquire (env : ServiceEnv) (request : Request) (id : String) (memo : SharedMemoDetail)
    (asOf : Nat) (locks : Table String LockInfo) : List ServiceTask :=
  if memo.canEdit then
    match (takeLock env.instant request.actor id memo locks).1 with
    | .ok () => withGroupNames request { memo with lockedBy := some request.actor.name } asOf
    | .error error => answer request (.error error) asOf
  else answer request (.error "このメモを編集する権限がありません(閲覧のみ)") asOf

/-- What a request does with the locks once the database has answered, and what it still does. -/
def runStored (env : ServiceEnv) (request : Request) (reply : SharedMemoReply)
    (merges : List SheetMerge) (cells : List SheetCell) (asOf : Nat) (service : MemoService) :
    MemoService × List ServiceTask :=
  match request.op, reply with
  | .list _, .memos memos folders =>
      (service.setLocks (injectLockSummaries env.instant memos service.locks).2,
        answer request (.ok (.memos (injectLockSummaries env.instant memos service.locks).1
          folders)) asOf)
  | .get _, .memo memo | .update .., .memo memo | .setPerms .., .memo memo
  | .historyRestore .., .memo memo =>
      (service.setLocks (lockHolder env.instant memo.id service.locks).2,
        withGroupNames request (withHolder env memo service.locks) asOf)
  | .acquireLock id, .memo memo =>
      (service.setLocks (acquiredLocks env request.actor id memo service.locks),
        afterAcquire env request id memo asOf service.locks)
  | .trash id, reply =>
      (service.setLocks (service.locks.erase id), conclude request reply merges cells asOf)
  | .sheet (.cells sheetId), .sheet (.cellsData _ cells colWidths rowHeights merges _) =>
      (service, answer request (.ok (.sheet (.cellsData sheetId cells colWidths rowHeights merges
        (sheetPresenceFor env.instant sheetId (some request.actor.key)
          service.sheetPresence)))) asOf)
  | _, reply => (service, conclude request reply merges cells asOf)

/-- The version that ends the editing of a memo; an error does not matter. -/
def runSnapshot (env : ServiceEnv) (id : String) (revisionAtAcquire : Nat) (service : MemoService) :
    MemoService :=
  service.setStore
    (SharedStore.snapshotIfRevisionChanged env.now id revisionAtAcquire service.sharedStore).2

/-- The layout of a sheet, for everybody. -/
def layoutEvent (sheetId : String) (db : SharedDb) : List Effect :=
  match (SharedStore.sheetLayout sheetId db).1 with
  | .ok (colWidths, rowHeights) => [.announce (.sheet (.layout sheetId colWidths rowHeights)) 0]
  | .error _ => []

/-- The reply to a request; that of the host's own interface is returned to its caller. -/
def sendReply (service : MemoService) (origin : Origin)
    (reply : Except String SharedMemoReply) (asOf : Nat) : MemoService :=
  { service with
    outbox := service.outbox ++
      match origin with
      | .host => []
      | .member connection seq =>
          [{ connection := connection, message := .memoResp seq reply, asOf := asOf }] }

/-- One effect, and what takes its place. -/
def runEffect (env : ServiceEnv) (origin : Origin) (rest : List Effect) (service : MemoService) :
    Effect → MemoService × List ServiceTask
  | .snapshotAfterUnlock id revision =>
      (runSnapshot env id revision service, andThen origin rest)
  | .announce event asOf =>
      (service, andThen origin ((service.toAll event asOf).map .send ++ rest))
  | .broadcastChanged id => (service, .changedTargets id :: andThen origin rest)
  | .broadcastFolders => (service, .foldersTargets :: andThen origin rest)
  | .broadcastNotice notice => (service, .noticeTargets notice :: andThen origin rest)
  | .broadcastSheetLayout sheetId =>
      (service, andThen origin (layoutEvent sheetId service.sharedStore ++ rest))
  | .broadcastSheetPresence sheetId senderKey =>
      (service, andThen origin
        ((if service.memoConnections = [] then []
          else [.presencePeers sheetId senderKey service.memoConnections]) ++ rest))
  | .presencePeers sheetId senderKey targets =>
      (service, .noticeConfig (.sheetPresence sheetId
        (sheetPresenceFor env.instant sheetId none service.sheetPresence) senderKey) targets ::
          andThen origin rest)
  | .send sent => (service.send sent, andThen origin rest)
  | .bump => (service.bump, andThen origin rest)
  | .reply reply asOf => (sendReply service origin reply asOf, andThen origin rest)

/-- The versions that end the editing of several memos. -/
def endingSnapshots (ended : List (String × Nat)) : List Effect :=
  ended.map (fun (id, revision) => .snapshotAfterUnlock id revision)

/-- The announcements that the locks of several memos have ended. -/
def endingAnnouncements (ended : List (String × Nat)) : List Effect :=
  ended.flatMap (fun (id, _) => [Effect.broadcastLock id none, .bump])

/-- The locks that satisfy a condition end, one after the other. -/
def endLocks (which : LockInfo → Bool) (service : MemoService) : MemoService :=
  service.setLocks (dropLocks which service.locks)

/-- The event for one recipient of `broadcast_changed`, if the memo can be read for it. -/
def changedEvent (config : Config) (holder : Option String) (ip : Ipv4Addr) (id : String)
    (db : SharedDb) : Option SharedMemoEvent :=
  match memberActor config ip with
  | .error _ => none
  | .ok actor =>
      match (SharedStore.detailIfVisible actor id db).1 with
      | .ok (some memo) =>
          some (.changed (applyGroupNames config { memo with lockedBy := holder }))
      | .ok none => some (.removed id)
      | .error _ => none

/-- What follows the reading of the memo for one recipient of `broadcast_changed`. -/
def afterRead (id : String) (config : Config) (holder : Option String) (target : Connection)
    (targets : List Connection) (asOf : Nat) : Option SharedMemoEvent → List ServiceTask
  | none => nextTarget id config holder targets
  | some event =>
      [.changedSend { connection := target, message := .memoEvent event, asOf := asOf }
        id config holder targets]

/-- A member's request as a task, when the member is known. -/
def forMember (connection : Connection) (seq : Nat) (op : SharedMemoOp) (asOf : Nat) :
    Except String Actor → List ServiceTask
  | .error error => [.effects (.member connection seq) [.reply (.error error) asOf]]
  | .ok actor => [.handle { origin := .member connection seq, actor := actor, op := op }]

/-- The locks to release when the member of an ended connection is known. -/
def releaseFor : Except String Actor → List ServiceTask
  | .error _ => []
  | .ok actor => [.releaseLocks actor.key]

/-- Sheets in which a selection has been there for too long. -/
def stalePresence (instant : Nat) (presence : Table String SheetPresenceEntry) : List String :=
  ((presence.filter (fun _ entry => instant - entry.seen > SHEET_PRESENCE_TTL)).rows.map
    (fun (_, entry) => entry.sheetId)).dedup

/-- The next section of a task, and the tasks that take its place. -/
def run (env : ServiceEnv) (service : MemoService) : ServiceTask → MemoService × List ServiceTask
  | .connect ip capabilities => (service.register ip capabilities, [])
  | .disconnect connection =>
      (service.unregister connection,
        if service.isCurrent connection then [.releaseLocksForIp connection.ip] else [])
  | .writeConfig config => ({ service with config := config }, [])
  | .sweepExpiredLocks =>
      (endLocks (LockInfo.expired · env.instant) service,
        andThen .host (endingSnapshots
            (locksWhere (LockInfo.expired · env.instant) service.locks)) ++
          andThen .host (endingAnnouncements
            (locksWhere (LockInfo.expired · env.instant) service.locks)))
  | .sweepSheetPresence =>
      (service.setPresence (service.sheetPresence.filter (fun _ entry =>
          ¬ env.instant - entry.seen > SHEET_PRESENCE_TTL)),
        if stalePresence env.instant service.sheetPresence = [] then []
        else andThen .host ((stalePresence env.instant service.sheetPresence).map
          (.broadcastSheetPresence · none) ++ [.bump]))
  | .maintain => (service.setStore (SharedStore.purgeExpired env.now service.sharedStore).2, [])
  | .tick => (service, [.watchGroups service.config])
  | .handleForMember connection seq op =>
      (service, forMember connection seq op service.sections
        (memberActor service.config connection.ip))
  | .handleForHost op =>
      (service, [.handle { origin := .host, actor := hostActor service.config, op := op }])
  | .handle request => runHandle env request service
  | .store request => runStore env request service
  | .stored request reply merges cells asOf =>
      runStored env request reply merges cells asOf service
  | .refreshGroupNames request memo asOf =>
      (service, conclude request (.memo (PeerCove.refreshGroupNames service.config memo)) [] []
        asOf)
  | .effects _ [] => (service, [])
  | .effects origin (effect :: rest) => runEffect env origin rest service effect
  | .abandoned actor op =>
      (service.setStore (performed env.toStoreEnv actor op service.sharedStore).2, [])
  | .releaseLocksForIp ip =>
      (service, releaseFor (actorForIp service.config ip))
  | .releaseLocks key =>
      (endLocks (fun lock => lock.key = key) service,
        andThen .host (endingSnapshots (locksWhere (fun lock => lock.key = key) service.locks) ++
          endingAnnouncements (locksWhere (fun lock => lock.key = key) service.locks)))
  | .watchGroups config =>
      ({ service with lastGroupSig := some (groupSignature config) },
        if service.lastGroupSig = some (groupSignature config) then [] else [.groupsChanged])
  | .groupsChanged =>
      (service, andThen .host (service.sharedStore.memoIdsWithGroupPerms.flatMap (fun id =>
        [.broadcastChanged id, .bump])))
  | .changedTargets id =>
      (service, if service.memoConnections = [] then []
        else [.changedConfig id service.memoConnections])
  | .changedConfig id targets => (service, [.changedHolder id service.config targets])
  | .changedHolder id config targets =>
      (service.setLocks (lockHolder env.instant id service.locks).2,
        nextTarget id config (lockHolder env.instant id service.locks).1 targets)
  | .changedRead id config holder target targets =>
      (service, afterRead id config holder target targets service.sections
        (changedEvent config holder target.ip id service.sharedStore))
  | .changedSend sent id config holder targets =>
      (service.send sent, nextTarget id config holder targets)
  | .foldersTargets =>
      (service, if service.memoConnections = [] then []
        else [.foldersRead service.memoConnections])
  | .foldersRead targets =>
      (service, andThen .host (targets.map (fun target =>
        .send
          { connection := target
            message := .memoEvent (.folders service.sharedStore.folderList)
            asOf := service.sections })))
  | .noticeTargets notice =>
      (service, if service.memoConnections = [] then []
        else [.noticeConfig notice service.memoConnections])
  | .noticeConfig notice targets =>
      (service, andThen .host (targets.filterMap (fun target =>
        (notice.event service.config target.ip).map (fun event =>
          .send { connection := target, message := .memoEvent event, asOf := service.sections }))))

/-- One turn of a task. -/
def advance (env : ServiceEnv) (task : ServiceTask) (service : MemoService) :
    MemoService × List ServiceTask :=
  ({ (run env service task).1 with sections := service.sections + 1 }, (run env service task).2)

/-- What may come from outside: connections, changes of the configuration, periodic jobs and
requests. -/
def arrives : ServiceTask → Bool
  | .connect .. | .disconnect _ | .writeConfig _ | .sweepExpiredLocks | .sweepSheetPresence
  | .maintain | .tick | .handleForMember .. | .handleForHost _ => true
  | _ => false

/-- Whether a request begins with a section on the database. -/
def beginsWithStore : SharedMemoOp → Bool
  | .update .. | .historyRestore .. | .releaseLock _ | .forceUnlock _ | .permGroupList
  | .sheet (.presence ..) => false
  | _ => true

/-- What is left of a member's request when its connection ends while it waits: an operation on the
database that was handed over still runs, and nothing after it. -/
def cancelled : ServiceTask → Option (List ServiceTask)
  | .handleForMember .. => some []
  | .handle { origin := .member .., actor, op } =>
      some (if beginsWithStore op then [.abandoned actor op] else [])
  | .store { origin := .member .., actor, op } => some [.abandoned actor op]
  | .refreshGroupNames { origin := .member .., .. } _ _ => some []
  | .effects (.member ..) (.snapshotAfterUnlock id revision :: _) =>
      some [.effects .host [.snapshotAfterUnlock id revision]]
  | .effects (.member ..) (.broadcastSheetLayout _ :: _) => some []
  | _ => none

end ServiceTask

/-- The host's memo service. -/
def memoService : Tasks.Machine ServiceEnv ServiceTask MemoService where
  advance := ServiceTask.advance
  arrives := ServiceTask.arrives
  cancelled := ServiceTask.cancelled

/-- The service as it starts, on the database of earlier runs. -/
def MemoService.new (config : Config) (db : SharedDb) : MemoService where
  config := config
  connections := Table.empty
  nextConnectionId := 0
  lastGroupSig := none
  locks := Table.empty
  seq := 1
  sheetPresence := Table.empty
  sharedStore := db
  outbox := []
  sections := 0

end PeerCove
