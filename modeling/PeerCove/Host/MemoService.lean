/-
Module: PeerCove.Host.MemoService
Layer: Host
Purpose: What the host's memo service holds in memory besides the database: edit locks, connections,
  selections in sheets and what was sent, and the short sections in which it uses them.
Trusted boundary: the configuration can always be read; two permission groups of one id have the
  same hash only when they have the same name and members
Main exports: MemoService, LockInfo, pruneExpired, MemoService.memoConnections, groupSignature
-/
import PeerCove.Host.Identity
import PeerCove.Memo.Requests

namespace PeerCove

/-- `LOCK_TTL`, in milliseconds. -/
def LOCK_TTL : Nat := 120 * 1000

/-- `SHEET_PRESENCE_TTL`, in milliseconds. -/
def SHEET_PRESENCE_TTL : Nat := 10 * 1000

/-- What a section takes from outside: besides what the database operations take, the monotonic
clock in milliseconds. -/
structure ServiceEnv extends StoreEnv where
  instant : Nat

/-- One control connection of a member: the address it came from and its number. -/
structure Connection where
  ip : Ipv4Addr
  connectionId : Nat
deriving DecidableEq

structure ConnectionInfo where
  connectionId : Nat
  capabilities : List String
deriving Repr, DecidableEq

structure SheetPresenceEntry where
  sheetId : String
  row : Nat
  col : Nat
  name : String
  seen : Nat
deriving Repr, DecidableEq

structure LockInfo where
  /-- Id of the holder; empty for the host. -/
  key : String
  name : String
  lastActivity : Nat
  /-- Revision of the memo when the lock was taken, with which its revision at the end of the lock
  is compared. -/
  revisionAtAcquire : Nat
deriving Repr, DecidableEq

/-- What the service writes to a connection. -/
inductive ServiceMessage where
  | memoEvent (event : SharedMemoEvent)
  | memoResp (seq : Nat) (reply : Except String SharedMemoReply)
deriving DecidableEq

/-- A message in the outbox of a connection. -/
structure Sent where
  connection : Connection
  message : ServiceMessage
  /-- The section in which the database was read for it.  No step depends on this. -/
  asOf : Nat
deriving DecidableEq

structure MemoService where
  config : Config
  connections : Table Ipv4Addr ConnectionInfo
  nextConnectionId : Nat
  lastGroupSig : Option (List (String × String × List PublicKey))
  locks : Table String LockInfo
  seq : Nat
  sheetPresence : Table String SheetPresenceEntry
  sharedStore : SharedDb
  /-- Everything sent so far; the outbox of a connection is its part of it. -/
  outbox : List Sent
  /-- Sections run so far.  No step depends on this. -/
  sections : Nat

/-- `actor.member_id.unwrap_or_default()`: whom a lock or a selection belongs to. -/
def Actor.key (actor : Actor) : String :=
  actor.memberId.getD ""

/-! ### Edit locks -/

/-- `last_activity.elapsed() > LOCK_TTL`. -/
def LockInfo.expired (lock : LockInfo) (instant : Nat) : Bool :=
  instant - lock.lastActivity > LOCK_TTL

/-- `prune_expired`. -/
def pruneExpired (instant : Nat) (locks : Table String LockInfo) : Table String LockInfo :=
  locks.filter (fun _ lock => ¬ lock.expired instant)

/-- Name of the holder of a lock. -/
def holderOf (locks : Table String LockInfo) (id : String) : Option String :=
  (locks.get? id).map LockInfo.name

/-- `lock_holder`, with the locks it leaves. -/
def lockHolder (instant : Nat) (id : String) (locks : Table String LockInfo) :
    Option String × Table String LockInfo :=
  (holderOf (pruneExpired instant locks) id, pruneExpired instant locks)

/-- `inject_lock_summaries`, with the locks it leaves. -/
def injectLockSummaries (instant : Nat) (memos : List SharedMemoSummary)
    (locks : Table String LockInfo) : List SharedMemoSummary × Table String LockInfo :=
  (memos.map (fun memo => { memo with lockedBy := holderOf (pruneExpired instant locks) memo.id }),
    pruneExpired instant locks)

/-- Ids and revisions of the locks that satisfy a condition. -/
def locksWhere (which : LockInfo → Bool) (locks : Table String LockInfo) : List (String × Nat) :=
  (locks.filter (fun _ lock => which lock)).rows.map (fun (id, lock) =>
    (id, lock.revisionAtAcquire))

/-- The locks without those that satisfy a condition. -/
def dropLocks (which : LockInfo → Bool) (locks : Table String LockInfo) : Table String LockInfo :=
  locks.filter (fun _ lock => ¬ which lock)

/-- The lock check of `Update`: only the holder goes on, and its lock is extended. -/
def checkUpdateLock (instant : Nat) (key id : String) (locks : Table String LockInfo) :
    Except String Unit × Table String LockInfo :=
  match (pruneExpired instant locks).get? id with
  | none => (.error "編集を始める前に編集ロックを取得してください", pruneExpired instant locks)
  | some lock =>
      if lock.key = key then
        (.ok (), (pruneExpired instant locks).update id (fun lock =>
          { lock with lastActivity := instant }))
      else (.error s!"「{lock.name}」が編集中です", pruneExpired instant locks)

/-- The lock check of `HistoryRestore`: nobody else may hold the lock. -/
def checkRestoreLock (instant : Nat) (key id : String) (locks : Table String LockInfo) :
    Except String Unit × Table String LockInfo :=
  match (pruneExpired instant locks).get? id with
  | none => (.ok (), pruneExpired instant locks)
  | some lock =>
      if lock.key = key then (.ok (), pruneExpired instant locks)
      else (.error s!"「{lock.name}」が編集中です", pruneExpired instant locks)

/-- The lock `AcquireLock` puts on a memo it has read. -/
def newLock (instant : Nat) (actor : Actor) (memo : SharedMemoDetail) : LockInfo where
  key := actor.key
  name := actor.name
  lastActivity := instant
  revisionAtAcquire := memo.revision

/-- The section of `AcquireLock` on the locks: a holder takes its lock anew. -/
def takeLock (instant : Nat) (actor : Actor) (id : String) (memo : SharedMemoDetail)
    (locks : Table String LockInfo) : Except String Unit × Table String LockInfo :=
  match (pruneExpired instant locks).get? id with
  | none => (.ok (), (pruneExpired instant locks).insert id (newLock instant actor memo))
  | some lock =>
      if lock.key = actor.key then
        (.ok (), (pruneExpired instant locks).insert id (newLock instant actor memo))
      else (.error s!"「{lock.name}」が編集中です(編集は 1 人ずつ)", pruneExpired instant locks)

/-- The section of `ReleaseLock`: the revision of the lock, when the actor held it. -/
def releaseLock (key id : String) (locks : Table String LockInfo) :
    Option Nat × Table String LockInfo :=
  match locks.get? id with
  | none => (none, locks)
  | some lock =>
      if lock.key = key then (some lock.revisionAtAcquire, locks.erase id) else (none, locks)

/-- The section of `ForceUnlock`. -/
def forceUnlock (id : String) (locks : Table String LockInfo) :
    Option Nat × Table String LockInfo :=
  ((locks.get? id).map LockInfo.revisionAtAcquire, locks.erase id)

/-! ### Permission groups -/

/-- `apply_group_names`: groups that still exist under their present name. -/
def applyGroupNames (config : Config) (memo : SharedMemoDetail) : SharedMemoDetail :=
  { memo with
    groups := memo.groups.map (fun perm =>
      match config.acl.groups.find? (fun group => group.id = perm.groupId) with
      | none => perm
      | some group => { perm with name := group.name }) }

/-- `refresh_group_names`: among groups of one id the last one counts. -/
def refreshGroupNames (config : Config) (memo : SharedMemoDetail) : SharedMemoDetail :=
  { memo with
    groups := memo.groups.map (fun perm =>
      match config.acl.groups.reverse.find? (fun group => group.id = perm.groupId) with
      | none => perm
      | some group => { perm with name := group.name }) }

/-- What `watch_groups` compares. -/
def groupSignature (config : Config) : List (String × String × List PublicKey) :=
  (config.acl.groups.map (fun group =>
    (group.id, group.name, group.members.insertionSort (fun one two =>
      one.bytes.toNat ≤ two.bytes.toNat)))).insertionSort (fun one two => one.1 ≤ two.1)

/-- `PermGroupList`: the groups with the addresses of their members. -/
def permGroups (config : Config) : List PermGroup :=
  config.acl.groups.map (fun group =>
    { id := group.id
      name := group.name
      members := group.members.filterMap (fun key =>
        (config.peers.reverse.find? (fun peer =>
          peer.virtualIp.isSome && peer.publicKey = key)).bind PeerConfig.virtualIp) })

/-! ### Selections in sheets -/

/-- `sheet_presence_for`. -/
def sheetPresenceFor (instant : Nat) (sheetId : String) (excludeKey : Option String)
    (presence : Table String SheetPresenceEntry) : List SheetPresencePeer :=
  (presence.filter (fun key entry =>
    entry.sheetId = sheetId && instant - entry.seen ≤ SHEET_PRESENCE_TTL &&
      excludeKey ≠ some key)).rows.map (fun (_, entry) =>
        { name := entry.name, row := entry.row, col := entry.col })

/-- Whether a selection differs from the one that is known. -/
def presenceChanged (key sheetId : String) (row col : Nat)
    (presence : Table String SheetPresenceEntry) : Bool :=
  match presence.get? key with
  | none => true
  | some entry => entry.sheetId ≠ sheetId || entry.row ≠ row || entry.col ≠ col

namespace MemoService

/-- `memo_connections`: the connections that named the capability `shared_memo`. -/
def memoConnections (service : MemoService) : List Connection :=
  (service.connections.filter (fun _ info => info.capabilities.contains "shared_memo")).rows.map
    (fun (ip, info) => { ip := ip, connectionId := info.connectionId })

def setLocks (service : MemoService) (locks : Table String LockInfo) : MemoService :=
  { service with locks := locks }

def setStore (service : MemoService) (db : SharedDb) : MemoService :=
  { service with sharedStore := db }

def setPresence (service : MemoService) (presence : Table String SheetPresenceEntry) :
    MemoService :=
  { service with sheetPresence := presence }

/-- `bump`: the interface of the host has something to fetch. -/
def bump (service : MemoService) : MemoService :=
  { service with seq := service.seq + 1 }

def send (service : MemoService) (sent : Sent) : MemoService :=
  { service with outbox := service.outbox ++ [sent] }

/-- `register_connection`: the connection of an address replaces an earlier one. -/
def register (service : MemoService) (ip : Ipv4Addr) (capabilities : List String) : MemoService :=
  { service with
    connections := service.connections.insert ip
      { connectionId := service.nextConnectionId, capabilities := capabilities }
    nextConnectionId := service.nextConnectionId + 1 }

/-- Whether a connection is the one its address is registered with. -/
def isCurrent (service : MemoService) (connection : Connection) : Bool :=
  (service.connections.get? connection.ip).any (fun info =>
    info.connectionId = connection.connectionId)

/-- `unregister_connection`. -/
def unregister (service : MemoService) (connection : Connection) : MemoService :=
  { service with
    connections :=
      if service.isCurrent connection then service.connections.erase connection.ip
      else service.connections }

/-- The same message to every connection that takes memo events. -/
def toAll (service : MemoService) (event : SharedMemoEvent) (asOf : Nat) : List Sent :=
  service.memoConnections.map (fun connection =>
    { connection := connection, message := .memoEvent event, asOf := asOf })

end MemoService

end PeerCove
