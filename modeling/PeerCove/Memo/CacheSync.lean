/-
Module: PeerCove.Memo.CacheSync
Layer: Store
Purpose: The synchronisation of a member's cache when it connects: the host's listing is compared
  with the copies by their revisions, and the memos found out of date are fetched.
Trusted boundary: the host answers each request from one state of its database; no request of the
  procedure times out
Main exports: SharedCache.syncFromList, SharedCache.memoSync, SyncRun, SyncEvent, SyncRun.step
-/
import PeerCove.Memo.CacheStore
import PeerCove.Memo.Requests

namespace PeerCove

open Stateful

namespace SharedCache

variable (cache : SharedCache)

def revision (id : String) : Option Nat :=
  (cache.memos.get? id).map CachedMemo.revision

def setLock (id : String) (holder : Option String) : SharedCache :=
  { cache with memos := cache.memos.update id (fun memo => { memo with lockedBy := holder }) }

/-- One pass of the loop of `sync_from_list`: the ids to be fetched grow by a memo whose copy has
another revision, or that has no copy. -/
def compareListed (state : SharedCache × List String) (memo : SharedMemoSummary) :
    SharedCache × List String :=
  match state.1.revision memo.id with
  | some revision =>
      if revision = memo.revision then (state.1.setLock memo.id memo.lockedBy, state.2)
      else (state.1, state.2 ++ [memo.id])
  | none => (state.1, state.2 ++ [memo.id])

/-- `sync_from_list`, without the table of folders: the cache and the ids to be fetched. -/
def syncFromList (memos : List SharedMemoSummary) : SharedCache × List String :=
  memos.foldl compareListed (cache.retain (memos.map SharedMemoSummary.id), [])

/-- The memo as the host answers `Get`, with the name of who is editing it. -/
def fetched (holder : String → Option String) (actor : Actor) (db : SharedDb) (id : String) :
    Option SharedMemoDetail :=
  match (SharedStore.get actor id db).1 with
  | .ok memo => some { memo with lockedBy := holder id }
  | .error _ => none

/-- `Get` for one id of `memo_sync`; an answer without a memo is passed over. -/
def refetch (holder : String → Option String) (actor : Actor) (db : SharedDb)
    (cache : SharedCache) (id : String) : SharedCache :=
  match fetched holder actor db id with
  | some memo => cache.upsert memo
  | none => cache

/-- The memos the host lists for a member outside the trash, with the names of who is editing. -/
def listed (fts : String → MemoRow → Bool) (holder : String → Option String) (actor : Actor)
    (db : SharedDb) : List SharedMemoSummary :=
  match (SharedStore.list fts actor {} db).1 with
  | .ok (memos, _) => memos.map (fun memo => { memo with lockedBy := holder memo.id })
  | .error _ => []

/-- `memo_sync`, as far as memos go. -/
def memoSync (fts : String → MemoRow → Bool) (holder : String → Option String) (actor : Actor)
    (db : SharedDb) : SharedCache :=
  let (kept, stale) := cache.syncFromList (listed fts holder actor db)
  stale.foldl (refetch holder actor db) kept

end SharedCache

/-! ### The host's store and the cache of one member -/

structure SyncRun where
  db : SharedDb
  /-- The member, with its groups and whether administration is delegated to it. -/
  actor : Actor
  cache : SharedCache
deriving DecidableEq

inductive SyncEvent where
  /-- A request of anybody. -/
  | request (env : StoreEnv) (actor : Actor) (op : SharedMemoOp)
  /-- The end of an edit lock. -/
  | close (now : Nat) (id : String) (sinceRevision : Nat)
  | purge (now : Nat)
  /-- The host's configuration gives the member other groups, another name or other rights. -/
  | member (name : String) (groupIds : List String) (admin : Bool)
  /-- The member connects, while the given persons are editing. -/
  | connect (fts : String → MemoRow → Bool) (holder : String → Option String)

/-- A member is connected to a host for the first time. -/
def SyncRun.starting (db : SharedDb) (actor : Actor) : SyncRun where
  db := db
  actor := actor
  cache := { memos := Table.empty }

def SyncRun.step (event : SyncEvent) (run : SyncRun) : Option SyncRun :=
  match event with
  | .request env actor op => some { run with db := (SharedStore.perform env actor op run.db).2 }
  | .close now id since =>
      some { run with db := (SharedStore.snapshotIfRevisionChanged now id since run.db).2 }
  | .purge now => some { run with db := (SharedStore.purgeExpired now run.db).2 }
  | .member name groupIds admin =>
      some { run with
        actor := { run.actor with name := name, groupIds := groupIds, admin := admin } }
  | .connect fts holder =>
      some { run with cache := run.cache.memoSync fts holder run.actor run.db }

end PeerCove
