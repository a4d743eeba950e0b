/-
Module: PeerCove.Memo.StoreRuns
Layer: Store
Purpose: The operations that write memos and their versions, one after the other on one database and
  under a clock that does not go back.
Trusted boundary: none
Main exports: MemoAction, MemoAction.perform, StoreRun, StoreRun.step
-/
import PeerCove.Memo.SharedStore

namespace PeerCove

open Stateful

/-- What writes memos or versions. -/
inductive MemoAction where
  | create (newId : String) (actor : Actor) (title body : String) (folderId : Option String)
  | update (actor : Actor) (id : String) (baseRevision : Nat) (title body : String)
  | saveVersion (actor : Actor) (id : String)
  /-- The end of an edit lock. -/
  | close (id : String) (sinceRevision : Nat)
  | historyRestore (actor : Actor) (id : String) (hid : Nat)
  | trash (actor : Actor) (id : String)
  | restore (actor : Actor) (id : String)
  | deleteForever (actor : Actor) (id : String)

def MemoAction.perform (now : Nat) : MemoAction → StoreOp Unit
  | .create newId actor title body folderId => do
      let _ ← SharedStore.create now newId actor title body folderId
  | .update actor id baseRevision title body => do
      let _ ← SharedStore.update now actor id baseRevision title body
  | .saveVersion actor id => SharedStore.saveVersion now actor id
  | .close id sinceRevision => SharedStore.snapshotIfRevisionChanged now id sinceRevision
  | .historyRestore actor id hid => do
      let _ ← SharedStore.historyRestore now actor id hid
  | .trash actor id => SharedStore.trash now actor id
  | .restore actor id => SharedStore.restore actor id
  | .deleteForever actor id => SharedStore.deleteForever now actor id

/-- An action and when it happens. -/
structure StoreEvent where
  now : Nat
  action : MemoAction

structure StoreRun where
  db : SharedDb
  clock : Nat := 0
  /-- Every version that was stored, in the order it was stored (history). -/
  stored : List (Nat × HistoryRow) := []
deriving DecidableEq

namespace StoreRun

/-- The versions that are numbered above a counter. -/
def newVersions (lastHid : Nat) (db : SharedDb) : List (Nat × HistoryRow) :=
  db.memoHistory.rows.filter (fun version => lastHid < version.1)

/-- A time before the clock cannot happen; a refused action is one that changes nothing. -/
def step (event : StoreEvent) (run : StoreRun) : Option StoreRun :=
  if event.now < run.clock then none
  else
    let after := (event.action.perform event.now run.db).2
    some {
      db := after
      clock := event.now
      stored := run.stored ++ newVersions run.db.lastHid after }

end StoreRun

/-! ### Folders -/

/-- What writes folders. -/
inductive FolderAction where
  | create (now : Nat) (newId : String) (actor : Actor) (name : String)
  | rename (actor : Actor) (id name : String)
  | delete (actor : Actor) (id : String)

def FolderAction.perform : FolderAction → StoreOp Unit
  | .create now newId actor name => do
      let _ ← SharedStore.folderCreate now newId actor name
  | .rename actor id name => SharedStore.folderRename actor id name
  | .delete actor id => SharedStore.folderDelete actor id

def FolderAction.step (action : FolderAction) (db : SharedDb) : Option SharedDb :=
  some (action.perform db).2

end PeerCove
