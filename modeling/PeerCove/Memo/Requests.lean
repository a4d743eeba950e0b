/-
Module: PeerCove.Memo.Requests
Layer: Store
Purpose: Requests, replies and events of the shared-memo service, and the part of each request that
  runs on the database.
Trusted boundary: none
Main exports: SharedMemoOp, SharedMemoReply, SharedMemoEvent, SharedStore.perform
-/
import PeerCove.Memo.SharedSheets
import PeerCove.Core.Net

namespace PeerCove

open Stateful

/-- Operations on the schedule. -/
inductive ScheduleOp where
  | list
  | create (title note : String) (startUnixMs : Nat) (endUnixMs : Option Nat) (allDay : Bool)
      (participants : List ScheduleParticipant)
  | update (id : String) (baseRevision : Nat) (title note : String) (startUnixMs : Nat)
      (endUnixMs : Option Nat) (allDay : Bool) (participants : List ScheduleParticipant)
  | delete (id : String)
deriving Repr, DecidableEq

/-- Operations on sheets. -/
inductive SheetOp where
  | list
  | cells (sheetId : String)
  | create (name : String)
  | rename (sheetId name : String)
  | delete (sheetId : String)
  | write (sheetId : String) (cells : List CellWrite)
  | setColWidth (sheetId : String) (col : Nat) (width : Option Nat)
  | setRowHeight (sheetId : String) (row : Nat) (height : Option Nat)
  | merge (sheetId : String) (merge : SheetMerge)
  | unmerge (sheetId : String) (row col : Nat)
  | setSheetSettings (sheetId : String) (gridlines : Bool) (freezeRows freezeCols : Nat)
  | presence (sheetId : String) (row col : Nat)
deriving Repr, DecidableEq

/-- Requests of members and of the host's own interface. -/
inductive SharedMemoOp where
  | list (query : SharedMemoQuery)
  | get (id : String)
  | resolveTitles (titles : List String)
  | backlinks (id : String)
  | create (title body : String) (folderId : Option String)
  | update (id : String) (baseRevision : Nat) (title body : String)
  | acquireLock (id : String)
  | releaseLock (id : String)
  | forceUnlock (id : String)
  | trash (id : String)
  | restore (id : String)
  | deleteForever (id : String)
  | setPerms (id : String) (everyone : SharedPermLevel) (members : List SharedMemberPerm)
      (groups : Option (List SharedGroupPerm))
  | folderCreate (name : String)
  | folderRename (id name : String)
  | folderDelete (id : String)
  | historyList (id : String)
  | historyGet (id : String) (hid : Nat)
  | historyDiff (id : String) (fromHid : Nat) (toHid : Option Nat)
  | historyRestore (id : String) (hid : Nat)
  | saveVersion (id : String)
  | getLimits
  | setLimits (limits : SharedMemoLimits)
  | commentList (id : String)
  | commentAdd (id body : String)
  | commentDelete (id commentId : String)
  | schedule (schedule : ScheduleOp)
  | sheet (sheet : SheetOp)
  | permGroupList
deriving Repr, DecidableEq

inductive ScheduleReply where
  | events (events : List ScheduleEvent)
  | event (event : ScheduleEvent)
  | done
deriving Repr, DecidableEq

/-- Where another member's selection is. -/
structure SheetPresencePeer where
  name : String
  row : Nat
  col : Nat
deriving Repr, DecidableEq

inductive SheetReply where
  | sheets (sheets : List SheetMeta)
  | cellsData (sheetId : String) (cells : List SheetCell) (colWidths rowHeights : List (Nat × Nat))
      (merges : List SheetMerge) (presence : List SheetPresencePeer)
  | sheet (sheet : SheetMeta)
  | writeResult (applied : Nat) (conflicts : List SheetCell)
  | done
deriving Repr, DecidableEq

/-- A permission group with the addresses of its members. -/
structure PermGroup where
  id : String
  name : String
  members : List Ipv4Addr
deriving DecidableEq

inductive SharedMemoReply where
  | memos (memos : List SharedMemoSummary) (folders : List MemoFolder)
  | memo (memo : SharedMemoDetail)
  | titles (map : List (String × String))
  | history (entries : List SharedMemoHistoryEntry)
  | historyDetail (detail : SharedMemoHistoryDetail)
  | diff (old new : String)
  | limits (limits : SharedMemoLimits)
  | comments (comments : List SharedMemoComment)
  | comment (comment : SharedMemoComment)
  | done
  | schedule (reply : ScheduleReply)
  | sheet (reply : SheetReply)
  | permGroups (groups : List PermGroup)
deriving DecidableEq

inductive ScheduleEventMsg where
  | changed (event : ScheduleEvent)
  | removed (id : String)
deriving Repr, DecidableEq

inductive SheetEventMsg where
  | sheetChanged (sheet : SheetMeta)
  | sheetRemoved (sheetId : String)
  | cellsChanged (sheetId : String) (cells : List SheetCell)
  | layout (sheetId : String) (colWidths rowHeights : List (Nat × Nat))
  | merges (sheetId : String) (merges : List SheetMerge)
  | presence (sheetId : String) (peers : List SheetPresencePeer)
deriving Repr, DecidableEq

/-- Events the host sends to connected members. -/
inductive SharedMemoEvent where
  | changed (memo : SharedMemoDetail)
  | removed (id : String)
  | lock (id : String) (holder : Option String)
  | folders (folders : List MemoFolder)
  | schedule (schedule : ScheduleEventMsg)
  | sheet (sheet : SheetEventMsg)
deriving Repr, DecidableEq

/-- The memo an event identifies. -/
def SharedMemoEvent.memoId? : SharedMemoEvent → Option String
  | .changed memo => some memo.id
  | .removed id => some id
  | .lock id _ => some id
  | .folders _ => none
  | .schedule _ => none
  | .sheet _ => none

/-- What an operation on the database takes from outside: the time in milliseconds, a random id,
and the answers of the full-text index. -/
structure StoreEnv where
  now : Nat
  newId : String
  fts : String → MemoRow → Bool

namespace SharedStore

/-- The part of a schedule request that runs on the database. -/
def performSchedule (env : StoreEnv) (actor : Actor) : ScheduleOp → StoreOp ScheduleReply
  | .list => return .events (← scheduleList actor)
  | .create title note startUnixMs endUnixMs allDay participants =>
      return .event (← scheduleCreate env.now env.newId actor title note startUnixMs endUnixMs
        allDay participants)
  | .update id baseRevision title note startUnixMs endUnixMs allDay participants =>
      return .event (← scheduleUpdate env.now actor id baseRevision title note startUnixMs
        endUnixMs allDay participants)
  | .delete id => do
      scheduleDelete actor id
      return .done

/-- The part of a sheet request that runs on the database, with the cells to be announced. -/
def performSheet (env : StoreEnv) (actor : Actor) :
    SheetOp → StoreOp (SheetReply × List SheetMerge × List SheetCell)
  | .list => return (.sheets (← sheetList actor), [], [])
  | .cells sheetId => do
      let cells ← sheetCells sheetId
      let (colWidths, rowHeights) ← sheetLayout sheetId
      let merges ← sheetMerges sheetId
      return (.cellsData sheetId cells colWidths rowHeights merges [], [], [])
  | .create name => return (.sheet (← sheetCreate env.now env.newId actor name), [], [])
  | .rename sheetId name => return (.sheet (← sheetRename env.now actor sheetId name), [], [])
  | .delete sheetId => do
      sheetDelete actor sheetId
      return (.done, [], [])
  | .write sheetId cells => do
      let result ← sheetWrite env.now actor sheetId cells
      return (.writeResult result.applied result.conflicts, [], result.changed)
  | .setColWidth sheetId col width => do
      sheetSetColWidth sheetId col width
      return (.done, [], [])
  | .setRowHeight sheetId row height => do
      sheetSetRowHeight sheetId row height
      return (.done, [], [])
  | .merge sheetId merge => do
      let (merges, deleted) ← sheetMerge env.now actor sheetId merge
      return (.done, merges, deleted)
  | .unmerge sheetId row col => return (.done, ← sheetUnmerge sheetId row col, [])
  | .setSheetSettings sheetId gridlines freezeRows freezeCols =>
      return (.sheet (← sheetSetSettings actor sheetId gridlines freezeRows freezeCols), [], [])
  | .presence _ _ _ => return (.done, [], [])

/-- The part of a memo request that runs on the database.  Locks and groups are not stored there. -/
def perform (env : StoreEnv) (actor : Actor) : SharedMemoOp → StoreOp SharedMemoReply
  | .list query => do
      let (memos, folders) ← list env.fts actor query
      return .memos memos folders
  | .get id => return .memo (← get actor id)
  | .resolveTitles titles => return .titles (← resolveTitles actor titles)
  | .backlinks id => return .memos (← backlinks actor id) []
  | .create title body folderId =>
      return .memo (← create env.now env.newId actor title body folderId)
  | .update id baseRevision title body =>
      return .memo (← update env.now actor id baseRevision title body)
  | .acquireLock id => return .memo (← get actor id)
  | .releaseLock _ => return .done
  | .forceUnlock _ => return .done
  | .trash id => do
      trash env.now actor id
      return .done
  | .restore id => do
      restore actor id
      return .done
  | .deleteForever id => do
      deleteForever env.now actor id
      return .done
  | .setPerms id everyone members groups =>
      return .memo (← setPerms actor id everyone members groups)
  | .folderCreate name => do
      let _ ← folderCreate env.now env.newId actor name
      return .done
  | .folderRename id name => do
      folderRename actor id name
      return .done
  | .folderDelete id => do
      folderDelete actor id
      return .done
  | .historyList id => return .history (← historyList actor id)
  | .historyGet id hid => return .historyDetail (← historyGet actor id hid)
  | .historyDiff id fromHid toHid => do
      let (old, new) ← historyDiff actor id fromHid toHid
      return .diff old new
  | .historyRestore id hid => return .memo (← historyRestore env.now actor id hid)
  | .saveVersion id => do
      saveVersion env.now actor id
      return .done
  | .getLimits => return .limits (← limits)
  | .setLimits limits => do
      setLimits actor limits
      return .done
  | .commentList id => return .comments (← commentList actor id)
  | .commentAdd id body => return .comment (← commentAdd env.now env.newId actor id body)
  | .commentDelete id commentId => do
      commentDelete actor id commentId
      return .done
  | .schedule schedule => return .schedule (← performSchedule env actor schedule)
  | .sheet sheet => return .sheet (← performSheet env actor sheet).1
  | .permGroupList => return .done

end SharedStore

end PeerCove
