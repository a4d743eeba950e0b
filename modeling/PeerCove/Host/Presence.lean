/-
Module: PeerCove.Host.Presence
Layer: Host
Purpose: Selections in sheets from end to end: the host's table of them, the lists it makes and sends
  to the members' connections, and the lists that the members keep.
Trusted boundary: the configuration does not change; sends to a connection do not fail
Main exports: OwnedPeer, presentOn, PresenceSystem, PresenceEvent, presenceStep, NotToItself,
  Followed, PresenceSystem.Settled
-/
import PeerCove.Host.ServiceTasks
import PeerCove.Library.LastWrite
import PeerCove.Library.Runs

namespace PeerCove

/-- One entry of a list, with the key of the actor it belongs to.  The key is not sent, and no step
depends on it. -/
abbrev OwnedPeer := String × SheetPresencePeer

def SheetPresenceEntry.peer (entry : SheetPresenceEntry) : SheetPresencePeer where
  name := entry.name
  row := entry.row
  col := entry.col

def SheetPresenceEntry.expired (entry : SheetPresenceEntry) (instant : Nat) : Bool :=
  instant - entry.seen > SHEET_PRESENCE_TTL

/-- The list of a sheet, with the keys. -/
def presentOn (instant : Nat) (sheetId : String) (excludeKey : Option String)
    (presence : Table String SheetPresenceEntry) : List OwnedPeer :=
  (presence.filter (fun key entry =>
    entry.sheetId = sheetId && ¬ entry.expired instant && excludeKey ≠ some key)).rows.map
      (fun (key, entry) => (key, entry.peer))

/-- A sheet whose list is to be sent to everybody but the sender. -/
structure Announcement where
  sheetId : String
  senderKey : Option String
deriving Repr, DecidableEq

/-- The same, when the connections have been looked up. -/
structure Listing extends Announcement where
  targets : List Connection
deriving DecidableEq

/-- A list, and the connections that it is still to be sent to. -/
structure Broadcast where
  sheetId : String
  peers : List OwnedPeer
  receivers : List Connection
deriving DecidableEq

/-- A list in an event. -/
abbrev PresenceList := String × List OwnedPeer

/-- The member's side of a connection: lists that were sent and not read, and `sheet_presence` of
`MemberMemoCache`. -/
structure MemberLists where
  unread : List PresenceList := []
  lists : String → List OwnedPeer := fun _ => []

structure PresenceSystem where
  service : MemoService
  instant : Nat := 0
  announced : List Announcement := []
  lookedUp : List Listing := []
  broadcasts : List Broadcast := []
  members : Ipv4Addr → MemberLists := fun _ => {}
  /-- Everything sent so far. -/
  sent : List (Connection × PresenceList) := []

inductive PresenceEvent where
  /-- A member connects with the lists it has kept. -/
  | connect (ip : Ipv4Addr) (capabilities : List String) (kept : String → List OwnedPeer)
  | disconnect (connection : Connection)
  | presence (actor : Actor) (sheetId : String) (row col : Nat)
  | sweep
  /-- The next section of a broadcast: the connections, the list, one send. -/
  | lookUp (place : Nat)
  | list (place : Nat)
  | send (place : Nat)
  /-- A member reads an event. -/
  | deliver (ip : Ipv4Addr)
  | wait (milliseconds : Nat)

/-- Whether the task of `broadcast_sheet_presence` sends to an address. -/
def sendsTo (config : Config) (senderKey : Option String) (ip : Ipv4Addr) : Bool :=
  match actorForIp config ip with
  | .error _ => false
  | .ok actor => senderKey ≠ some actor.key

namespace PresenceSystem

/-- The selection of an actor, and its announcement. -/
def present (actor : Actor) (sheetId : String) (row col : Nat) (system : PresenceSystem) :
    PresenceSystem :=
  { system with
    service := system.service.setPresence (system.service.sheetPresence.insert actor.key
      { sheetId := sheetId, row := row, col := col, name := actor.name, seen := system.instant })
    announced := system.announced ++ [{ sheetId := sheetId, senderKey := some actor.key }] }

/-- `sweep_sheet_presence`. -/
def sweep (system : PresenceSystem) : PresenceSystem :=
  { system with
    service := system.service.setPresence (system.service.sheetPresence.filter (fun _ entry =>
      ¬ entry.expired system.instant))
    announced := system.announced ++
      (ServiceTask.stalePresence system.instant system.service.sheetPresence).map (fun sheetId =>
        { sheetId := sheetId, senderKey := none }) }

/-- The connections an announcement is for; without any it ends. -/
def lookUp (announcement : Announcement) (system : PresenceSystem) : List Listing :=
  if system.service.memoConnections = [] then []
  else [{ toAnnouncement := announcement, targets := system.service.memoConnections }]

/-- The list, and the task that sends it. -/
def broadcast (listing : Listing) (system : PresenceSystem) : Broadcast where
  sheetId := listing.sheetId
  peers := presentOn system.instant listing.sheetId none system.service.sheetPresence
  receivers := listing.targets.filter (fun target =>
    sendsTo system.service.config listing.senderKey target.ip)

/-- An event is put into the outbox of a connection; nobody reads that of a replaced one. -/
def send (connection : Connection) (list : PresenceList) (system : PresenceSystem) :
    PresenceSystem :=
  { system with
    members :=
      if system.service.isCurrent connection then
        Function.update system.members connection.ip
          { system.members connection.ip with
            unread := (system.members connection.ip).unread ++ [list] }
      else system.members
    sent := system.sent ++ [(connection, list)] }

end PresenceSystem

/-- `apply_event` on a list. -/
def MemberLists.apply (list : PresenceList) (member : MemberLists) : MemberLists :=
  { member with lists := LastWrite.overwrite member.lists list }

def presenceStep : PresenceEvent → PresenceSystem → Option PresenceSystem
  | .connect ip capabilities kept, system =>
      some
        { system with
          service := system.service.register ip capabilities
          members := Function.update system.members ip { lists := kept } }
  | .disconnect connection, system =>
      some { system with service := system.service.unregister connection }
  | .presence actor sheetId row col, system => some (system.present actor sheetId row col)
  | .sweep, system => some system.sweep
  | .lookUp place, system =>
      (Tasks.at? place system.announced).map (fun (before, announcement, after) =>
        { system with
          announced := before ++ after
          lookedUp := system.lookedUp ++ system.lookUp announcement })
  | .list place, system =>
      (Tasks.at? place system.lookedUp).map (fun (before, listing, after) =>
        { system with
          lookedUp := before ++ after
          broadcasts := system.broadcasts ++ [system.broadcast listing] })
  | .send place, system =>
      match Tasks.at? place system.broadcasts with
      | some (before, ⟨sheetId, peers, receiver :: receivers⟩, after) =>
          some (PresenceSystem.send receiver (sheetId, peers)
            { system with broadcasts := before ++ ⟨sheetId, peers, receivers⟩ :: after })
      | _ => none
  | .deliver ip, system =>
      match (system.members ip).unread with
      | [] => none
      | list :: unread =>
          some
            { system with
              members := Function.update system.members ip
                (MemberLists.apply list { system.members ip with unread := unread }) }
  | .wait milliseconds, system =>
      some { system with instant := system.instant + milliseconds }

/-- The host as it starts, and nobody else. -/
def PresenceSystem.start (service : MemoService) : PresenceSystem where
  service := service

/-- All broadcasts have ended, all events have been read, and no selection waits to be swept. -/
structure PresenceSystem.Settled (system : PresenceSystem) : Prop where
  announced : system.announced = []
  lookedUp : system.lookedUp = []
  broadcasts : ∀ broadcast ∈ system.broadcasts, broadcast.receivers = []
  read : ∀ connection ∈ system.service.memoConnections, (system.members connection.ip).unread = []
  swept : ∀ item ∈ system.service.sheetPresence.rows, item.2.expired system.instant = false

/-! ### Conditions -/

namespace PresenceSystem

/-- Whether the actor with a key is on a sheet, as the host shows it. -/
def isOn (system : PresenceSystem) (key sheetId : String) : Bool :=
  (system.service.sheetPresence.get? key).any (fun entry =>
    entry.sheetId = sheetId && ¬ entry.expired system.instant)

/-- A list that shows the actor with a key the others on a sheet.  It may still show selections that
have expired since and wait to be swept. -/
structure Shows (system : PresenceSystem) (key sheetId : String) (list : List OwnedPeer) :
    Prop where
  nodup : (list.map Prod.fst).Nodup
  others : ∀ item ∈ list, item.1 ≠ key ∧
    ∃ entry, system.service.sheetPresence.get? item.1 = some entry ∧ entry.sheetId = sheetId ∧
      item.2 = entry.peer
  complete : ∀ owner entry, system.service.sheetPresence.get? owner = some entry →
    entry.sheetId = sheetId → owner ≠ key → entry.expired system.instant = false →
      (owner, entry.peer) ∈ list

end PresenceSystem

/-- When a list is made, no member it will be sent to is on the sheet itself. -/
def NotToItself : PresenceEvent → PresenceSystem → Prop
  | .list place, system =>
      ∀ found ∈ Tasks.at? place system.lookedUp, ∀ target ∈ found.2.1.targets,
        ∀ actor ∈ (actorForIp system.service.config target.ip).toOption,
          found.2.1.senderKey ≠ some actor.key →
            system.isOn actor.key found.2.1.sheetId = false
  | _, _ => True

instance : ∀ (event : PresenceEvent) (system : PresenceSystem), Decidable (NotToItself event system)
  | .list place, system =>
      inferInstanceAs (Decidable (∀ found ∈ Tasks.at? place system.lookedUp,
        ∀ target ∈ found.2.1.targets,
          ∀ actor ∈ (actorForIp system.service.config target.ip).toOption,
            found.2.1.senderKey ≠ some actor.key →
              system.isOn actor.key found.2.1.sheetId = false))
  | .connect .., _ | .disconnect _, _ | .presence .., _ | .sweep, _ | .lookUp _, _ | .send _, _
  | .deliver _, _ | .wait _, _ => inferInstanceAs (Decidable True)

/-- A selection does not move from one sheet to another while the host holds it; lists are made for
others only, and those of one sheet are sent to a connection in the order they were made. -/
def Steady : PresenceEvent → PresenceSystem → Prop
  | .presence actor sheetId _ _, system =>
      ∀ entry ∈ system.service.sheetPresence.get? actor.key, entry.sheetId = sheetId
  | .list place, system => NotToItself (.list place) system
  | .send place, system =>
      ∀ found ∈ Tasks.at? place system.broadcasts, ∀ receiver ∈ found.2.1.receivers.head?,
        ∀ earlier ∈ found.1, receiver ∈ earlier.receivers → earlier.sheetId ≠ found.2.1.sheetId
  | _, _ => True

instance : ∀ (event : PresenceEvent) (system : PresenceSystem), Decidable (Steady event system)
  | .presence actor sheetId _ _, system =>
      inferInstanceAs (Decidable (∀ entry ∈ system.service.sheetPresence.get? actor.key,
        entry.sheetId = sheetId))
  | .list place, system => inferInstanceAs (Decidable (NotToItself (.list place) system))
  | .send place, system =>
      inferInstanceAs (Decidable (∀ found ∈ Tasks.at? place system.broadcasts,
        ∀ receiver ∈ found.2.1.receivers.head?, ∀ earlier ∈ found.1,
          receiver ∈ earlier.receivers → earlier.sheetId ≠ found.2.1.sheetId))
  | .connect .., _ | .disconnect _, _ | .sweep, _ | .lookUp _, _ | .deliver _, _ | .wait _, _ =>
      inferInstanceAs (Decidable True)

/-- A member that connects has kept the lists of those who are there. -/
def Informed : PresenceEvent → PresenceSystem → Prop
  | .connect ip capabilities kept, system =>
      capabilities.contains "shared_memo" →
        ∀ actor ∈ (actorForIp system.service.config ip).toOption,
          ∀ sheetId, system.Shows actor.key sheetId (kept sheetId)
  | _, _ => True

/-- The condition under which the members' lists follow the host's table. -/
def Followed (event : PresenceEvent) (system : PresenceSystem) : Prop :=
  Steady event system ∧ Informed event system

end PeerCove
