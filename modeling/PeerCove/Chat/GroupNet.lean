/-
Module: PeerCove.Chat.GroupNet
Layer: Chat
Purpose: The devices of a network with their group stores and the group updates under way between
  them: edits, the periodic sync, deliveries, acknowledgements and losses in any order.
Trusted boundary: ids of new groups are unused; the address of a device that is gone stays unused
Main exports: GroupDraft, Transmission, GroupNet, GroupEvent, GroupNet.receive, GroupNet.step
-/
import PeerCove.Chat.Groups

namespace PeerCove

/-- An edit that is computed and not yet applied: `group_update` reads the store and writes it under
two locks. -/
structure GroupDraft where
  author : Ipv4Addr
  before : GroupInfo
  after : GroupInfo
  targets : List Ipv4Addr
deriving DecidableEq

/-- `send_group_update` under way. -/
structure Transmission where
  sender : Ipv4Addr
  target : Ipv4Addr
  group : GroupInfo
deriving DecidableEq

/-- An edit that was made, from which version (history). -/
structure GroupRevision where
  before : Option GroupInfo
  after : GroupInfo
deriving DecidableEq

structure GroupNet where
  stores : Ipv4Addr → GroupStore := fun _ => {}
  gone : Ipv4Addr → Bool := fun _ => false
  drafts : List GroupDraft := []
  /-- Sent, not yet received. -/
  inFlight : List Transmission := []
  /-- Received, the acknowledgement under way. -/
  answered : List Transmission := []
  history : List GroupRevision := []

inductive GroupEdit where
  | update (name : Option String) (add remove : List Ipv4Addr)
  | leave
  | prune (departed : List Ipv4Addr)

inductive GroupEvent where
  | create (author : Ipv4Addr) (id name : String) (members : List Ipv4Addr)
      (ledger : List GroupLedgerEntry)
  | draft (author : Ipv4Addr) (id : String) (edit : GroupEdit) (ledger : List GroupLedgerEntry)
  | publish (draft : GroupDraft)
  | sync (device : Ipv4Addr) (online : List Ipv4Addr) (now retryAfter : Nat)
  | deliver (transmission : Transmission)
  | acknowledge (transmission : Transmission)
  | lose (transmission : Transmission)
  | loseAnswer (transmission : Transmission)
  | depart (device : Ipv4Addr)

/-- The new version, and the recipients without those who are offline. -/
def GroupEdit.compute (edit : GroupEdit) (selfIp : Ipv4Addr) (hostIp : Option Ipv4Addr)
    (ledger : List GroupLedgerEntry) (group : GroupInfo) :
    Option (GroupInfo × List Ipv4Addr) :=
  match edit with
  | .update name add remove =>
      match groupUpdate selfIp ledger name add remove group with
      | .ok after => some (after, withHost hostIp (after.members ++ remove))
      | .error _ => none
  | .leave =>
      match groupLeave selfIp group with
      | .ok after => some (after, withHost hostIp after.members)
      | .error _ => none
  | .prune departed => (pruneGroup selfIp departed group).map (fun after => (after, after.members))

namespace GroupNet

variable (hostOf : Ipv4Addr → Option Ipv4Addr)

/-- The versions of a group that were made. -/
def versions (net : GroupNet) : List GroupInfo :=
  net.history.map GroupRevision.after

def setStore (net : GroupNet) (device : Ipv4Addr) (store : GroupStore) : GroupNet :=
  { net with stores := Function.update net.stores device store }

/-- The frame limits, then `accepts_update`, `mark_acked` and `apply`. -/
def receive (store : GroupStore) (sender : Ipv4Addr) (group : GroupInfo) : Option GroupStore :=
  if group.id = "" ∨ group.name = "" ∨ Text.len group.name > MAX_GROUP_NAME_BYTES ∨
      group.members.length > MAX_GROUP_MEMBERS then none
  else if store.acceptsUpdate group sender then
    some ((store.markAcked group.id sender group.revision).apply group).1
  else none

/-- A version is applied at its author and sent out. -/
def announce (net : GroupNet) (author : Ipv4Addr) (revision : GroupRevision)
    (targets : List Ipv4Addr) : GroupNet :=
  { net.setStore author ((net.stores author).apply revision.after).1 with
    inFlight := net.inFlight ++ targets.map (fun target =>
      { sender := author, target := target, group := revision.after })
    history := net.history ++ [revision] }

def step (event : GroupEvent) (net : GroupNet) : Option GroupNet :=
  match event with
  | .create author id name members ledger =>
      match groupCreate author ledger id name members with
      | .error _ => none
      | .ok group =>
          if net.gone author ∨ id = "" ∨ ∃ version ∈ net.versions, version.id = id then none
          else
            some (net.announce author { before := none, after := group }
              (propagateTargets ledger author (withHost (hostOf author) group.members)))
  | .draft author id edit ledger =>
      if net.gone author then none
      else
        match (net.stores author).groups id with
        | none => none
        | some before =>
            match edit.compute author (hostOf author) ledger before with
            | none => none
            | some (after, recipients) =>
                some { net with
                  drafts := net.drafts ++ [{
                    author := author
                    before := before
                    after := after
                    targets := propagateTargets ledger author recipients }] }
  | .publish draft =>
      if draft ∈ net.drafts ∧ net.gone draft.author = false then
        some { net.announce draft.author { before := some draft.before, after := draft.after }
            draft.targets with
          drafts := net.drafts.erase draft }
      else none
  | .sync device online now retryAfter =>
      if net.gone device then none
      else
        let due := (net.stores device).pendingSync device online now retryAfter (hostOf device)
        some { net.setStore device due.2 with
          inFlight := net.inFlight ++ due.1.map (fun entry =>
            { sender := device, target := entry.1, group := entry.2 }) }
  | .deliver transmission =>
      if transmission ∈ net.inFlight ∧ net.gone transmission.target = false then
        let rest := { net with inFlight := net.inFlight.erase transmission }
        match receive (net.stores transmission.target) transmission.sender transmission.group with
        | none => some rest
        | some store =>
            some { rest.setStore transmission.target store with
              answered := net.answered ++ [transmission] }
      else none
  | .acknowledge transmission =>
      if transmission ∈ net.answered ∧ net.gone transmission.sender = false then
        some { net.setStore transmission.sender ((net.stores transmission.sender).markAcked
            transmission.group.id transmission.target transmission.group.revision) with
          answered := net.answered.erase transmission }
      else none
  | .lose transmission =>
      if transmission ∈ net.inFlight then
        some { net with inFlight := net.inFlight.erase transmission }
      else none
  | .loseAnswer transmission =>
      if transmission ∈ net.answered then
        some { net with answered := net.answered.erase transmission }
      else none
  | .depart device =>
      some { net.setStore device {} with gone := Function.update net.gone device true }

end GroupNet

end PeerCove
