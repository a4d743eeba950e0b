/-
Module: PeerCove.Chat.Groups
Layer: Chat
Purpose: The chat groups a device knows: which updates it takes from whom, who has acknowledged what,
  and the edits of its own.
Trusted boundary: the file of the groups is written in full or not at all
Main exports: GroupInfo, GroupStore, GroupStore.acceptsUpdate, GroupStore.apply,
  GroupStore.markAcked, GroupStore.pendingSync, groupCreate, groupUpdate, groupLeave, pruneGroup
-/
import PeerCove.Core.Net
import PeerCove.Core.Text
import PeerCove.Library.Fallible
import Mathlib.Data.Prod.Lex
import Mathlib.Logic.Function.Basic

namespace PeerCove

open Fallible

def MAX_GROUP_NAME_BYTES : Nat := 256

def MAX_GROUP_MEMBERS : Nat := 250

structure GroupInfo where
  id : String
  name : String
  /-- With the author of the group. -/
  members : List Ipv4Addr
  revision : Nat
  updatedBy : Ipv4Addr
deriving DecidableEq

namespace GroupInfo

/-- Versions are ordered by revision, then by author. -/
def rank (group : GroupInfo) : ℕ ×ₗ ℕ :=
  toLex (group.revision, group.updatedBy.toNat)

/-- Whether a version replaces another one. -/
def newerThan (group current : GroupInfo) : Bool :=
  group.revision > current.revision ||
    (group.revision = current.revision && group.updatedBy.toNat > current.updatedBy.toNat)

end GroupInfo

/-! ### The store -/

/-- The known groups by their id, with the delivery state that is kept in memory. -/
structure GroupStore where
  known : List String := []
  groups : String → Option GroupInfo := fun _ => none
  /-- The revision a peer has acknowledged. -/
  acked : String → Ipv4Addr → Nat := fun _ _ => 0
  lastAttempt : String → Ipv4Addr → Option Nat := fun _ _ => none
  listed : ∀ id group, groups id = some group → id ∈ known := by intros; contradiction
  keyed : ∀ id group, groups id = some group → group.id = id := by intros; contradiction

namespace GroupStore

/-- Whether an update from `sender` may be taken. -/
def acceptsUpdate (store : GroupStore) (group : GroupInfo) (sender : Ipv4Addr) : Bool :=
  match store.groups group.id with
  | some current => current.members.contains sender
  | none => group.members.contains sender

/-- Whether a version is newer than the one at hand. -/
def isNewer (store : GroupStore) (group : GroupInfo) : Bool :=
  match store.groups group.id with
  | none => true
  | some current => group.newerThan current

/-- `groups.insert`. -/
def insert (store : GroupStore) (group : GroupInfo) : GroupStore :=
  { store with
    known := if group.id ∈ store.known then store.known else store.known ++ [group.id]
    groups := Function.update store.groups group.id (some group)
    listed := by
      intro id other found
      by_cases same : id = group.id
      · subst same
        split
        · assumption
        · exact List.mem_append_right _ List.mem_cons_self
      · rw [Function.update_of_ne same] at found
        have before := store.listed id other found
        split
        · exact before
        · exact List.mem_append_left _ before
    keyed := by
      intro id other found
      by_cases same : id = group.id
      · subst same
        rw [Function.update_self] at found
        cases found
        rfl
      · rw [Function.update_of_ne same] at found
        exact store.keyed id other found }

/-- `apply`: the newest revision wins, of two equal ones that of the higher address.  The result is
the store and whether the version was taken. -/
def apply (store : GroupStore) (group : GroupInfo) : GroupStore × Bool :=
  if store.isNewer group then (store.insert group, true) else (store, false)

def markAcked (store : GroupStore) (id : String) (peer : Ipv4Addr) (revision : Nat) : GroupStore :=
  { store with
    acked := fun other ip =>
      if other = id ∧ ip = peer then max (store.acked id peer) revision else store.acked other ip }

/-- Whom a group is to be sent to: the other members, and the host where it is none of them. -/
def syncTargets (selfIp : Ipv4Addr) (hostIp : Option Ipv4Addr) (group : GroupInfo) :
    List Ipv4Addr :=
  let targets := group.members.filter (fun ip => ip ≠ selfIp)
  match hostIp with
  | some host => if host ≠ selfIp ∧ host ∉ targets then targets ++ [host] else targets
  | none => targets

/-- Whether a group is due for a peer: no acknowledgement of this revision, and no attempt just now. -/
def isDue (store : GroupStore) (online : List Ipv4Addr) (now retryAfter : Nat) (group : GroupInfo)
    (peer : Ipv4Addr) : Bool :=
  online.contains peer && store.acked group.id peer < group.revision &&
    (store.lastAttempt group.id peer).all (fun at_ => retryAfter ≤ now - at_)

/-- `pending_sync`: what is to be sent to whom, with the attempts on record. -/
def pendingSync (store : GroupStore) (selfIp : Ipv4Addr) (online : List Ipv4Addr)
    (now retryAfter : Nat) (hostIp : Option Ipv4Addr) :
    List (Ipv4Addr × GroupInfo) × GroupStore :=
  let own := (store.known.filterMap store.groups).filter (fun group =>
    group.members.contains selfIp)
  let out := own.flatMap (fun group =>
    ((syncTargets selfIp hostIp group).filter (store.isDue online now retryAfter group)).map
      (fun peer => (peer, group)))
  (out, { store with
    lastAttempt := fun id peer =>
      if out.any (fun due => due.1 = peer && due.2.id = id) then some now
      else store.lastAttempt id peer })

end GroupStore

/-! ### Edits -/

/-- What the edits read of the ledger. -/
structure GroupLedgerEntry where
  ip : Ipv4Addr
  online : Bool
deriving DecidableEq

/-- `valid_group_name`. -/
def validGroupName (name : String) : Except String String := do
  refuseIf (Text.trim name = "") "グループ名が空です"
  refuseIf (Text.len (Text.trim name) > MAX_GROUP_NAME_BYTES) "グループ名が長すぎます"
  return Text.trim name

/-- One more member, who has to be in the ledger. -/
def addMember (ledger : List GroupLedgerEntry) (members : List Ipv4Addr) (ip : Ipv4Addr) :
    Except String (List Ipv4Addr) :=
  if members.contains ip then .ok members
  else if ledger.any (fun entry => entry.ip = ip) then .ok (members ++ [ip])
  else .error s!"{ip.display} はこのネットワークのメンバーにいません"

/-- `group_create`. -/
def groupCreate (selfIp : Ipv4Addr) (ledger : List GroupLedgerEntry) (id name : String)
    (members : List Ipv4Addr) : Except String GroupInfo := do
  let name ← validGroupName name
  let members ← members.foldlM (addMember ledger) [selfIp]
  refuseIf (members.length < 2) "グループに入れるメンバーを 1 人以上選んでください"
  refuseIf (members.length > MAX_GROUP_MEMBERS)
    s!"グループのメンバーが多すぎます(上限 {MAX_GROUP_MEMBERS} 人)"
  return { id := id, name := name, members := members, revision := 1, updatedBy := selfIp }

/-- A new version by `selfIp`. -/
def GroupInfo.revise (group : GroupInfo) (selfIp : Ipv4Addr) (name : String)
    (members : List Ipv4Addr) : GroupInfo :=
  { group with
    name := name
    members := members
    revision := group.revision + 1
    updatedBy := selfIp }

/-- `group_update`: another name, members added, members taken out. -/
def groupUpdate (selfIp : Ipv4Addr) (ledger : List GroupLedgerEntry) (name : Option String)
    (add remove : List Ipv4Addr) (group : GroupInfo) : Except String GroupInfo := do
  refuseIf (group.members.contains selfIp = false) "このグループのメンバーではありません"
  let name ← name.elim (.ok group.name) validGroupName
  let members ← add.foldlM (addMember ledger) group.members
  refuseIf (remove.contains selfIp) "自分は外せません(「退出」を使ってください)"
  let members := members.filter (fun ip => !remove.contains ip)
  refuseIf (members.length > MAX_GROUP_MEMBERS)
    s!"グループのメンバーが多すぎます(上限 {MAX_GROUP_MEMBERS} 人)"
  return group.revise selfIp name members

/-- `group_leave`. -/
def groupLeave (selfIp : Ipv4Addr) (group : GroupInfo) : Except String GroupInfo := do
  refuseIf (group.members.contains selfIp = false) "このグループのメンバーではありません"
  return group.revise selfIp group.name (group.members.filter (fun ip => ip ≠ selfIp))

/-- `prune_departed`, for one group. -/
def pruneGroup (selfIp : Ipv4Addr) (departed : List Ipv4Addr) (group : GroupInfo) :
    Option GroupInfo :=
  if group.members.contains selfIp && group.members.any (fun ip => departed.contains ip) then
    some (group.revise selfIp group.name
      (group.members.filter (fun ip => !departed.contains ip)))
  else none

/-- `propagate_group`: who is sent a new version at once. -/
def propagateTargets (ledger : List GroupLedgerEntry) (selfIp : Ipv4Addr)
    (recipients : List Ipv4Addr) : List Ipv4Addr :=
  (ledger.filter (fun entry =>
    entry.ip ≠ selfIp && entry.online && recipients.contains entry.ip)).map GroupLedgerEntry.ip

/-- The recipients of an edit, with the host. -/
def withHost (hostIp : Option Ipv4Addr) (recipients : List Ipv4Addr) : List Ipv4Addr :=
  match hostIp with
  | some host => if recipients.contains host then recipients else recipients ++ [host]
  | none => recipients

end PeerCove
