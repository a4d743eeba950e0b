/-
Module: PeerCove.Chat.GroupEdits
Layer: Chat
Purpose: The edits of one device to its groups, each read and written under two locks, with group
  updates of other devices in between; the revision is a 64-bit number.
Trusted boundary: additions wrap where they overflow, as in a release build
Main exports: GroupDevice, GroupDeviceEvent, GroupDevice.step
-/
import PeerCove.Chat.GroupNet

namespace PeerCove

/-- `u64::MAX`. -/
def U64_MAX : Nat := 18446744073709551615

/-- The revision as the addition in a `u64` leaves it. -/
def GroupInfo.wrapped (group : GroupInfo) : GroupInfo :=
  { group with revision := group.revision % (U64_MAX + 1) }

/-- An edit between its two locks: the version that was read and the new one. -/
structure PendingEdit where
  before : GroupInfo
  after : GroupInfo
deriving DecidableEq

/-- What an edit reports when it is done, and whether `apply` took it. -/
structure EditReport where
  group : GroupInfo
  stored : Bool
deriving DecidableEq

structure GroupDevice where
  store : GroupStore := {}
  pending : List PendingEdit := []
  /-- Every edit that reported success (history). -/
  reports : List EditReport := []
  /-- Whether the next revision of a group did not fit (history). -/
  overflowed : Bool := false

inductive GroupDeviceEvent where
  | create (id name : String) (members : List Ipv4Addr) (ledger : List GroupLedgerEntry)
  /-- First lock: the group is read, and the new version computed from it. -/
  | read (id : String) (edit : GroupEdit) (ledger : List GroupLedgerEntry)
  /-- Second lock: the new version is applied, and reported in any case. -/
  | write (edit : PendingEdit)
  /-- A `GroupUpdate` frame; any `u64` may stand in it. -/
  | receive (sender : Ipv4Addr) (group : GroupInfo)

namespace GroupDevice

/-- `apply` and the report; the caller does not look at what `apply` says. -/
def commit (device : GroupDevice) (group : GroupInfo) : GroupDevice :=
  { device with
    store := (device.store.apply group).1
    reports := device.reports ++ [{ group := group, stored := (device.store.apply group).2 }] }

/-- The id of a new group is a random one. -/
def step (selfIp : Ipv4Addr) (event : GroupDeviceEvent) (device : GroupDevice) :
    Option GroupDevice :=
  match event with
  | .create id name members ledger =>
      match groupCreate selfIp ledger id name members with
      | .error _ => none
      | .ok group =>
          if (device.store.groups id).isSome then none else some (device.commit group)
  | .read id edit ledger =>
      match device.store.groups id with
      | none => none
      | some before =>
          match edit.compute selfIp none ledger before with
          | none => none
          | some (after, _) =>
              some { device with
                pending := device.pending ++ [{ before := before, after := after.wrapped }]
                overflowed := device.overflowed || decide (after.revision > U64_MAX) }
  | .write edit =>
      if edit ∈ device.pending then
        some { device.commit edit.after with pending := device.pending.erase edit }
      else none
  | .receive sender group =>
      if group.revision > U64_MAX then none
      else
        match GroupNet.receive device.store sender group with
        | none => some device
        | some store => some { device with store := store }

end GroupDevice

end PeerCove
