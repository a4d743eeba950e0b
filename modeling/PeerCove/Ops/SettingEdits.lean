/-
Module: PeerCove.Ops.SettingEdits
Layer: Operations
Purpose: The operations on the members and the settings of a host one after the other, and the
  change of one setting.
Trusted boundary: nobody else writes `host.toml` meanwhile
Main exports: SettingOp, SettingOp.step, SettingChange
-/
import PeerCove.Host.Admin
import PeerCove.Ops.Naming

namespace PeerCove

open Fallible FilePrograms

/-- `set_peer_display_name_by_ip`. -/
def setPeerDisplayNameByIp (memberIp : Ipv4Addr) (input : String) : HostProgram String := do
  let name := Text.trim input
  HostProgram.renamePeer (.ip memberIp) name
  return name

inductive SettingOp where
  | renamePeer (selector : Selector) (newName : String)
  | setPeerDisplayNameByIp (memberIp : Ipv4Addr) (input : String)
  | setPeerDnsName (selector : Selector) (input : String)
  | removePeer (selector : Selector)
  | setSubnets (selector : Selector) (subnets : List Ipv4Net)
  | update (values : Update)

/-- The configuration after an operation that succeeds. -/
def SettingOp.step (op : SettingOp) (config : Config) : Option Config :=
  match op with
  | .renamePeer selector newName =>
      succeeded ((HostProgram.renamePeer selector newName).alone config)
  | .setPeerDisplayNameByIp memberIp input =>
      succeeded ((PeerCove.setPeerDisplayNameByIp memberIp input).alone config)
  | .setPeerDnsName selector input =>
      succeeded ((HostProgram.setPeerDnsName selector input).alone config)
  | .removePeer selector => succeeded ((HostProgram.removePeer selector).alone config)
  | .setSubnets selector subnets =>
      succeeded ((HostProgram.setSubnets selector subnets).alone config)
  | .update values => succeeded (values.apply.alone config)

/-- A value for one of the settings that an admin may change. -/
inductive SettingChange where
  | requireInviteApproval (value : Bool)
  | memberInvites (value : Bool)
  | direct (value : Bool)
  | autoConnect (value : Bool)
  | networkDisplayName (text : Option String)

namespace SettingChange

/-- The values that are written back. -/
def change : SettingChange → Update → Update
  | .requireInviteApproval value, update => { update with requireInviteApproval := value }
  | .memberInvites value, update => { update with memberInvites := value }
  | .direct value, update => { update with direct := value }
  | .autoConnect value, update => { update with autoConnect := value }
  | .networkDisplayName text, update => { update with networkDisplayName := text }

/-- The section with only that value changed. -/
def result : SettingChange → InterfaceConfig → InterfaceConfig
  | .requireInviteApproval value, interface => { interface with requireInviteApproval := value }
  | .memberInvites value, interface => { interface with memberInvites := value }
  | .direct value, interface => { interface with direct := value }
  | .autoConnect value, interface => { interface with autoConnect := value }
  | .networkDisplayName text, interface => { interface with networkDisplayName := entered text }

/-- A name of a network is at most 64 characters without control characters, or none. -/
def Valid : SettingChange → Prop
  | .networkDisplayName text =>
      ((entered text).forM checkNetworkDisplayName : Except String Unit) = .ok ()
  | _ => True

end SettingChange

end PeerCove
