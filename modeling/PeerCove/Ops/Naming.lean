/-
Module: PeerCove.Ops.Naming
Layer: Operations
Purpose: The operations that change names in a host's configuration, one after the other: records,
  members, and the host itself.
Trusted boundary: nobody else writes `host.toml` meanwhile; the files beside it are not looked at
Main exports: setHostDnsName, NameOp, NameOp.step
-/
import PeerCove.Ops.DnsRecords
import PeerCove.Ops.HostPrograms
import PeerCove.Ops.Invite

namespace PeerCove

open Fallible FilePrograms

/-- `set_host_dns_name`. -/
def setHostDnsName (input : String) : HostProgram String := do
  let label ← (Names.normalizeDnsName input true).mapError Names.DnsNameError.message
  let config ← loadConfig
  if config.interface.dnsName = some label then
    return label
  else do
    refuseIf (label ∈ takenDnsLabels config .host)
      s!"DNS 名「{label}」はこのネットワークで既に使用されています"
    Program.write (fun doc =>
      writeValidated { doc with interface := { doc.interface with dnsName := some label } })
    return label

inductive NameOp where
  | addRecord (record : NewRecord) (stamp : Nat)
  | removeRecord (name : String) (under : Option MemberRef)
  | setPeerDnsName (selector : Selector) (input : String)
  | setHostDnsName (input : String)
  | invite (options : InviteOptions) (io : InviteIo)
  | renamePeer (selector : Selector) (newName : String)
  | removePeer (selector : Selector)

/-- What a program that succeeds leaves in the file. -/
def succeeded {α : Type} (outcome : Except String α × Config) : Option Config :=
  match outcome.1 with
  | .ok _ => some outcome.2
  | .error _ => none

namespace NameOp

section

variable (publicKey : PrivateKey → PublicKey) (escaped : Char → Bool)
  (base64 : List UInt8 → String)

/-- `invite` beside the file alone. -/
def inviteStep (options : InviteOptions) (io : InviteIo) (config : Config) : Option Config :=
  let files : HostFiles := { hostToml := some config, psk := fun _ => none }
  match PeerCove.invite publicKey escaped base64 io options files with
  | (.ok _, left) => left.hostToml
  | (.error _, _) => none

/-- The configuration after an operation that succeeds. -/
def step (op : NameOp) (config : Config) : Option Config :=
  match op with
  | .addRecord record stamp => succeeded ((PeerCove.addRecord record stamp).alone config)
  | .removeRecord name under => succeeded ((PeerCove.removeRecord name under).alone config)
  | .setPeerDnsName selector input =>
      succeeded ((HostProgram.setPeerDnsName selector input).alone config)
  | .setHostDnsName input => succeeded ((PeerCove.setHostDnsName input).alone config)
  | .invite options io => inviteStep publicKey escaped base64 options io config
  | .renamePeer selector newName =>
      succeeded ((HostProgram.renamePeer selector newName).alone config)
  | .removePeer selector => succeeded ((HostProgram.removePeer selector).alone config)

end

end NameOp

end PeerCove
