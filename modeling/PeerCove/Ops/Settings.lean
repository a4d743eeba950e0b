/-
Module: PeerCove.Ops.Settings
Layer: Operations
Purpose: The settings of the section `[interface]`, as the screens read them and write them back.
  An operation on `host.toml` is a program here that may load the file several times before it edits
  it under the lock.
Trusted boundary: the text of an endpoint and its address determine each other
Main exports: HostProgram, loadConfig, Settings, Update, Settings.read, Update.apply
-/
import PeerCove.Library.FilePrograms
import PeerCove.Ops.PeerEdits

namespace PeerCove

open Fallible FilePrograms

/-- A program on the configuration file; its errors are the texts of the answers. -/
abbrev HostProgram (α : Type) := Program Config String α

/-- `Config::load`. -/
def loadConfig : HostProgram Config := do
  let config ← Program.read
  config.validate
  return config

/-! ### Reading -/

structure Settings where
  interfaceName : String
  displayName : Option String
  dnsName : Option String
  networkDisplayName : Option String
  address : Ipv4Net
  listenPort : Option UInt16
  mtu : UInt16
  /-- In a member's configuration only. -/
  hostEndpoint : Option SocketAddr
  isMember : Bool
  direct : Bool
  maxRecvFileMb : UInt64
  requireInviteApproval : Bool
  memberInvites : Bool
  autoConnect : Bool
deriving DecidableEq

/-- A member's configuration has exactly one peer, and that has an endpoint. -/
def Config.hostEndpoint (config : Config) : Option SocketAddr :=
  match config.peers with
  | [peer] => peer.endpoint
  | _ => none

def Config.settings (config : Config) : Settings where
  interfaceName := config.interface.name
  displayName := config.interface.displayName
  dnsName := config.interface.dnsName
  networkDisplayName := config.interface.networkDisplayName
  address := config.interface.address
  listenPort := config.interface.listenPort
  mtu := config.interface.mtu
  hostEndpoint := config.hostEndpoint
  isMember := config.hostEndpoint.isSome
  direct := config.interface.direct
  maxRecvFileMb := UInt64.ofNat config.interface.maxRecvFileMb
  requireInviteApproval := config.interface.requireInviteApproval
  memberInvites := config.interface.memberInvites
  autoConnect := config.interface.autoConnect

/-- `settings::read`. -/
def Settings.read : HostProgram Settings := do
  let config ← loadConfig
  return config.settings

/-! ### Writing -/

/-- Every value that is written back. -/
structure Update where
  displayName : Option String
  dnsName : Option String
  networkDisplayName : Option String
  listenPort : Option UInt16
  mtu : UInt16
  hostEndpoint : Option SocketAddr
  direct : Bool
  maxRecvFileMb : UInt64
  requireInviteApproval : Bool
  memberInvites : Bool
  autoConnect : Bool
deriving DecidableEq

/-- `MTU_RANGE`. -/
def MTU_MIN : UInt16 := 576

def MTU_MAX : UInt16 := 1500

/-- A text as it is written: trimmed, and none when nothing is left of it. -/
def entered (text : Option String) : Option String :=
  (text.map Text.trim).filter (fun trimmed => trimmed ≠ "")

def checkNetworkDisplayName (name : String) : Except String Unit := do
  refuseIf (Text.charCount name > 64) "ネットワーク表示名は 64 文字以内にしてください"
  refuseIf (name.toList.any Text.isControl) "ネットワーク表示名に制御文字は使えません"

/-- The label the host is given; it loads the configuration to see whether the label is free. -/
def enteredDnsName (input : String) : HostProgram String := do
  let label ← (Names.normalizeDnsName input true).mapError Names.DnsNameError.message
  let config ← loadConfig
  refuseIf (label ∈ takenDnsLabels config .host)
    s!"DNS 名「{label}」はこのネットワークで既に使用されています"
  return label

/-- `i64::try_from`, with the greatest integer for what does not fit. -/
def tomlInteger (value : UInt64) : Fin (2 ^ 63) :=
  if fits : value.toNat < 2 ^ 63 then ⟨value.toNat, fits⟩ else ⟨2 ^ 63 - 1, by decide⟩

/-- The edits of `update` on `[interface]`.  The last two fields and the names are the host's. -/
def Update.interface (update : Update) (isMember : Bool) (displayName dnsName : Option String)
    (networkDisplayName : Option String) (interface : InterfaceConfig) : InterfaceConfig :=
  { interface with
    displayName := displayName
    dnsName := if isMember then interface.dnsName else dnsName
    networkDisplayName :=
      if isMember then interface.networkDisplayName else networkDisplayName
    listenPort := update.listenPort
    mtu := update.mtu
    direct := update.direct
    maxRecvFileMb := tomlInteger update.maxRecvFileMb
    autoConnect := update.autoConnect
    requireInviteApproval :=
      if isMember then interface.requireInviteApproval else update.requireInviteApproval
    memberInvites := if isMember then interface.memberInvites else update.memberInvites }

/-- A member's configuration has one peer, the host. -/
def setHostEndpoint (isMember : Bool) (endpoint : Option SocketAddr) (peers : List PeerConfig) :
    Except String (List PeerConfig) :=
  match isMember, endpoint, peers with
  | true, some _, [] => .error "[[peer]] が見つかりません"
  | true, some endpoint, peer :: rest => .ok ({ peer with endpoint := some endpoint } :: rest)
  | _, _, peers => .ok peers

/-- The host's fixed name as it is written; a member has none in its own configuration. -/
def writtenDnsName (isMember : Bool) (text : Option String) : HostProgram (Option String) :=
  match if isMember then none else entered text with
  | none => return none
  | some input => do
      let label ← enteredDnsName input
      return some label

/-- The edits of `update` on the document. -/
def Update.edit (update : Update) (isMember : Bool) (displayName dnsName : Option String)
    (networkDisplayName : Option String) (doc : Config) : Except String Config := do
  let peers ← setHostEndpoint isMember update.hostEndpoint doc.peers
  writeValidated { doc with
    interface := update.interface isMember displayName dnsName networkDisplayName doc.interface
    peers := peers }

/-- `settings::update`. -/
def Update.apply (update : Update) : HostProgram Unit := do
  refuseIf (update.mtu < MTU_MIN ∨ MTU_MAX < update.mtu)
    s!"MTU は {MTU_MIN}〜{MTU_MAX} の範囲で指定してください(既定 1420)"
  refuseIf (update.listenPort = some 0) "待受ポートに 0 は指定できません"
  let displayName := entered update.displayName
  (displayName.forM validateName : Except String Unit)
  let current ← Settings.read
  let networkDisplayName := if current.isMember then none else entered update.networkDisplayName
  (networkDisplayName.forM checkNetworkDisplayName : Except String Unit)
  let dnsName ← writtenDnsName current.isMember update.dnsName
  Program.write (update.edit current.isMember displayName dnsName networkDisplayName)

/-! ### Lemmas -/

/-- An integer that came from the file fits. -/
theorem tomlInteger_ofNat (value : Fin (2 ^ 63)) :
    tomlInteger (UInt64.ofNat value) = value := by
  have small : (value : Nat) < 2 ^ 64 := lt_trans value.isLt (by decide)
  have same : (UInt64.ofNat value).toNat = value := UInt64.toNat_ofNat_of_lt' small
  unfold tomlInteger
  simp only [same, value.isLt, dite_true]

end PeerCove
