/-
Module: PeerCove.Core.AclSemantics
Layer: Specification
Purpose: What the access control section of `host.toml` says, read off its rules without
  compiling them, and the inputs on which compilation says something else.
Trusted boundary: none
Main exports: denotes, ruleSemantics, Diverted
-/
import PeerCove.Core.AclPolicy

namespace PeerCove

/-! ### Denotation of rule ends -/

/-- A registered member stands for its own networks and those it advertises. -/
def memberHolds (config : Config) (key : PublicKey) (ip : Ipv4Addr) : Bool :=
  (config.peers.find? (fun peer => peer.publicKey = key)).any
    (fun peer => peer.allowedIps.any (·.contains ip) || peer.subnets.any (·.contains ip))

/-- The address a DNS record resolves to when the host distributes it. -/
def recordAddress (config : Config) (record : DnsRecordConfig) : Option Ipv4Addr :=
  match record.ip, record.member with
  | some ip, _ => some ip
  | none, some .host => some config.interface.address.addr
  | none, some (.key key) =>
      (config.peers.find? (fun peer => peer.publicKey = key)).bind PeerConfig.virtualIp
  | none, none => none

/-- The addresses one end of a rule stands for. -/
def denotes (config : Config) (target : AclTarget) (ip : Ipv4Addr) : Bool :=
  match target with
  | .any _ => true
  | .member member => memberHolds config member ip
  | .group group =>
      (config.acl.groups.find? (fun candidate => candidate.id = group)).any
        (fun found => found.members.any (fun member => memberHolds config member ip))
  | .subnet subnet => subnet.contains ip
  | .service service =>
      (config.dnsRecords.find? (fun record => record.id = some service)).any
        (fun record => recordAddress config record = some ip)

/-- Whether an entry of `ports` contains the port. -/
def portEntryContains (port : UInt16) (value : String) : Bool :=
  match parsePort value with
  | .ok range => range.1 ≤ port && port ≤ range.2
  | .error _ => false

/-- A packet matches a rule when both ends, the protocol and the port do. -/
def ruleMatches (config : Config) (packet : PacketInfo) (rule : AclRule) : Bool :=
  denotes config rule.source packet.src && denotes config rule.destination packet.dst &&
    protocolMatches rule.protocol packet.protocol &&
    (rule.ports.isEmpty || packet.dstPort.any (fun port => rule.ports.any (portEntryContains port)))

/-! ### Semantics of the whole section -/

/-- One side of a denied pair: the address, and the subnets of the member that owns it. -/
def sideHolds (config : Config) (side ip : Ipv4Addr) : Bool :=
  ip = side ||
    (config.peers.find? (fun peer => peer.allowedIps.any (·.contains side))).any
      (fun peer => peer.subnets.any (·.contains ip))

/-- A denied pair, in either direction. -/
def legacyDenied (config : Config) (packet : PacketInfo) : Bool :=
  config.acl.deny.any (fun pair =>
    (sideHolds config pair.1 packet.src && sideHolds config pair.2 packet.dst) ||
      (sideHolds config pair.2 packet.src && sideHolds config pair.1 packet.dst))

/-- The first enabled rule in list order that matches, or the default. -/
def rulesAction (config : Config) (packet : PacketInfo) (rules : List AclRule) : AclAction :=
  FirstMatch.pick (ruleMatches config packet) AclRule.action config.acl.default rules

/-- Denied pairs first, then the rules. -/
def ruleSemantics (config : Config) (packet : PacketInfo) : AclAction :=
  if legacyDenied config packet then .deny
  else rulesAction config packet config.acl.enabledRules

/-! ### Ends that lose their meaning in a list of networks -/

/-- A member with no network of its own, registered or not. -/
def withoutNetworks (config : Config) (key : PublicKey) : Bool :=
  ((peerNetworks config key).getD []).isEmpty

/-- The whole first network of the member a record names. -/
def recordBlurs (config : Config) (record : DnsRecordConfig) (ip : Ipv4Addr) : Bool :=
  match record.ip, record.member with
  | none, some (.key key) => ((peerNetworks config key).getD []).head?.all (·.contains ip)
  | _, _ => false

/-- Addresses that the list of networks of `target` admits whatever `target` denotes: every
address when the list is empty, and the first network of a service's member, which may be wider than its address. -/
def blurs (config : Config) (target : AclTarget) (ip : Ipv4Addr) : Bool :=
  match target with
  | .any _ => false
  | .member member => withoutNetworks config member
  | .group group =>
      (config.acl.groups.find? (fun candidate => candidate.id = group)).any
        (fun found => found.members.all (withoutNetworks config))
  | .subnet _ => false
  | .service service =>
      (config.dnsRecords.find? (fun record => record.id = some service)).any
        (fun record => recordBlurs config record ip)

/-- A packet is admitted by a rule when each end denotes or blurs its address. -/
def ruleAdmits (config : Config) (packet : PacketInfo) (rule : AclRule) : Bool :=
  (denotes config rule.source packet.src || blurs config rule.source packet.src) &&
    (denotes config rule.destination packet.dst || blurs config rule.destination packet.dst) &&
    protocolMatches rule.protocol packet.protocol &&
    (rule.ports.isEmpty || packet.dstPort.any (fun port => rule.ports.any (portEntryContains port)))

/-- The first enabled rule that admits the packet does so only because an end of it is blurred,
and its action is not the one the rules after it give. -/
def Diverted (config : Config) (packet : PacketInfo) : Prop :=
  legacyDenied config packet = false ∧
    ∃ before rule after, config.acl.enabledRules = before ++ rule :: after ∧
      (∀ other ∈ before, ruleAdmits config packet other = false) ∧
      ruleAdmits config packet rule = true ∧ ruleMatches config packet rule = false ∧
      rule.action ≠ rulesAction config packet after

end PeerCove
