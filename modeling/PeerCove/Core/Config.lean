/-
Module: PeerCove.Core.Config
Layer: Core
Purpose: The data model of `host.toml` and `member.toml`: interface, peers, custom DNS records
  and access control.
Trusted boundary: none
Main exports: Config, PeerConfig, DnsRecordConfig, AclConfig, PeerConfig.inviteState
-/
import PeerCove.Core.Net
import PeerCove.Core.Names
import PeerCove.Library.SortDedup

namespace PeerCove

/-- An X25519 public key.  Its base64 text determines it, so tables that the source compares
by text are compared by key here. -/
structure PublicKey where
  bytes : BitVec 256
deriving DecidableEq

/-- The characters of base64, in the order of their values. -/
def base64Alphabet : List Char :=
  "ABCDEFGHIJKLMNOPQRSTUVWXYZabcdefghijklmnopqrstuvwxyz0123456789+/".toList

/-- `PublicKey::to_base64`: 256 bits in 43 characters, the last with two bits of padding. -/
def PublicKey.toBase64 (key : PublicKey) : String :=
  let digit := fun (index : Nat) =>
    base64Alphabet.getD (key.bytes.toNat * 4 / 64 ^ (42 - index) % 64) '='
  String.ofList ((List.range 43).map digit ++ ['='])

inductive AclAction where
  | allow
  | deny
deriving Repr, DecidableEq, Inhabited

inductive AclProtocol where
  | any
  | tcp
  | udp
  | icmp
deriving Repr, DecidableEq, Inhabited

/-- One end of a rule. -/
inductive AclTarget where
  | any (value : String)
  | member (member : PublicKey)
  | group (group : String)
  | subnet (subnet : Ipv4Net)
  | service (service : String)
deriving DecidableEq

instance : Inhabited AclTarget := ⟨.any "any"⟩

/-- A permission group.  The host's key may be listed too. -/
structure AclGroup where
  id : String
  name : String := ""
  members : List PublicKey := []
deriving DecidableEq

structure AclRule where
  id : String
  action : AclAction
  source : AclTarget := .any "any"
  destination : AclTarget := .any "any"
  protocol : AclProtocol := .any
  /-- `80` or `8000-8100`; none means every port. -/
  ports : List String := []
  enabled : Bool := true
deriving DecidableEq

structure AclConfig where
  deny : List (Ipv4Addr × Ipv4Addr) := []
  default : AclAction := .allow
  groups : List AclGroup := []
  rules : List AclRule := []
deriving DecidableEq

/-- The host by its sentinel, a member by its public key. -/
inductive MemberRef where
  | host
  | key (key : PublicKey)
deriving DecidableEq

inductive HealthCheckKind where
  | tcp
  | httpHead
deriving Repr, DecidableEq

/-- A custom DNS record.  Exactly one of `ip`, `member` and `cname` is the target. -/
structure DnsRecordConfig where
  id : Option String := none
  name : String
  ip : Option Ipv4Addr := none
  member : Option MemberRef := none
  cname : Option String := none
  under : Option MemberRef := none
  scheme : Option String := none
  port : Option UInt16 := none
  healthCheck : Option Bool := none
  healthKind : Option HealthCheckKind := none
  healthPath : Option String := none
  healthExpectStatus : Option UInt16 := none
  healthExternal : Bool := false
deriving DecidableEq

def DEFAULT_LISTEN_PORT : UInt16 := 51820

def defaultMaxRecvFileMb : Fin (2 ^ 63) := 100

structure InterfaceConfig where
  name : String := "peercove0"
  networkName : Option String := none
  displayName : Option String := none
  networkDisplayName : Option String := none
  deviceId : Option String := none
  requireInviteApproval : Bool := false
  memberInvites : Bool := true
  dnsName : Option String := none
  address : Ipv4Net
  listenPort : Option UInt16 := none
  mtu : UInt16 := 1420
  /-- An integer of the file: its 64 bits have a sign. -/
  maxRecvFileMb : Fin (2 ^ 63) := defaultMaxRecvFileMb
  direct : Bool := true
  autoConnect : Bool := false
deriving DecidableEq

structure PeerConfig where
  name : Option String := none
  dnsName : Option String := none
  inviteId : Option String := none
  inviteIssuedAt : Option Nat := none
  inviteExpiresAt : Option Nat := none
  inviteAcceptedAt : Option Nat := none
  inviteDeviceId : Option String := none
  inviteRequiresApproval : Bool := false
  inviteApprovedAt : Option Nat := none
  canInvite : Bool := false
  admin : Bool := false
  invitedById : Option String := none
  invitedByName : Option String := none
  publicKey : PublicKey
  /-- Where a member finds the host. -/
  endpoint : Option SocketAddr := none
  allowedIps : List Ipv4Net
  subnets : List Ipv4Net := []
  persistentKeepalive : Option UInt16 := none
deriving DecidableEq

structure Config where
  interface : InterfaceConfig
  peers : List PeerConfig := []
  dnsRecords : List DnsRecordConfig := []
  acl : AclConfig := {}
deriving DecidableEq

/-! ### Access control settings -/

/-- Lexicographic order of address pairs. -/
def pairLe (one two : Ipv4Addr × Ipv4Addr) : Prop :=
  one.1 < two.1 ∨ (one.1 = two.1 ∧ one.2 ≤ two.2)

instance : DecidableRel pairLe := fun _ _ => inferInstanceAs (Decidable (_ ∨ _))

instance : Std.Total pairLe where
  total one two := by
    simp only [pairLe, BitVec.lt_def, BitVec.le_def, ← BitVec.toNat_inj]
    omega

instance : IsTrans (Ipv4Addr × Ipv4Addr) pairLe where
  trans one two three := by
    simp only [pairLe, BitVec.lt_def, BitVec.le_def, ← BitVec.toNat_inj]
    omega

instance : Std.Antisymm pairLe where
  antisymm one two := by
    simp only [pairLe, BitVec.lt_def, BitVec.le_def, ← BitVec.toNat_inj, Prod.ext_iff]
    omega

/-- The smaller address first. -/
def orderPair (pair : Ipv4Addr × Ipv4Addr) : Ipv4Addr × Ipv4Addr :=
  if pair.1 ≤ pair.2 then pair else (pair.2, pair.1)

/-- The denied pairs in normal form, each once. -/
def AclConfig.normalizedDeny (acl : AclConfig) : List (Ipv4Addr × Ipv4Addr) :=
  sortDedup pairLe (acl.deny.map orderPair)

/-! ### Invitations -/

inductive InviteState where
  | legacy
  | pending
  | joined
  | awaitingApproval
  | expired
  | clockInvalid
deriving Repr, DecidableEq

namespace PeerConfig

/-- State of the invitation this peer joined with. -/
def inviteState (peer : PeerConfig) (nowUnixSecs : Nat) : InviteState :=
  if peer.inviteAcceptedAt.isSome ∧ peer.inviteRequiresApproval ∧ peer.inviteApprovedAt.isNone then
    .awaitingApproval
  else if peer.inviteAcceptedAt.isSome then
    .joined
  else if peer.inviteId.isNone then
    .legacy
  else if nowUnixSecs = 0 then
    .clockInvalid
  else if peer.inviteExpiresAt.any (fun expires => nowUnixSecs ≥ expires) then
    .expired
  else
    .pending

def inviteAllowsConnection (peer : PeerConfig) (nowUnixSecs : Nat) : Bool :=
  peer.inviteState nowUnixSecs ≠ .expired && peer.inviteState nowUnixSecs ≠ .clockInvalid

/-- A peer whose invitation needs an approval nobody has given yet. -/
def inviteIsIsolated (peer : PeerConfig) : Bool :=
  peer.inviteRequiresApproval && peer.inviteApprovedAt.isNone

/-- The virtual address the host knows a member by. -/
def virtualIp (peer : PeerConfig) : Option Ipv4Addr :=
  peer.allowedIps.head?.map Ipv4Net.addr

end PeerConfig

/-- `Config::network_name`. -/
def Config.networkName (config : Config) : String :=
  config.interface.networkName.getD Names.DEFAULT_NETWORK_NAME

end PeerCove
