/-
Module: PeerCove.Host.BuildLedger
Layer: Host
Purpose: The ledger as the host builds it from its configuration and the statistics of its peers, and
  the distribution it makes of it.
Trusted boundary: the statistics, the health of the services and the addresses of external names are
  inputs
Main exports: buildLedger, hostDistribution
-/
import PeerCove.Core.AclSessions
import PeerCove.Core.DnsZone
import PeerCove.Host.Distribution

namespace PeerCove

def ONLINE_THRESHOLD : Nat := 180 * SECOND
def ENDPOINT_AGE_STEP_SECS : Nat := 60

/-- `invite_status` in the ledger. -/
def InviteState.status : InviteState → String
  | .legacy => "legacy"
  | .pending => "pending"
  | .joined => "joined"
  | .awaitingApproval => "awaiting_approval"
  | .expired => "expired"
  | .clockInvalid => "clock_invalid"

/-- What a node says of its software. -/
structure Software where
  appVersion : Option String
  platform : Option String
  capabilities : List String

/-- What the statistics have of a peer: how long ago its last handshake was, and where it is. -/
structure Sighting where
  handshakeAge : Option Nat
  endpoint : Option SocketAddr

/-- The entry of the host. -/
def hostEntry (config : Config) (hostKey : PublicKey) (software : Software) : LedgerEntry where
  name := config.interface.displayName.or (some "host")
  dnsName := config.interface.dnsName
  ip := config.interface.address.addr
  publicKey := hostKey
  appVersion := software.appVersion
  platform := software.platform
  capabilities := software.capabilities
  online := true
  isHost := true

/-- Who invited a peer, by its name now or else by its name then. -/
def inviterName (config : Config) (peer : PeerConfig) : Option String :=
  peer.invitedById.bind (fun id =>
    ((config.peers.find? (fun inviter => inviter.inviteId = some id)).bind PeerConfig.name).or
      peer.invitedByName)

def peerEntry (config : Config) (now : Nat) (sighting : Option Sighting) (peer : PeerConfig) :
    LedgerEntry :=
  let age := sighting.bind Sighting.handshakeAge
  let online := age.any (· ≤ ONLINE_THRESHOLD)
  let endpoint := if online then sighting.bind Sighting.endpoint else none
  { name := peer.name
    dnsName := peer.dnsName
    ip := peer.virtualIp.getD 0#32
    publicKey := peer.publicKey
    memberId := peer.inviteId
    canInvite := config.interface.memberInvites && (peer.canInvite || peer.admin)
    isAdmin := peer.admin
    invitedBy := inviterName config peer
    inviteStatus := some (peer.inviteState now).status
    inviteExpiresAt := peer.inviteExpiresAt
    online := online
    endpoint := endpoint
    endpointAgeSecs := endpoint.bind (fun _ => age.map (fun age =>
      age / SECOND / ENDPOINT_AGE_STEP_SECS * ENDPOINT_AGE_STEP_SECS))
    subnets := peer.subnets }

/-- `build_ledger`. -/
def buildLedger (config : Config) (hostKey : PublicKey) (software : Software) (now : Nat)
    (stats : PublicKey → Option Sighting) : List LedgerEntry :=
  hostEntry config hostKey software ::
    config.peers.map (fun peer => peerEntry config now (stats peer.publicKey) peer)

/-- What a member that is connected says of its software. -/
def withSoftware (connected : Ipv4Addr → Option Software) (entry : LedgerEntry) : LedgerEntry :=
  match connected entry.ip with
  | some software =>
      { entry with
        appVersion := software.appVersion
        platform := software.platform
        capabilities := software.capabilities }
  | none => entry

/-- What the host knows when it makes a distribution. -/
structure HostView where
  config : Config
  hostKey : PublicKey
  software : Software
  /-- Seconds of the wall clock. -/
  now : Nat
  stats : PublicKey → Option Sighting
  connected : Ipv4Addr → Option Software
  /-- The address of an external name. -/
  flatten : String → Option Ipv4Addr
  dnsHealth : DnsRecord → Option ServiceHealth
  cnameHealth : CnameRecord → Option ServiceHealth
  deny : List (Ipv4Addr × Ipv4Addr)
  forceRelay : List (Ipv4Addr × Ipv4Addr × String)
  permGroups : List PermGroupInfo

namespace HostView

variable (view : HostView)

def members : List LedgerEntry :=
  (buildLedger view.config view.hostKey view.software view.now view.stats).map
    (withSoftware view.connected)

/-- The distribution that `supervise` makes on the host. -/
def distribution : Distribution where
  members := view.members
  dnsRecords := (resolveRecords view.config.dnsRecords view.members).map (fun record =>
    { record with health := view.dnsHealth record })
  cnameRecords := (resolveCnames view.config.dnsRecords view.members).map (fun record =>
    { record with
      resolvedIp := view.flatten record.target
      health := view.cnameHealth record })
  networkDisplayName := view.config.interface.networkDisplayName
  deny := view.deny
  forceRelay := view.forceRelay
  permGroups := view.permGroups

end HostView

end PeerCove
