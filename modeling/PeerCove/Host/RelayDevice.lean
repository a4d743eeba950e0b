/-
Module: PeerCove.Host.RelayDevice
Layer: Host
Purpose: The device of the Windows backend on a decrypted packet: it goes to another peer, to the
  own system, or nowhere; the policy and the tracker of sessions decide about what is relayed.
Trusted boundary: `Tunn::dst_address` is a parameter; peers are walked in the order of the list;
  what becomes of a packet that is handed to the tunnel of a peer is left out
Main exports: RelayDevice, deliverInbound, Arrival, RelayRun
-/
import PeerCove.Core.AclPolicy
import PeerCove.Core.AclSessions
import PeerCove.Host.LinuxFilter

namespace PeerCove

/-! ### What the policy says of a packet -/

/-- `packet_fields`: a later fragment has no ports. -/
def packetFields (packet : Packet) : Except String (Option PacketInfo) := do
  match ← ipv4Fields packet with
  | none => return none
  | some (src, dst, protocol, headerLen) =>
      if (protocol = 6 ∨ protocol = 17) ∧ (← isInitialFragment packet) = true ∧
          packet.length ≥ headerLen + 4 then
        let port ← be16At packet (headerLen + 2)
        return some { src := src, dst := dst, protocol := protocol, dstPort := some port }
      else
        return some { src := src, dst := dst, protocol := protocol, dstPort := none }

/-- `AclPolicy::evaluate_ipv4_packet`. -/
def AclPolicy.evaluateIpv4Packet (policy : AclPolicy) (packet : Packet) :
    Except String AclDecision := do
  match ← packetFields packet with
  | none => return { action := policy.default, ruleId := none }
  | some info => return policy.evaluate info

def isNonFirstFragment (packet : Packet) : Except String Bool := do
  if packet.length ≥ 20 then
    let first ← byteAt packet 0
    if first >>> 4 = 4 then
      let offset ← be16At packet 6
      return offset &&& 0x1fff ≠ 0
    else
      return false
  else
    return false

/-- The part of `deliver_inbound` that holds the sessions: whether the packet may be relayed. -/
def relayAllowed (policy : AclPolicy) (packet : Packet) (now : Instant)
    (sessions : AclSessionTracker) : Except String (Bool × AclSessionTracker) := do
  -- a later fragment has no ports: it follows the first one of its datagram
  if (← isNonFirstFragment packet) = true then
    sessions.allowsFragment packet now
  else
    let decision ← policy.evaluateIpv4Packet packet
    match decision.action with
    | .allow =>
        let sessions ← sessions.observeAllowed packet now
        let sessions ← sessions.noteForwardedFragment packet now
        return (true, sessions)
    | .deny =>
        match ← sessions.allowsReply packet now with
        | (false, sessions) => return (false, sessions)
        | (true, sessions) =>
            let sessions ← sessions.noteForwardedFragment packet now
            return (true, sessions)

/-! ### The device -/

structure DevicePeer where
  publicKey : PublicKey
  allowedIps : List Ipv4Net
deriving DecidableEq

/-- The length of the longest network of the peer that contains the address. -/
def DevicePeer.longestMatch (peer : DevicePeer) (ip : Ipv4Addr) : Option Nat :=
  ((peer.allowedIps.filter (fun net => net.contains ip)).map Ipv4Net.prefixLen).max?

def DevicePeer.virtualIp (peer : DevicePeer) : Option Ipv4Addr :=
  peer.allowedIps.head?.map Ipv4Net.addr

/-- What the device has been told, as long as a packet is delivered. -/
structure RelayDevice where
  relay : Bool
  peers : List DevicePeer
  aclPolicy : AclPolicy
  isolated : List Ipv4Addr
  isolationHost : Option Ipv4Addr

namespace RelayDevice

/-- `find_peer_by_dst`: the last one with the longest match. -/
def findPeerByDst (device : RelayDevice) (dst : Ipv4Addr) : Option DevicePeer :=
  ((device.peers.filterMap (fun peer => (peer.longestMatch dst).map (fun len => (len, peer)))).foldl
    (fun best entry =>
      match best with
      | none => some entry
      | some other => if other.1 ≤ entry.1 then some entry else some other) none).map Prod.snd

def isIsolated (device : RelayDevice) (peer : DevicePeer) : Bool :=
  peer.virtualIp.any (fun ip => ip ∈ device.isolated)

/-- `is_control_packet`. -/
def isControlPacket (packet : Packet) (inbound : Bool) : Except String Bool := do
  if packet.length < 20 then
    return false
  else if (← byteAt packet 0) >>> 4 ≠ 4 ∨ (← byteAt packet 9) ≠ 6 then
    return false
  else
    let headerLen := ((← byteAt packet 0) &&& 0x0f).toNat * 4
    if headerLen < 20 ∨ packet.length < headerLen + 4 then
      return false
    else
      let src ← be16At packet headerLen
      let dst ← be16At packet (headerLen + 2)
      return if inbound then dst = CONTROL_PORT else src = CONTROL_PORT

end RelayDevice

/-- Where a packet goes. -/
inductive Destiny where
  | toTun
  | relayed (target : PublicKey)
  | discarded
deriving DecidableEq

section
variable (dstAddress : Packet → Option Ipv4Addr)

/-- `deliver_inbound`.  `dstAddress` are the addresses of version 4 that `Tunn::dst_address`
finds. -/
def deliverInbound (device : RelayDevice) (sender : DevicePeer) (packet : Packet) (now : Instant)
    (sessions : AclSessionTracker) : Except String (Destiny × AclSessionTracker) := do
  match dstAddress packet with
  | none => return (.toTun, sessions)
  | some dst =>
      if device.isIsolated sender = true ∧
          (some dst ≠ device.isolationHost ∨ (device.findPeerByDst dst).isSome = true ∨
            (← RelayDevice.isControlPacket packet true) = false) then
        return (.discarded, sessions)
      else
        match device.relay, device.findPeerByDst dst with
        | true, some target =>
            -- what would go back to its sender goes to the own system
            if target.publicKey = sender.publicKey then return (.toTun, sessions)
            else if device.isIsolated target = true then return (.discarded, sessions)
            else
              match ← relayAllowed device.aclPolicy packet now sessions with
              | (true, sessions) => return (.relayed target.publicKey, sessions)
              | (false, sessions) => return (.discarded, sessions)
        | _, _ => return (.toTun, sessions)

/-- A decrypted packet of a peer, and what the device has been told by then. -/
structure Arrival where
  device : RelayDevice
  sender : DevicePeer
  packet : Packet
  now : Instant

/-- Packets delivered one after the other, the newest first, with where they went. -/
inductive RelayRun : List (Arrival × Destiny) → AclSessionTracker → Prop where
  | opened : RelayRun [] {}
  | delivered {past : List (Arrival × Destiny)} {sessions next : AclSessionTracker}
      {destiny : Destiny} (before : RelayRun past sessions) (arrival : Arrival)
      (later : ∀ earlier ∈ past, earlier.1.now ≤ arrival.now)
      (done : deliverInbound dstAddress arrival.device arrival.sender arrival.packet arrival.now
        sessions = .ok (destiny, next)) :
      RelayRun ((arrival, destiny) :: past) next

end

end PeerCove
