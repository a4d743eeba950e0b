/-
Module: PeerCove.Core.AclSessions
Layer: Core
Purpose: The relay's tracker of allowed sessions: it reads the bytes of a packet and keeps two tables
  of entries that expire, one of reply directions and one of datagrams sent in fragments.
Trusted boundary: `HashMap`; `Instant` as nanoseconds without an upper bound
Main exports: AclSessionTracker, sessionCandidate, packetReplyKey, fragmentKey
-/
import PeerCove.Core.Net
import PeerCove.Library.Table

namespace PeerCove

/-- A point in time, or a span, in nanoseconds. -/
abbrev Instant := Nat

/-- `Duration::from_secs(1)`. -/
def SECOND : Nat := 1000000000

def TCP_SESSION_LIFETIME : Nat := 5 * 60 * SECOND
def UDP_SESSION_LIFETIME : Nat := 30 * SECOND
def ICMP_SESSION_LIFETIME : Nat := 10 * SECOND
def FRAGMENT_LIFETIME : Nat := 15 * SECOND
def MAX_ACL_SESSIONS : Nat := 16384

/-! ### Reading a packet -/

abbrev Packet := List UInt8

/-- `packet[index]`, which fails outside the packet. -/
def byteAt (packet : Packet) (index : Nat) : Except String UInt8 :=
  match packet[index]? with
  | some byte => .ok byte
  | none =>
      .error s!"index out of bounds: the len is {packet.length} but the index is {index}"

/-- `u16::from_be_bytes`. -/
def be16 (high low : UInt8) : UInt16 :=
  (high.toUInt16 <<< 8) ||| low.toUInt16

def be16At (packet : Packet) (index : Nat) : Except String UInt16 := do
  let high ← byteAt packet index
  let low ← byteAt packet (index + 1)
  return be16 high low

def addrAt (packet : Packet) (index : Nat) : Except String Ipv4Addr := do
  let a ← byteAt packet index
  let b ← byteAt packet (index + 1)
  let c ← byteAt packet (index + 2)
  let d ← byteAt packet (index + 3)
  return Ipv4Addr.ofOctets a b c d

/-- Source, destination, protocol and length of the header. -/
def ipv4Fields (packet : Packet) : Except String (Option (Ipv4Addr × Ipv4Addr × UInt8 × Nat)) := do
  if packet.length < 20 then
    return none
  else
    let first ← byteAt packet 0
    if first >>> 4 ≠ 4 then
      return none
    else
      let headerLen := (first &&& 0x0f).toNat * 4
      if headerLen < 20 ∨ packet.length < headerLen then
        return none
      else
        let src ← addrAt packet 12
        let dst ← addrAt packet 16
        let protocol ← byteAt packet 9
        return some (src, dst, protocol, headerLen)

def isInitialFragment (packet : Packet) : Except String Bool := do
  if packet.length ≥ 8 then
    let offset ← be16At packet 6
    return offset &&& 0x1fff = 0
  else
    return false

def hasMoreFragments (packet : Packet) : Except String Bool := do
  if packet.length ≥ 8 then
    let flags ← byteAt packet 6
    return flags &&& 0x20 ≠ 0
  else
    return false

structure FragmentKey where
  src : Ipv4Addr
  dst : Ipv4Addr
  protocol : UInt8
  identification : UInt16
deriving DecidableEq

def fragmentKey (packet : Packet) : Except String (Option FragmentKey) := do
  match ← ipv4Fields packet with
  | none => return none
  | some (src, dst, protocol, _) =>
      let identification ← be16At packet 4
      return some {
        src := src
        dst := dst
        protocol := protocol
        identification := identification }

/-- The direction in which replies come back. -/
inductive ReplyKey where
  | transport (src dst : Ipv4Addr) (protocol : UInt8) (srcPort dstPort : UInt16)
  | icmpEcho (src dst : Ipv4Addr) (kind : UInt8) (identifier : UInt16)
deriving DecidableEq

/-- What an allowed packet says about a session; its key is that of the replies. -/
inductive SessionCandidate where
  | transport (reply : ReplyKey) (protocol : UInt8) (opensSession : Bool)
  | icmpEchoRequest (reply : ReplyKey)
  | other
deriving DecidableEq

/-- SYN without ACK, or any datagram of UDP. -/
def opensSession (packet : Packet) (protocol : UInt8) (headerLen : Nat) : Except String Bool := do
  if protocol = 17 then
    return true
  else if packet.length ≥ headerLen + 14 then
    let flags ← byteAt packet (headerLen + 13)
    return flags &&& 0x02 ≠ 0 && flags &&& 0x10 = 0
  else
    return false

def sessionCandidate (packet : Packet) : Except String (Option SessionCandidate) := do
  if (← isInitialFragment packet) = false then
    return none
  else
    match ← ipv4Fields packet with
    | none => return none
    | some (src, dst, protocol, headerLen) =>
        if (protocol = 6 ∨ protocol = 17) ∧ packet.length ≥ headerLen + 4 then
          let srcPort ← be16At packet headerLen
          let dstPort ← be16At packet (headerLen + 2)
          let opens ← opensSession packet protocol headerLen
          return some (.transport (.transport dst src protocol dstPort srcPort) protocol opens)
        else if protocol = 1 ∧ packet.length ≥ headerLen + 8 then
          if (← byteAt packet headerLen) = 8 then
            let identifier ← be16At packet (headerLen + 4)
            return some (.icmpEchoRequest (.icmpEcho dst src 0 identifier))
          else
            return some .other
        else
          return some .other

def packetReplyKey (packet : Packet) : Except String (Option ReplyKey) := do
  if (← isInitialFragment packet) = false then
    return none
  else
    match ← ipv4Fields packet with
    | none => return none
    | some (src, dst, protocol, headerLen) =>
        if (protocol = 6 ∨ protocol = 17) ∧ packet.length ≥ headerLen + 4 then
          let srcPort ← be16At packet headerLen
          let dstPort ← be16At packet (headerLen + 2)
          return some (.transport src dst protocol srcPort dstPort)
        else if protocol = 1 ∧ packet.length ≥ headerLen + 8 then
          let kind ← byteAt packet headerLen
          if kind = 0 ∨ kind = 8 then
            let identifier ← be16At packet (headerLen + 4)
            return some (.icmpEcho src dst kind identifier)
          else
            return none
        else
          return none

/-! ### The tables -/

structure Session where
  expiresAt : Instant
  lifetime : Nat
deriving DecidableEq

structure AclSessionTracker where
  replies : Table ReplyKey Session := Table.empty
  fragments : Table FragmentKey Session := Table.empty
  nextPrune : Option Instant := none
deriving DecidableEq

/-- A session that was used now. -/
def Session.started (now lifetime : Nat) : Session where
  expiresAt := now + lifetime
  lifetime := lifetime

/-- An entry set, unless the table is full and has none under the key. -/
def insertSession {κ : Type} [DecidableEq κ] (table : Table κ Session) (key : κ)
    (lifetime now : Nat) : Table κ Session :=
  if table.size ≥ MAX_ACL_SESSIONS ∧ (table.get? key).isSome = false then table
  else table.insert key (Session.started now lifetime)

namespace AclSessionTracker

def insert (tracker : AclSessionTracker) (key : ReplyKey) (lifetime now : Nat) :
    AclSessionTracker :=
  { tracker with replies := insertSession tracker.replies key lifetime now }

def insertFragment (tracker : AclSessionTracker) (key : FragmentKey) (now : Nat) :
    AclSessionTracker :=
  { tracker with fragments := insertSession tracker.fragments key FRAGMENT_LIFETIME now }

/-- At most once a second, the entries that have expired are removed. -/
def removeExpired (tracker : AclSessionTracker) (now : Nat) : AclSessionTracker :=
  if tracker.nextPrune.any (fun next => now < next) then tracker
  else {
    replies := tracker.replies.filter (fun _ session => session.expiresAt > now)
    fragments := tracker.fragments.filter (fun _ session => session.expiresAt > now)
    nextPrune := some (now + SECOND) }

/-- A packet that the policy allows opens or prolongs the direction of its replies. -/
def observeAllowed (tracker : AclSessionTracker) (packet : Packet) (now : Nat) :
    Except String AclSessionTracker := do
  let tracker := tracker.removeExpired now
  match ← sessionCandidate packet with
  | none => return tracker
  | some (.transport reply protocol opensSession) =>
      let lifetime := if protocol = 6 then TCP_SESSION_LIFETIME else UDP_SESSION_LIFETIME
      if opensSession = true ∨ (tracker.replies.get? reply).isSome = true then
        return tracker.insert reply lifetime now
      else
        return tracker
  | some (.icmpEchoRequest reply) => return tracker.insert reply ICMP_SESSION_LIFETIME now
  | some .other => return tracker

/-- Whether a packet that the policy denies is a reply in a session; if so, the session goes on. -/
def allowsReply (tracker : AclSessionTracker) (packet : Packet) (now : Nat) :
    Except String (Bool × AclSessionTracker) := do
  let tracker := tracker.removeExpired now
  match ← packetReplyKey packet with
  | none => return (false, tracker)
  | some key =>
      match tracker.replies.get? key with
      | none => return (false, tracker)
      | some session =>
          return (true, { tracker with
            replies := tracker.replies.update key (fun _ => Session.started now session.lifetime) })

/-- A first fragment that was forwarded lets the others of its datagram through. -/
def noteForwardedFragment (tracker : AclSessionTracker) (packet : Packet) (now : Nat) :
    Except String AclSessionTracker := do
  if (← isInitialFragment packet) = false then
    return tracker
  else if (← hasMoreFragments packet) = false then
    return tracker
  else
    match ← fragmentKey packet with
    | none => return tracker
    | some key => return tracker.insertFragment key now

/-- Whether the first fragment of the packet's datagram was forwarded. -/
def allowsFragment (tracker : AclSessionTracker) (packet : Packet) (now : Nat) :
    Except String (Bool × AclSessionTracker) := do
  let tracker := tracker.removeExpired now
  match ← fragmentKey packet with
  | none => return (false, tracker)
  | some key => return ((tracker.fragments.get? key).isSome, tracker)

end AclSessionTracker

end PeerCove
