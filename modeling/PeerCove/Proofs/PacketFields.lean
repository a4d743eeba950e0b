/-
Module: PeerCove.Proofs.PacketFields
Layer: Proofs
Purpose: What the bytes of a packet say, and that reading them never goes outside the packet.
Trusted boundary: none
Main exports: Packet.Answers, Packet.Mirrors, Packet.Opens, sessionCandidate_eq, packetReplyKey_eq,
  fragmentKey_eq
-/
import PeerCove.Core.AclSessions
import PeerCove.Library.Fallible

namespace PeerCove

open Fallible

/-! ### What a packet says -/

namespace Packet

variable (packet : Packet)

def byte (index : Nat) : UInt8 := packet.getD index 0
def word (index : Nat) : UInt16 := be16 (packet.byte index) (packet.byte (index + 1))

def addr (index : Nat) : Ipv4Addr :=
  Ipv4Addr.ofOctets (packet.byte index) (packet.byte (index + 1)) (packet.byte (index + 2))
    (packet.byte (index + 3))

def source : Ipv4Addr := packet.addr 12
def destination : Ipv4Addr := packet.addr 16
def protocol : UInt8 := packet.byte 9
def identification : UInt16 := packet.word 4
def headerLen : Nat := (packet.byte 0 &&& 0x0f).toNat * 4

/-- A whole header of version 4. -/
def IsIpv4 : Prop :=
  20 ≤ packet.length ∧ packet.byte 0 >>> 4 = 4 ∧ 20 ≤ packet.headerLen ∧
    packet.headerLen ≤ packet.length

/-- The fragment offset is 0. -/
def IsFirstFragment : Prop := 8 ≤ packet.length ∧ packet.word 6 &&& 0x1fff = 0

/-- More fragments follow. -/
def HasMore : Prop := 8 ≤ packet.length ∧ packet.byte 6 &&& 0x20 ≠ 0

def sourcePort : UInt16 := packet.word packet.headerLen
def destinationPort : UInt16 := packet.word (packet.headerLen + 2)

def HasPorts : Prop :=
  (packet.protocol = 6 ∨ packet.protocol = 17) ∧ packet.headerLen + 4 ≤ packet.length

/-- A segment of TCP with SYN and without ACK. -/
def IsSyn : Prop :=
  packet.headerLen + 14 ≤ packet.length ∧ packet.byte (packet.headerLen + 13) &&& 0x02 ≠ 0 ∧
    packet.byte (packet.headerLen + 13) &&& 0x10 = 0

def icmpKind : UInt8 := packet.byte packet.headerLen
def echoIdentifier : UInt16 := packet.word (packet.headerLen + 4)

def HasEcho : Prop := packet.protocol = 1 ∧ packet.headerLen + 8 ≤ packet.length

instance : Decidable packet.IsIpv4 := inferInstanceAs (Decidable (_ ∧ _))
instance : Decidable packet.IsFirstFragment := inferInstanceAs (Decidable (_ ∧ _))
instance : Decidable packet.HasMore := inferInstanceAs (Decidable (_ ∧ _))
instance : Decidable packet.HasPorts := inferInstanceAs (Decidable (_ ∧ _))
instance : Decidable packet.IsSyn := inferInstanceAs (Decidable (_ ∧ _))
instance : Decidable packet.HasEcho := inferInstanceAs (Decidable (_ ∧ _))

/-- The packet goes in the direction of a key. -/
def Answers : ReplyKey → Prop
  | .transport src dst protocol srcPort dstPort =>
      packet.IsIpv4 ∧ packet.IsFirstFragment ∧ packet.HasPorts ∧ packet.source = src ∧
        packet.destination = dst ∧ packet.protocol = protocol ∧ packet.sourcePort = srcPort ∧
          packet.destinationPort = dstPort
  | .icmpEcho src dst kind identifier =>
      packet.IsIpv4 ∧ packet.IsFirstFragment ∧ packet.HasEcho ∧ packet.source = src ∧
        packet.destination = dst ∧ packet.icmpKind = kind ∧ packet.echoIdentifier = identifier

/-- The packet goes against the direction of a key: addresses and ports are exchanged, and an echo
request stands where the key has the reply. -/
def Mirrors : ReplyKey → Prop
  | .transport src dst protocol srcPort dstPort =>
      packet.IsIpv4 ∧ packet.IsFirstFragment ∧ packet.HasPorts ∧ packet.source = dst ∧
        packet.destination = src ∧ packet.protocol = protocol ∧ packet.sourcePort = dstPort ∧
          packet.destinationPort = srcPort
  | .icmpEcho src dst kind identifier =>
      packet.IsIpv4 ∧ packet.IsFirstFragment ∧ packet.HasEcho ∧ packet.source = dst ∧
        packet.destination = src ∧ packet.icmpKind = 8 ∧ kind = 0 ∧
          packet.echoIdentifier = identifier

/-- The packet begins a session: a SYN of TCP, any datagram of UDP, or an echo request. -/
def Opens : Prop :=
  packet.protocol = 17 ∨ packet.protocol = 6 ∧ packet.IsSyn ∨
    packet.protocol = 1 ∧ packet.icmpKind = 8

/-- Addresses, protocol and identification are those of the datagram a key identifies. -/
def IsFragmentOf (key : FragmentKey) : Prop :=
  packet.IsIpv4 ∧ packet.source = key.src ∧ packet.destination = key.dst ∧
    packet.protocol = key.protocol ∧ packet.identification = key.identification

/-- The first fragment of the datagram, with more to follow. -/
def IsHeadOf (key : FragmentKey) : Prop :=
  packet.IsFragmentOf key ∧ packet.IsFirstFragment ∧ packet.HasMore

end Packet

/-! ### Reading never fails -/

variable {packet : Packet} {index : Nat}

theorem byteAt_inside (inside : index < packet.length) :
    byteAt packet index = .ok (packet.byte index) := by
  unfold byteAt Packet.byte
  rw [List.getD_eq_getElem?_getD, List.getElem?_eq_getElem inside]
  rfl

theorem be16At_inside (inside : index + 1 < packet.length) :
    be16At packet index = .ok (packet.word index) := by
  unfold be16At
  rw [byteAt_inside (by omega), byteAt_inside inside]
  rfl

theorem addrAt_inside (inside : index + 3 < packet.length) :
    addrAt packet index = .ok (packet.addr index) := by
  unfold addrAt
  rw [byteAt_inside (by omega), byteAt_inside (by omega), byteAt_inside (by omega),
    byteAt_inside inside]
  rfl

theorem isInitialFragment_eq (packet : Packet) :
    isInitialFragment packet = .ok (decide packet.IsFirstFragment) := by
  unfold isInitialFragment
  by_cases long : 8 ≤ packet.length
  · rw [if_pos long, be16At_inside (by omega)]
    simp [Packet.IsFirstFragment, long]
  · rw [if_neg long]
    simp [Packet.IsFirstFragment, long]

theorem hasMoreFragments_eq (packet : Packet) :
    hasMoreFragments packet = .ok (decide packet.HasMore) := by
  unfold hasMoreFragments
  by_cases long : 8 ≤ packet.length
  · rw [if_pos long, byteAt_inside (by omega)]
    simp [Packet.HasMore, long]
  · rw [if_neg long]
    simp [Packet.HasMore, long]

theorem ipv4Fields_eq (packet : Packet) :
    ipv4Fields packet = .ok (if packet.IsIpv4 then
      some (packet.source, packet.destination, packet.protocol, packet.headerLen) else none) := by
  unfold ipv4Fields
  by_cases short : packet.length < 20
  · rw [if_pos short, if_neg (fun whole => absurd whole.1 (by omega))]
    rfl
  rw [if_neg short, byteAt_inside (by omega), addrAt_inside (by omega), addrAt_inside (by omega),
    byteAt_inside (by omega)]
  by_cases version : packet.byte 0 >>> 4 = 4
  · by_cases bounds : packet.headerLen < 20 ∨ packet.length < packet.headerLen
    · rw [if_neg (fun whole => absurd whole.2.2 (by omega))]
      refine (if_neg (not_not.mpr version)).trans ?_
      exact if_pos bounds
    · rw [if_pos ⟨by omega, version, by omega⟩]
      refine (if_neg (not_not.mpr version)).trans ?_
      exact if_neg bounds
  · rw [if_neg (fun whole => absurd whole.2.1 version)]
    exact if_pos version

theorem opensSession_eq (packet : Packet) :
    opensSession packet packet.protocol packet.headerLen =
      .ok (decide (packet.protocol = 17 ∨ packet.IsSyn)) := by
  unfold opensSession
  by_cases udp : packet.protocol = 17
  · rw [if_pos udp]
    simp [udp]
  rw [if_neg udp]
  by_cases long : packet.headerLen + 14 ≤ packet.length
  · rw [if_pos long, byteAt_inside (by omega)]
    simp [Packet.IsSyn, udp, long]
  · rw [if_neg long]
    simp [Packet.IsSyn, udp, long]

theorem sessionCandidate_eq (packet : Packet) :
    sessionCandidate packet = .ok (if packet.IsFirstFragment ∧ packet.IsIpv4 then
      some (if packet.HasPorts then
          .transport (.transport packet.destination packet.source packet.protocol
            packet.destinationPort packet.sourcePort) packet.protocol
              (decide (packet.protocol = 17 ∨ packet.IsSyn))
        else if packet.HasEcho ∧ packet.icmpKind = 8 then
          .icmpEchoRequest (.icmpEcho packet.destination packet.source 0 packet.echoIdentifier)
        else .other)
      else none) := by
  unfold sessionCandidate
  rw [isInitialFragment_eq, ipv4Fields_eq]
  by_cases first : packet.IsFirstFragment
  · by_cases whole : packet.IsIpv4
    · simp only [first, whole, decide_true, if_true, and_self]
      by_cases ports : packet.HasPorts
      · rw [if_pos ports]
        refine (if_pos ports).trans ?_
        rw [be16At_inside (by have := ports.2; omega), be16At_inside (by have := ports.2; omega),
          opensSession_eq]
        rfl
      · rw [if_neg ports]
        refine (if_neg ports).trans ?_
        by_cases echo : packet.HasEcho
        · refine (if_pos echo).trans ?_
          rw [byteAt_inside (by have := echo.2; omega)]
          by_cases request : packet.icmpKind = 8
          · rw [if_pos ⟨echo, request⟩]
            refine (if_pos request).trans ?_
            rw [be16At_inside (by have := echo.2; omega)]
            rfl
          · rw [if_neg (fun both => request both.2)]
            exact if_neg request
        · refine (if_neg echo).trans ?_
          rw [if_neg (fun both => echo both.1)]
          rfl
    · simp only [first, whole, decide_true, and_false, if_false]
      rfl
  · simp only [first, decide_false, false_and, if_false]
    rfl

theorem packetReplyKey_eq (packet : Packet) :
    packetReplyKey packet = .ok (if packet.IsFirstFragment ∧ packet.IsIpv4 then
      (if packet.HasPorts then
          some (.transport packet.source packet.destination packet.protocol packet.sourcePort
            packet.destinationPort)
        else if packet.HasEcho ∧ (packet.icmpKind = 0 ∨ packet.icmpKind = 8) then
          some (.icmpEcho packet.source packet.destination packet.icmpKind packet.echoIdentifier)
        else none)
      else none) := by
  unfold packetReplyKey
  rw [isInitialFragment_eq, ipv4Fields_eq]
  by_cases first : packet.IsFirstFragment
  · by_cases whole : packet.IsIpv4
    · simp only [first, whole, decide_true, if_true, and_self]
      by_cases ports : packet.HasPorts
      · rw [if_pos ports]
        refine (if_pos ports).trans ?_
        rw [be16At_inside (by have := ports.2; omega), be16At_inside (by have := ports.2; omega)]
        rfl
      · rw [if_neg ports]
        refine (if_neg ports).trans ?_
        by_cases echo : packet.HasEcho
        · refine (if_pos echo).trans ?_
          rw [byteAt_inside (by have := echo.2; omega)]
          by_cases known : packet.icmpKind = 0 ∨ packet.icmpKind = 8
          · rw [if_pos ⟨echo, known⟩]
            refine (if_pos known).trans ?_
            rw [be16At_inside (by have := echo.2; omega)]
            rfl
          · rw [if_neg (fun both => known both.2)]
            exact if_neg known
        · refine (if_neg echo).trans ?_
          rw [if_neg (fun both => echo both.1)]
          rfl
    · simp only [first, whole, decide_true, and_false, if_false]
      rfl
  · simp only [first, decide_false, false_and, if_false]
    rfl

theorem fragmentKey_eq (packet : Packet) :
    fragmentKey packet = .ok (if packet.IsIpv4 then
      some {
        src := packet.source
        dst := packet.destination
        protocol := packet.protocol
        identification := packet.identification }
      else none) := by
  unfold fragmentKey
  rw [ipv4Fields_eq]
  by_cases whole : packet.IsIpv4
  · simp only [whole, if_true]
    rw [be16At_inside (by have := whole.1; omega)]
    rfl
  · simp only [whole, if_false]
    rfl

/-- The key of a packet that can be a reply is that of its own direction. -/
theorem packetReplyKey_answers {key : ReplyKey} (keyed : packetReplyKey packet = .ok (some key)) :
    packet.Answers key := by
  rw [packetReplyKey_eq, Except.ok.injEq] at keyed
  by_cases whole : packet.IsFirstFragment ∧ packet.IsIpv4
  · rw [if_pos whole] at keyed
    by_cases ports : packet.HasPorts
    · rw [if_pos ports] at keyed
      obtain rfl := Option.some.inj keyed
      exact ⟨whole.2, whole.1, ports, rfl, rfl, rfl, rfl, rfl⟩
    · rw [if_neg ports] at keyed
      by_cases echo : packet.HasEcho ∧ (packet.icmpKind = 0 ∨ packet.icmpKind = 8)
      · rw [if_pos echo] at keyed
        obtain rfl := Option.some.inj keyed
        exact ⟨whole.2, whole.1, echo.1, rfl, rfl, rfl, rfl⟩
      · rw [if_neg echo] at keyed
        cases keyed
  · rw [if_neg whole] at keyed
    cases keyed

end PeerCove
