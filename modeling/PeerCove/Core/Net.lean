/-
Module: PeerCove.Core.Net
Layer: Core
Purpose: IPv4 addresses and networks as `std::net::Ipv4Addr` and `ipnet::Ipv4Net` compute them.
Trusted boundary: documented behaviour of `ipnet`
Main exports: Ipv4Addr, SocketAddr, Ipv4Net, Ipv4Net.contains, Ipv4Net.host
-/
import Mathlib.Algebra.Ring.Nat
import Mathlib.Data.List.Basic

namespace PeerCove

/-- An IPv4 address as its 32-bit value in network byte order. -/
abbrev Ipv4Addr := BitVec 32

instance : LawfulBEq Ipv4Addr := inferInstanceAs (LawfulBEq (BitVec 32))

namespace Ipv4Addr

/-- `Ipv4Addr::new`. -/
def ofOctets (a b c d : UInt8) : Ipv4Addr :=
  BitVec.ofNat 32 (a.toNat * 0x1000000 + b.toNat * 0x10000 + c.toNat * 0x100 + d.toNat)

/-- `Ipv4Addr::octets`, one octet at a time. -/
def octet (ip : Ipv4Addr) (index : Nat) : Nat :=
  ip.toNat / 0x100 ^ (3 - index) % 0x100

/-- `Display for Ipv4Addr`. -/
def display (ip : Ipv4Addr) : String :=
  s!"{ip.octet 0}.{ip.octet 1}.{ip.octet 2}.{ip.octet 3}"

end Ipv4Addr

inductive SocketAddr where
  | v4 (ip : Ipv4Addr) (port : UInt16)
  | v6 (ip : BitVec 128) (port : UInt16)
deriving DecidableEq

/-- An address with a prefix length.  Host bits may be set, as in `interface.address`. -/
structure Ipv4Net where
  addr : Ipv4Addr
  prefixLen : Nat
  prefixLen_le : prefixLen ≤ 32
deriving DecidableEq

namespace Ipv4Net

/-- `Ipv4Net::new(ip, 32)`. -/
def host (ip : Ipv4Addr) : Ipv4Net where
  addr := ip
  prefixLen := 32
  prefixLen_le := Nat.le_refl 32

/-- `Ipv4Net::new(ip, 24)`. -/
def slash24 (ip : Ipv4Addr) : Ipv4Net where
  addr := ip
  prefixLen := 24
  prefixLen_le := by decide

/-- `Ipv4Net::netmask`. -/
def netmask (net : Ipv4Net) : Ipv4Addr :=
  BitVec.allOnes 32 <<< (32 - net.prefixLen)

/-- `Ipv4Net::network`: the lowest address. -/
def network (net : Ipv4Net) : Ipv4Addr :=
  net.addr &&& net.netmask

/-- `Ipv4Net::broadcast`: the highest address. -/
def broadcast (net : Ipv4Net) : Ipv4Addr :=
  net.addr ||| ~~~net.netmask

/-- `Ipv4Net::contains` for an address. -/
def contains (net : Ipv4Net) (ip : Ipv4Addr) : Bool :=
  decide (net.network ≤ ip) && decide (ip ≤ net.broadcast)

/-- `Ipv4Net::contains` for a network. -/
def containsNet (net other : Ipv4Net) : Bool :=
  decide (net.network ≤ other.network) && decide (other.broadcast ≤ net.broadcast)

/-- `Ipv4Net::trunc`: clear the host bits. -/
def trunc (net : Ipv4Net) : Ipv4Net where
  addr := net.network
  prefixLen := net.prefixLen
  prefixLen_le := net.prefixLen_le

/-- `Display for Ipv4Net`. -/
def display (net : Ipv4Net) : String :=
  s!"{net.addr.display}/{net.prefixLen}"

@[simp] theorem host_addr (ip : Ipv4Addr) : (host ip).addr = ip := rfl

@[simp] theorem host_netmask (ip : Ipv4Addr) : (host ip).netmask = BitVec.allOnes 32 := by
  rfl

@[simp] theorem host_network (ip : Ipv4Addr) : (host ip).network = ip := by
  rw [network, host_netmask, host_addr]
  exact BitVec.and_allOnes

@[simp] theorem host_broadcast (ip : Ipv4Addr) : (host ip).broadcast = ip := by
  rw [broadcast, host_netmask, host_addr]
  simp

/-- A `/32` contains exactly its own address. -/
@[simp] theorem host_contains (ip other : Ipv4Addr) :
    (host ip).contains other = true ↔ other = ip := by
  simp only [contains, host_network, host_broadcast, Bool.and_eq_true, decide_eq_true_eq]
  constructor
  · rintro ⟨lower, upper⟩
    exact BitVec.le_antisymm upper lower
  · rintro rfl
    exact ⟨BitVec.le_refl _, BitVec.le_refl _⟩

/-- A network contains its own address, host bits included. -/
theorem contains_addr (net : Ipv4Net) : net.contains net.addr = true := by
  have lower : net.network ≤ net.addr := by
    rw [BitVec.le_def, network, BitVec.toNat_and]
    exact Nat.and_le_left
  have upper : net.addr ≤ net.broadcast := by
    rw [BitVec.le_def, broadcast, BitVec.toNat_or]
    exact Nat.left_le_or
  simp [contains, lower, upper]

end Ipv4Net

example : (Ipv4Net.mk 0x0a000005 24 (by decide)).contains 0x0a0000ff = true := by decide

end PeerCove
