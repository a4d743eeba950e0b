/-
Module: PeerCove.Core.Ledger
Layer: Core
Purpose: The ledger of members with the DNS records that travel with it, and the labels every node
  derives from it.
Trusted boundary: none
Main exports: LedgerEntry, DnsRecord, CnameRecord, assignLabels
-/
import PeerCove.Core.Config

namespace PeerCove

structure LedgerEntry where
  name : Option String := none
  dnsName : Option String := none
  ip : Ipv4Addr
  publicKey : PublicKey
  appVersion : Option String := none
  platform : Option String := none
  capabilities : List String := []
  memberId : Option String := none
  canInvite : Bool := false
  isAdmin : Bool := false
  invitedBy : Option String := none
  inviteStatus : Option String := none
  inviteExpiresAt : Option Nat := none
  online : Bool
  isHost : Bool := false
  /-- Where the host sees the member, for direct communication. -/
  endpoint : Option SocketAddr := none
  endpointAgeSecs : Option Nat := none
  subnets : List Ipv4Net := []
  /-- Set for one recipient: denied by the host's policy. -/
  blocked : Bool := false
  /-- Set for one recipient: relayed by the host. -/
  forceRelay : Bool := false
  aclRuleId : Option String := none
deriving DecidableEq

/-! ### Records on the wire -/

inductive ServiceHealthStatus where
  | healthy
  | unhealthy
  | unknown
  | disabled
deriving Repr, DecidableEq

inductive ServiceHealthReason where
  | notChecked
  | offline
  | timeout
  | connectionFailed
  | nameResolutionFailed
  | unexpectedStatus
  | disabled
deriving Repr, DecidableEq

structure ServiceHealth where
  status : ServiceHealthStatus
  reason : ServiceHealthReason
  checkedAtUnixMs : Option Nat := none
  responseMs : Option Nat := none
  httpStatus : Option UInt16 := none
deriving DecidableEq

/-- A custom record with its address.  A record under a member has the label of that member at
the end of its name. -/
structure DnsRecord where
  id : Option String := none
  name : String
  ip : Ipv4Addr
  scheme : Option String := none
  port : Option UInt16 := none
  health : Option ServiceHealth := none
deriving DecidableEq

structure CnameRecord where
  id : Option String := none
  name : String
  target : String
  resolvedIp : Option Ipv4Addr := none
  scheme : Option String := none
  port : Option UInt16 := none
  health : Option ServiceHealth := none
deriving DecidableEq

structure PermGroupInfo where
  id : String
  name : String
  members : List Ipv4Addr
deriving DecidableEq

/-! ### Labels -/

/-- `uniquify`: the base, else with the octet, else with the first free number from 2 on.  Among
one more number than labels are taken one is free. -/
def uniquify (base : String) (oct : Nat) (taken : List String) : String :=
  if base ∉ taken then
    base
  else
    let withOct := s!"{base}-{oct}"
    if withOct ∉ taken then
      withOct
    else
      let numbered := (List.range (taken.length + 1)).map (fun i => s!"{withOct}-{i + 2}")
      (numbered.find? (· ∉ taken)).getD withOct

/-- First pass of `assign_labels`: names that are fixed, with the labels taken so far. -/
def fixedLabels : List String → List LedgerEntry → List (Option String) × List String
  | taken, [] => ([], taken)
  | taken, member :: rest =>
      match member.dnsName with
      | none =>
          let later := fixedLabels taken rest
          (none :: later.1, later.2)
      | some fixed =>
          if Names.isDnsLabel fixed then
            let label := uniquify fixed (member.ip.octet 3) taken
            let later := fixedLabels (label :: taken) rest
            (some label :: later.1, later.2)
          else
            let later := fixedLabels taken rest
            (none :: later.1, later.2)

/-- The label of a member without a fixed name, before it is made unique. -/
def LedgerEntry.derivedBase (member : LedgerEntry) : String :=
  (member.name.bind Names.dnsLabel).getD
    (if member.isHost then "host" else s!"member-{member.ip.octet 3}")

/-- Second pass of `assign_labels`: names derived for the others. -/
def derivedLabels : List String → List (LedgerEntry × Option String) → List String
  | _, [] => []
  | taken, (_, some label) :: rest => label :: derivedLabels taken rest
  | taken, (member, none) :: rest =>
      let label := uniquify member.derivedBase (member.ip.octet 3) taken
      label :: derivedLabels (label :: taken) rest

/-- `assign_labels`, for members in the order of their addresses. -/
def assignLabels (members : List LedgerEntry) : List String :=
  let fixed := fixedLabels [] members
  derivedLabels fixed.2 (members.zip fixed.1)

/-- The members in the order of their addresses, each with its label. -/
def labelledMembers (ledger : List LedgerEntry) : List (LedgerEntry × String) :=
  let members := ledger.insertionSort (fun one two => one.ip ≤ two.ip)
  members.zip (assignLabels members)

end PeerCove
