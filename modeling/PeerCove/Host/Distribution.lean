/-
Module: PeerCove.Host.Distribution
Layer: Host
Purpose: What the host distributes, and what of it one member is sent.
Trusted boundary: none
Main exports: Distribution, LedgerMessage, ledgerMessageFor
-/
import PeerCove.Core.Ledger

namespace PeerCove

/-- Everything that is distributed when one part of it changes. -/
structure Distribution where
  members : List LedgerEntry := []
  dnsRecords : List DnsRecord := []
  cnameRecords : List CnameRecord := []
  networkDisplayName : Option String := none
  deny : List (Ipv4Addr × Ipv4Addr) := []
  /-- Pairs that must not communicate directly, with the rule that is the reason. -/
  forceRelay : List (Ipv4Addr × Ipv4Addr × String) := []
  permGroups : List PermGroupInfo := []
deriving DecidableEq

/-- `ControlMessage::Ledger`. -/
structure LedgerMessage where
  members : List LedgerEntry
  dnsRecords : List DnsRecord
  cnameRecords : List CnameRecord
  networkDisplayName : Option String
  permGroups : List PermGroupInfo
deriving DecidableEq

/-- The invitation of the member waits for an approval. -/
def LedgerEntry.awaitsApproval (entry : LedgerEntry) : Bool :=
  entry.inviteStatus = some "awaiting_approval"

/-- Addresses of the members that wait for an approval. -/
def Distribution.isolatedIps (dist : Distribution) : List Ipv4Addr :=
  (dist.members.filter LedgerEntry.awaitsApproval).map LedgerEntry.ip

/-- The fixed names of the entries with such an address. -/
def Distribution.isolatedLabels (dist : Distribution) : List String :=
  (dist.members.filter (fun entry => entry.ip ∈ dist.isolatedIps)).filterMap LedgerEntry.dnsName

/-- A pair in either order. -/
def pairIs (a b one two : Ipv4Addr) : Bool :=
  (a = one && b = two) || (a = two && b = one)

/-- The first half of the loop body: a denied member has no endpoint. -/
def blockEntry (deny : List (Ipv4Addr × Ipv4Addr)) (memberIp : Ipv4Addr) (entry : LedgerEntry) :
    LedgerEntry :=
  if deny.any (fun pair => pairIs pair.1 pair.2 memberIp entry.ip) then
    { entry with endpoint := none, endpointAgeSecs := none, blocked := true }
  else
    entry

/-- The second half: neither has a member that has to be relayed. -/
def relayEntry (forceRelay : List (Ipv4Addr × Ipv4Addr × String)) (memberIp : Ipv4Addr)
    (entry : LedgerEntry) : LedgerEntry :=
  match forceRelay.find? (fun pair => pairIs pair.1 pair.2.1 memberIp entry.ip) with
  | some (_, _, ruleId) =>
      { entry with
        endpoint := none
        endpointAgeSecs := none
        forceRelay := true
        aclRuleId := some ruleId }
  | none => entry

/-- The recipient is a member that manages the network for the host. -/
def Distribution.recipientIsAdmin (dist : Distribution) (memberIp : Ipv4Addr) : Bool :=
  dist.members.any (fun entry => entry.ip = memberIp && entry.isAdmin)

/-- `ledger_message_for`: the snapshot as one member is sent it. -/
def ledgerMessageFor (dist : Distribution) (memberIp : Ipv4Addr) : LedgerMessage :=
  let isolatedIps := dist.isolatedIps
  let isolatedLabels := dist.isolatedLabels
  let members :=
    if dist.recipientIsAdmin memberIp then dist.members
    else dist.members.filter (fun entry => entry.ip ∉ isolatedIps)
  { members := members.map (fun entry =>
      relayEntry dist.forceRelay memberIp (blockEntry dist.deny memberIp entry))
    dnsRecords := dist.dnsRecords.filter (fun record => record.ip ∉ isolatedIps)
    cnameRecords := dist.cnameRecords.filter (fun record =>
      !isolatedLabels.any (fun label => (Text.split '.' record.name).any (· = label)))
    networkDisplayName := dist.networkDisplayName
    permGroups := dist.permGroups }

end PeerCove
