/-
Module: PeerCove.Core.DnsZone
Layer: Core
Purpose: The zone every node derives from the ledger and the custom records, and the records as the
  host resolves them for distribution.
Trusted boundary: none
Main exports: ZoneEntry, zoneFor, resolveRecords, resolveCnames
-/
import PeerCove.Core.Ledger

namespace PeerCove

def DNS_SUFFIX : String := "peercove.internal"

/-- One name of the zone.  Custom records have no key. -/
structure ZoneEntry where
  fqdn : String
  ip : Ipv4Addr
  publicKey : Option PublicKey
deriving DecidableEq

def fqdn (network name : String) : String :=
  s!"{name}.{network}.{DNS_SUFFIX}"

/-- The entry of a member with its label. -/
def memberEntry (network : String) (member : LedgerEntry × String) : ZoneEntry where
  fqdn := fqdn network member.2
  ip := member.1.ip
  publicKey := some member.1.publicKey

def customEntry (network : String) (record : DnsRecord) : ZoneEntry where
  fqdn := fqdn network record.name
  ip := record.ip
  publicKey := none

/-- The loop of `zone_for` over the custom records: names that are taken or no names are passed
over. -/
def customRecords : List String → List DnsRecord → List DnsRecord
  | _, [] => []
  | taken, record :: rest =>
      if Names.isCustomDnsName record.name = false ∨ record.name ∈ taken then
        customRecords taken rest
      else
        record :: customRecords (record.name :: taken) rest

/-- `zone_for`. -/
def zoneFor (network : String) (ledger : List LedgerEntry) (custom : List DnsRecord) :
    List ZoneEntry :=
  let members := labelledMembers ledger
  members.map (memberEntry network) ++
    (customRecords (members.map Prod.snd) custom).map (customEntry network)

/-! ### Records of the configuration -/

def MemberRef.names (reference : MemberRef) (member : LedgerEntry) : Bool :=
  match reference with
  | .host => member.isHost
  | .key wanted => member.publicKey = wanted

/-- `lookup` in `resolve_records`, `label_of` in `resolve_cnames`. -/
def lookupMember (ledger : List LedgerEntry) (reference : MemberRef) :
    Option (LedgerEntry × String) :=
  (labelledMembers ledger).find? (fun member => reference.names member.1)

/-- The name of a record, which stands before the label of the member it is under. -/
def resolvedName (ledger : List LedgerEntry) (record : DnsRecordConfig) : Option String :=
  match record.under with
  | none => some record.name
  | some under => (lookupMember ledger under).map (fun member => s!"{record.name}.{member.2}")

def resolvedIp (ledger : List LedgerEntry) (record : DnsRecordConfig) : Option Ipv4Addr :=
  match record.ip, record.member with
  | some ip, _ => some ip
  | none, some member => (lookupMember ledger member).map (fun member => member.1.ip)
  | none, none => none

/-- The loop body of `resolve_records`. -/
def resolveRecord (ledger : List LedgerEntry) (record : DnsRecordConfig) : Option DnsRecord := do
  let ip ← resolvedIp ledger record
  let name ← resolvedName ledger record
  return {
    id := record.id
    name := name
    ip := ip
    scheme := record.scheme
    port := record.port }

def resolveRecords (records : List DnsRecordConfig) (ledger : List LedgerEntry) :
    List DnsRecord :=
  records.filterMap (resolveRecord ledger)

/-- The loop body of `resolve_cnames`. -/
def resolveCname (ledger : List LedgerEntry) (record : DnsRecordConfig) : Option CnameRecord := do
  let target ← record.cname
  let name ← resolvedName ledger record
  return {
    id := record.id
    name := name
    target := target
    scheme := record.scheme
    port := record.port }

def resolveCnames (records : List DnsRecordConfig) (ledger : List LedgerEntry) :
    List CnameRecord :=
  records.filterMap (resolveCname ledger)

end PeerCove
