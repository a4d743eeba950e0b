/-
Module: PeerCove.Member.DnsResolver
Layer: Member
Purpose: The resolver that every node runs: the tables it merges from the zones of all networks, how
  a question is read, and the response to a query.
Trusted boundary: none
Main exports: DnsTables, NetworkZone, mergeZones, DnsTables.find, parseQuestion, respond
-/
import PeerCove.Core.AclSessions
import PeerCove.Core.DnsZone
import PeerCove.Library.Table
import PeerCove.Library.Wire

namespace PeerCove

def DNS_TTL_SECS : Nat := 30
def RCODE_NOERROR : UInt8 := 0
def RCODE_FORMERR : UInt8 := 1
def RCODE_NXDOMAIN : UInt8 := 3
def RCODE_NOTIMP : UInt8 := 4
def TYPE_A : UInt16 := 1
def TYPE_CNAME : UInt16 := 5
def CLASS_IN : UInt16 := 1

/-- An alias, with the address it was resolved to. -/
structure CnameTarget where
  target : String
  ip : Option Ipv4Addr
deriving DecidableEq

/-- `Zone`: the names of all networks. -/
structure DnsTables where
  a : Table String Ipv4Addr := Table.empty
  cname : Table String CnameTarget := Table.empty

/-- `NetworkZoneData`.  The configuration and the tokens have labels for names of networks. -/
structure NetworkZone where
  network : String
  ledger : List LedgerEntry
  custom : List DnsRecord
  cnames : List CnameRecord
  networkLabel : Names.isDnsLabel network = true

/-! ### Tables -/

/-- A custom alias is passed over when an address has its name. -/
def mergeCname (network : String) (addresses : Table String Ipv4Addr)
    (table : Table String CnameTarget) (record : CnameRecord) : Table String CnameTarget :=
  if Names.isCustomDnsName record.name = false then table
  else if (addresses.get? (fqdn network record.name)).isSome then table
  else table.insert (fqdn network record.name) { target := record.target, ip := record.resolvedIp }

/-- The loop body of `merge_zones`: the entries of a later network replace others. -/
def mergeNetwork (zone : DnsTables) (data : NetworkZone) : DnsTables :=
  let a := (zoneFor data.network data.ledger data.custom).foldl
    (fun table entry => table.insert entry.fqdn entry.ip) zone.a
  { a := a
    cname := data.cnames.foldl (mergeCname data.network a) zone.cname }

def mergeZones (networks : List NetworkZone) : DnsTables :=
  networks.foldl mergeNetwork {}

/-! ### Lookups -/

/-- The name with `*` for what is in front of its first dot. -/
def wildcardName (name : String) : Option String :=
  (Text.splitOnce '.' name).map (fun parts => s!"*.{parts.2}")

/-- The row with a name, or else with its wildcard (`wildcard_lookup`), and the name it has. -/
def lookup {ρ : Type} (table : Table String ρ) (name : String) : Option (String × ρ) :=
  match table.get? name with
  | some row => some (name, row)
  | none => (wildcardName name).bind (fun wildcard =>
      (table.get? wildcard).map (fun row => (wildcard, row)))

/-- What a response is made from, under the name of its record. -/
inductive Found where
  | address (name : String) (ip : Ipv4Addr)
  | cname (name : String) (target : CnameTarget)
  | nothing
deriving DecidableEq

/-- The addresses are searched before the aliases. -/
def DnsTables.find (zone : DnsTables) (name : String) : Found :=
  match lookup zone.a name with
  | some (key, ip) => .address key ip
  | none =>
      match lookup zone.cname name with
      | some (key, target) => .cname key target
      | none => .nothing

/-! ### Questions -/

/-- `to_ascii_lowercase() as char` of a byte. -/
def nameChar (byte : UInt8) : Char :=
  Text.toAsciiLower (Char.ofNat byte.toNat)

/-- The loop of `parse_question` over the labels, with the name so far: the name, and what is left.
Every round takes a byte at least. -/
def questionName : Nat → List UInt8 → String → Option (String × List UInt8)
  | 0, _, _ => none
  | _ + 1, [], _ => none
  | fuel + 1, len :: rest, name =>
      if len = 0 then some (name, rest)
      else if len.toNat > 63 ∨ len.toNat > rest.length then none
      else
        let dotted := if name = "" then name else name ++ "."
        let longer := dotted ++ String.ofList ((rest.take len.toNat).map nameChar)
        if Text.len longer > 253 then none
        else questionName fuel (rest.drop len.toNat) longer

structure ParsedQuestion where
  name : String
  qtype : UInt16
  qclass : UInt16
  /-- The section as it stands in the query. -/
  bytes : List UInt8

/-- `parse_question`, on what comes after the header. -/
def parseQuestion (body : List UInt8) : Option ParsedQuestion :=
  match questionName (body.length + 1) body "" with
  | some (name, t1 :: t2 :: c1 :: c2 :: rest) =>
      some {
        name := name
        qtype := be16 t1 t2
        qclass := be16 c1 c2
        bytes := body.take (body.length - rest.length) }
  | _ => none

/-! ### Responses -/

/-- `encode_name`. -/
def encodeName (name : String) : List UInt8 :=
  ((Text.split '.' name).filter (· ≠ "")).flatMap (fun label =>
    let bytes := (Text.utf8Bytes label).take 63
    UInt8.ofNat bytes.length :: bytes) ++ [0]

/-- A record that answers the name in the question. -/
def answerRecord (rtype : UInt16) (data : List UInt8) : List UInt8 :=
  [0xC0, 0x0C] ++ Wire.bigEndian 2 rtype.toNat ++ Wire.bigEndian 2 CLASS_IN.toNat ++
    Wire.bigEndian 4 DNS_TTL_SECS ++ Wire.bigEndian 2 data.length ++ data

/-- An address answers only the questions that ask for one. -/
def addressAnswer (question : ParsedQuestion) (ip : Ipv4Addr) : Option (List UInt8) :=
  if question.qtype = TYPE_A ∧ question.qclass = CLASS_IN then
    some (answerRecord TYPE_A (Wire.bigEndian 4 ip.toNat))
  else none

/-- The answer, where there is one. -/
def answer (question : ParsedQuestion) : Found → Option (List UInt8)
  | .address _ ip => addressAnswer question ip
  | .cname _ { target := _, ip := some ip } => addressAnswer question ip
  | .cname _ { target := target, ip := none } =>
      if question.qclass = CLASS_IN then some (answerRecord TYPE_CNAME (encodeName target))
      else none
  | .nothing => none

/-- The header of the response to a query. -/
def responseHeader (query : List UInt8) (rcode : UInt8) (ancount : Nat) (echoQuestion : Bool) :
    List UInt8 :=
  let flags1 : UInt8 := query.getD 2 0
  let opcode : UInt8 := (flags1 >>> 3) &&& 0x0F
  [query.getD 0 0, query.getD 1 0, (0x80 : UInt8) ||| (opcode <<< 3) ||| 0x04 ||| (flags1 &&& 0x01),
      rcode] ++
    Wire.bigEndian 2 echoQuestion.toNat ++ Wire.bigEndian 2 ancount ++ [0, 0, 0, 0]

/-- The response to a question. -/
def reply (query : List UInt8) (question : ParsedQuestion) (found : Found) : List UInt8 :=
  let rcode := if found = .nothing then RCODE_NXDOMAIN else RCODE_NOERROR
  let answer := answer question found
  responseHeader query rcode answer.toList.length true ++ question.bytes ++ answer.getD []

def respond (query : List UInt8) (zone : DnsTables) : Option (List UInt8) :=
  let flags1 := query.getD 2 0
  if query.length < 12 then none
  else if flags1 &&& 0x80 ≠ 0 then none
  else if (flags1 >>> 3) &&& 0x0F ≠ 0 then some (responseHeader query RCODE_NOTIMP 0 false)
  else if be16 (query.getD 4 0) (query.getD 5 0) ≠ 1 then
    some (responseHeader query RCODE_FORMERR 0 false)
  else
    match parseQuestion (query.drop 12) with
    | none => some (responseHeader query RCODE_FORMERR 0 false)
    | some question => some (reply query question (zone.find question.name))

end PeerCove
