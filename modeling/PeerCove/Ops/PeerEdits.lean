/-
Module: PeerCove.Ops.PeerEdits
Layer: Operations
Purpose: Adding, removing and naming the peers of `host.toml`.  Each operation takes the
  configuration it read first and the document it edits under the lock.
Trusted boundary: the file holds the text of its `Config`, so editing a table edits the record
Main exports: appendPeer, removePeer, renamePlan, dnsNamePlan
-/
import PeerCove.Core.Token
import PeerCove.Ops.Acl

namespace PeerCove

open Fallible

/-- The answer when the edited document has no such peer. -/
def PEER_NOT_LOCATED : String := "host.toml から対象ピアを特定できませんでした"

/-! ### Adding a peer -/

/-- The first unused address among `count` addresses from `value` on. -/
def firstFree (used : List Ipv4Addr) : Nat → Nat → Option Ipv4Addr
  | 0, _ => none
  | count + 1, value =>
      let ip : Ipv4Addr := BitVec.ofNat 32 value
      if ip ∈ used then firstFree used count (value + 1) else some ip

/-- `next_free_ip`: the lowest host address that is not used. -/
def nextFreeIp (net : Ipv4Net) (used : List Ipv4Addr) : Option Ipv4Addr :=
  let lowest := net.network.toNat
  let highest := net.broadcast.toNat
  if net.prefixLen < 31 then firstFree used (highest - lowest - 1) (lowest + 1)
  else firstFree used (highest - lowest + 1) lowest

/-- `used_ips`: the host's address and those of the peers. -/
def usedIps (config : Config) : List Ipv4Addr :=
  config.interface.address.addr ::
    config.peers.flatMap (fun peer => peer.allowedIps.map Ipv4Net.addr)

structure NewPeer where
  publicKey : PublicKey
  ip : Ipv4Addr
  name : Option String := none
  dnsName : Option String := none
  inviteId : Option String := none
  inviteIssuedAt : Option Nat := none
  inviteExpiresAt : Option Nat := none
  invitedById : Option String := none
  invitedByName : Option String := none
deriving DecidableEq

/-- The texts that stand quoted in the appended block. -/
def NewPeer.quoted (peer : NewPeer) : List String :=
  [peer.name, peer.dnsName, peer.inviteId, peer.invitedById, peer.invitedByName].filterMap id

/-- Whether TOML reads the text that `{:?}` makes of a string.  `escaped` are the characters that
it writes as `\u{…}`, which TOML does not know, and neither does it know `\0`. -/
def tomlReads (escaped : Char → Bool) (value : String) : Bool :=
  value.toList.all (fun c => !escaped c && c.toNat ≠ 0)

/-- The peer that the appended block describes. -/
def NewPeer.entry (peer : NewPeer) (config : Config) : PeerConfig where
  name := peer.name
  dnsName := peer.dnsName
  inviteId := peer.inviteId
  inviteIssuedAt := peer.inviteIssuedAt
  inviteExpiresAt := peer.inviteExpiresAt
  invitedById := peer.invitedById
  invitedByName := peer.invitedByName
  inviteRequiresApproval := config.interface.requireInviteApproval && peer.inviteId.isSome
  publicKey := peer.publicKey
  allowedIps := [Ipv4Net.host peer.ip]

/-- `append_peer`: everything happens under the lock. -/
def appendPeer (escaped : Char → Bool) (peer : NewPeer) (config : Config) :
    Except String Config := do
  config.validate
  let subnet := config.interface.address.trunc
  refuseIf (subnet.contains peer.ip = false)
    s!"IP {peer.ip.display} はトンネルのサブネット {subnet.display} の範囲外です"
  refuseIf (peer.ip = config.interface.address.addr)
    s!"IP {peer.ip.display} はホスト自身のアドレスです"
  refuseIf (config.peers.any (fun other => other.publicKey = peer.publicKey))
    s!"公開鍵 {peer.publicKey.toBase64} のピアは既に登録されています"
  let used := usedIps config
  let suggestion :=
    match nextFreeIp subnet used with
    | some free => s!"(空きの例: {free.display})"
    | none => ""
  refuseIf (peer.ip ∈ used) s!"IP {peer.ip.display} は使用済みです{suggestion}"
  refuseIf (¬ peer.quoted.all (tomlReads escaped)) "編集結果の TOML が不正です"
  writeValidated { config with peers := config.peers ++ [peer.entry config] }

/-! ### Removing a peer -/

/-- What `remove_peer` takes along from the configuration it read before the lock. -/
structure RemovalPlan where
  key : PublicKey
  display : String
  /-- The pairs to be written back, when one of them named the address of the member. -/
  keep : Option (List (Ipv4Addr × Ipv4Addr))
  /-- Ids of the records of the member or under it. -/
  serviceIds : List String
deriving DecidableEq

/-- Whether a denied pair names the address. -/
def AclConfig.denyNames (acl : AclConfig) (ip : Ipv4Addr) : Bool :=
  acl.deny.any (fun pair => pair.1 = ip || pair.2 = ip)

/-- Whether a record belongs to the member or stands under it. -/
def DnsRecordConfig.refersTo (key : PublicKey) (record : DnsRecordConfig) : Bool :=
  record.member = some (.key key) || record.under = some (.key key)

/-- Everything the removal of `target` takes from the configuration. -/
def PeerConfig.removal (target : PeerConfig) (config : Config) : RemovalPlan where
  key := target.publicKey
  display := target.name.getD target.publicKey.toBase64
  keep := target.virtualIp.bind (fun ip =>
    if config.acl.denyNames ip then
      some (config.acl.normalizedDeny.filter (fun pair => pair.1 ≠ ip && pair.2 ≠ ip))
    else
      none)
  serviceIds :=
    (config.dnsRecords.filter (DnsRecordConfig.refersTo target.publicKey)).filterMap
      DnsRecordConfig.id

def removalPlan (config : Config) (selector : Selector) : Except String RemovalPlan := do
  config.validate
  let target ← findPeer config selector
  return target.removal config

def AclGroup.withoutMember (key : PublicKey) (group : AclGroup) : AclGroup :=
  { group with members := group.members.filter (fun member => member ≠ key) }

/-- Ids of the groups that have no member but `key`. -/
def AclConfig.groupsLeftEmpty (acl : AclConfig) (key : PublicKey) : List String :=
  (acl.groups.filter (fun group => (group.withoutMember key).members = [])).map AclGroup.id

/-- Whether one end of a rule is the member, a removed group or a removed service. -/
def AclTarget.isRemoved (key : PublicKey) (groups services : List String) : AclTarget → Bool
  | .member other => other = key
  | .group id => id ∈ groups
  | .service id => id ∈ services
  | .any _ => false
  | .subnet _ => false

/-- The cleaning of the section `[acl]`: groups first, then the rules that refer to what went. -/
def AclConfig.withoutMember (acl : AclConfig) (key : PublicKey) (services : List String) :
    AclConfig :=
  let removed := acl.groupsLeftEmpty key
  { acl with
    groups := (acl.groups.map (AclGroup.withoutMember key)).filter (fun group => group.id ∉ removed)
    rules := acl.rules.filter (fun rule =>
      !rule.source.isRemoved key removed services &&
        !rule.destination.isRemoved key removed services) }

/-- The edits of `remove_peer` on the document. -/
def RemovalPlan.apply (plan : RemovalPlan) (doc : Config) : Config :=
  let acl :=
    match plan.keep with
    | some keep => (writeDeny doc keep).acl
    | none => doc.acl
  { doc with
    peers := doc.peers.filter (fun peer => peer.publicKey ≠ plan.key)
    acl := acl.withoutMember plan.key plan.serviceIds
    dnsRecords := doc.dnsRecords.filter (fun record => !record.refersTo plan.key) }

def RemovalPlan.edit (plan : RemovalPlan) (doc : Config) : Except String Config := do
  refuseIf (doc.peers = []) "[[peer]] が見つかりません"
  refuseIf ((plan.apply doc).peers.length ≠ doc.peers.length - 1)
    "host.toml から対象ピアを特定できませんでした(手編集で public_key が変わっている可能性)"
  writeValidated (plan.apply doc)

structure RemovedPeer where
  display : String
  publicKey : PublicKey
deriving DecidableEq

def RemovalPlan.removed (plan : RemovalPlan) : RemovedPeer where
  display := plan.display
  publicKey := plan.key

/-- `remove_peer`, when nobody else writes the file meanwhile. -/
def removePeer (config : Config) (selector : Selector) : Except String (RemovedPeer × Config) := do
  let plan ← removalPlan config selector
  let written ← plan.edit config
  return (plan.removed, written)

/-! ### Names -/

/-- `validate_name`. -/
def validateName (name : String) : Except String Unit := do
  refuseIf (name = "" ∨ Text.len name > MAX_NAME_LEN)
    s!"名前は 1〜{MAX_NAME_LEN} バイトにしてください(実際 {Text.len name} バイト)"
  refuseIf (name.toList.any (fun c => Text.isControl c || c = '"' || c = '\\'))
    "名前に制御文字・引用符・バックスラッシュは使えません"

/-- Edit each `[[peer]]` table of the key; there has to be one. -/
def editPeer (key : PublicKey) (edit : PeerConfig → PeerConfig) (doc : Config) :
    Except String Config := do
  refuseIf (doc.peers = []) "[[peer]] が見つかりません"
  refuseIf (doc.peers.all (fun peer => peer.publicKey ≠ key)) PEER_NOT_LOCATED
  let change := fun (peer : PeerConfig) => if peer.publicKey = key then edit peer else peer
  writeValidated { doc with peers := doc.peers.map change }

/-- The checks of `rename_peer`; the key whose tables are renamed. -/
def renamePlan (config : Config) (selector : Selector) (newName : String) :
    Except String PublicKey := do
  validateName newName
  config.validate
  let target ← findPeer config selector
  refuseIf (config.peers.any (fun peer =>
      peer.name = some newName && peer.publicKey ≠ target.publicKey))
    s!"名前 {newName} は既に使われています"
  return target.publicKey

/-- The label of the host: fixed, else made of its display name, else `host`. -/
def hostDnsLabel (config : Config) : String :=
  config.interface.dnsName.getD
    ((config.interface.displayName.bind Names.dnsLabel).getD Names.HOST_DNS_LABEL)

/-- The label of a peer: fixed, else made of its name, else of its address. -/
def peerDnsLabel (peer : PeerConfig) : String :=
  (peer.dnsName.or (peer.name.bind Names.dnsLabel)).getD
    s!"member-{(peer.virtualIp.map (fun ip => ip.octet 3)).getD 0}"

/-- Whose label is no duplicate of itself. -/
inductive DnsExclude where
  | none
  | host
  | peer (key : PublicKey)
deriving DecidableEq

/-- `taken_dns_labels`. -/
def takenDnsLabels (config : Config) (exclude : DnsExclude) : List String :=
  (if exclude = .host then [] else [hostDnsLabel config]) ++
    (config.peers.filter (fun peer => exclude ≠ .peer peer.publicKey)).map peerDnsLabel ++
    (config.dnsRecords.filter (fun record => record.under.isNone)).map DnsRecordConfig.name

inductive DnsNameOutcome where
  | applied (display label : String)
  | unchanged (label : String)
deriving Repr, DecidableEq

/-- What `set_peer_dns_name` finds out before the lock: nothing to do, or whose label to set. -/
inductive DnsNamePlan where
  | unchanged (label : String)
  | apply (key : PublicKey) (display label : String)
deriving DecidableEq

def dnsNamePlan (config : Config) (selector : Selector) (input : String) :
    Except String DnsNamePlan :=
  match Names.normalizeDnsName input false with
  | .error error => .error error.message
  | .ok label => do
      config.validate
      let target ← findPeer config selector
      let display := target.name.getD label
      if target.dnsName = some label then
        return .unchanged label
      else
        refuseIf (label ∈ takenDnsLabels config (.peer target.publicKey))
          s!"DNS 名「{label}」はこのネットワークで既に使用されています"
        return .apply target.publicKey display label

end PeerCove
