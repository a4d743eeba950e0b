/-
Module: PeerCove.Ops.DnsRecords
Layer: Operations
Purpose: Operations on the custom DNS records of `host.toml`: listing with ids filled in, adding,
  removing, and the settings of the health checks.
Trusted boundary: the file holds the text of its `Config`, so editing a table edits the record
Main exports: RecordTarget, NewRecord, RecordDetail, listRecords, addRecord, removeRecordById,
  setHealthById
-/
import PeerCove.Core.DnsZone
import PeerCove.Library.FreshName
import PeerCove.Ops.Settings

namespace PeerCove

open Fallible FilePrograms

inductive RecordTarget where
  | ip (ip : Ipv4Addr)
  | member (member : MemberRef)
  | cname (domain : String)
deriving DecidableEq

structure NewRecord where
  name : String
  target : RecordTarget
  under : Option MemberRef
  scheme : Option String
  port : Option UInt16
deriving DecidableEq

structure HealthSettings where
  enabled : Bool
  kind : HealthCheckKind
  path : String
  expectedStatus : Option UInt16
  external : Bool
deriving DecidableEq

/-- A record as it is listed, with what its references stand for. -/
structure RecordDetail where
  id : Option String
  name : String
  under : Option MemberRef
  relative : String
  fqdn : String
  target : RecordTarget
  resolvedIp : Option Ipv4Addr
  scheme : Option String
  port : Option UInt16
  url : Option String
  health : HealthSettings
deriving DecidableEq

/-! ### Listing -/

/-- `label_of`. -/
def labelOf (config : Config) : MemberRef → Option String
  | .host => some (hostDnsLabel config)
  | .key key => (config.peers.find? (fun peer => peer.publicKey = key)).map peerDnsLabel

/-- `ip_of`. -/
def ipOf (config : Config) : MemberRef → Option Ipv4Addr
  | .host => some config.interface.address.addr
  | .key key => (config.peers.find? (fun peer => peer.publicKey = key)).bind PeerConfig.virtualIp

/-- `service_url`: the default port of a scheme is left out. -/
def serviceUrl (fqdn : String) (scheme : Option String) (port : Option UInt16) : Option String :=
  match scheme with
  | none => none
  | some scheme =>
      if isServiceScheme scheme = false ∨ port = some 0 then none
      else
        match port with
        | none => some s!"{scheme}://{fqdn}/"
        | some port =>
            if (scheme = "http" ∧ port = 80) ∨ (scheme = "https" ∧ port = 443) then
              some s!"{scheme}://{fqdn}/"
            else
              some s!"{scheme}://{fqdn}:{port}/"

def DnsRecordConfig.healthSettings (record : DnsRecordConfig) : HealthSettings where
  enabled := record.healthEnabled
  kind := record.healthKind.getD .tcp
  path := record.healthPath.getD "/"
  expectedStatus := record.healthExpectStatus
  external := record.healthExternal

/-- The target with the address it stands for. -/
def recordTarget (config : Config) (record : DnsRecordConfig) : RecordTarget × Option Ipv4Addr :=
  match record.ip, record.member, record.cname with
  | some ip, _, _ => (.ip ip, some ip)
  | none, some member, _ => (.member member, ipOf config member)
  | none, none, some cname => (.cname cname, none)
  | none, none, none => (.ip 0, none)

def recordDetail (config : Config) (record : DnsRecordConfig) : RecordDetail :=
  let relative :=
    match record.under.bind (labelOf config) with
    | some parent => s!"{record.name}.{parent}"
    | none => record.name
  let name := fqdn config.networkName relative
  { id := record.id
    name := record.name
    under := record.under
    relative := relative
    fqdn := name
    target := (recordTarget config record).1
    resolvedIp := (recordTarget config record).2
    scheme := record.scheme
    port := record.port
    url := serviceUrl name record.scheme record.port
    health := record.healthSettings }

/-- The first unused id from the position of the record on. -/
def serialId (used : List String) (index : Nat) : String :=
  (FreshName.search (fun serial => s!"svc-{index + 1 + serial}") used).getD ""

/-- The loop of `list_records` over the tables without an id. -/
def fillIds : Nat → List String → List DnsRecordConfig → List DnsRecordConfig
  | _, _, [] => []
  | index, used, record :: rest =>
      match record.id with
      | some _ => record :: fillIds (index + 1) used rest
      | none =>
          let id := serialId used index
          { record with id := some id } :: fillIds (index + 1) (id :: used) rest

/-- `list_records`: records of earlier versions get their ids first. -/
def listRecords : HostProgram (List RecordDetail) := do
  let config ← loadConfig
  if config.dnsRecords.any (fun record => record.id.isNone) then
    Program.write (fun doc => do
      refuseIf (doc.dnsRecords = []) "dns_record が配列テーブルではありません"
      let used := config.dnsRecords.filterMap DnsRecordConfig.id
      writeValidated { doc with dnsRecords := fillIds 0 used doc.dnsRecords })
    let config ← loadConfig
    return config.dnsRecords.map (recordDetail config)
  else
    return config.dnsRecords.map (recordDetail config)

/-! ### Adding -/

/-- The text after the last dot. -/
def lastLabel (name : String) : String :=
  (Text.split '.' name).getLastD name

/-- Names directly below the network must not be reserved or taken. -/
def checkTopLevel (config : Config) (name : String) (under : Option MemberRef) :
    Except String Unit :=
  if under.isSome then .ok ()
  else do
    let base := lastLabel name
    refuseIf (base ∈ Names.RESERVED_DNS_LABELS ∨ base = Names.HOST_DNS_LABEL)
      s!"「{base}」は予約されているためレコード名に使えません"
    refuseIf (Names.isReservedMemberLabel base)
      s!"「{base}」は新しく参加するメンバーの自動名と衝突する可能性があるため、レコード名には使えません"
    refuseIf (base ∈ takenDnsLabels config .none)
      s!"DNS 名「{base}」はメンバーが使用しています(別の名前にしてください)"

/-- The name with the label of its parent. -/
def relativeName (config : Config) (name : String) (under : Option MemberRef) :
    Except String String :=
  match under with
  | none => .ok name
  | some reference =>
      match labelOf config reference with
      | some parent => .ok s!"{name}.{parent}"
      | none => .error "親に指定したメンバーが登録されていません"

/-- The table of a new record.  `stamp` is the time in nanoseconds. -/
def NewRecord.table (record : NewRecord) (name : String) (scheme : Option String) (stamp : Nat) :
    Except String DnsRecordConfig := do
  let table : DnsRecordConfig :=
    { id := some ("svc-" ++ String.ofList (Nat.toDigits 16 stamp))
      name := name
      under := record.under
      scheme := scheme
      port := record.port }
  match record.target with
  | .ip ip => return { table with ip := some ip }
  | .member member => return { table with member := some member }
  | .cname domain =>
      match Names.normalizeCnameTarget domain with
      | none => throw s!"転送先ドメイン \"{domain}\" が不正です(例: docs.example.com)"
      | some target => return { table with cname := some target }

def schemeRefused (scheme : String) : String :=
  s!"スキーム \"{scheme}\" が不正です(先頭は英字、以降は英数字と + . -、31 文字以内)"

/-- `add_record`, with the relative name of the record. -/
def addRecord (record : NewRecord) (stamp : Nat) : HostProgram String :=
  match Names.normalizeCustomDnsName record.name with
  | none =>
      .fail s!"\"{record.name}\" から有効な DNS 名を作れませんでした。英数字を含めてください(先頭ラベルのみ * が使えます)"
  | some name => do
      let scheme := (entered record.scheme).map (fun text =>
        String.ofList (text.toList.map Text.toAsciiLower))
      refuseIf (scheme.any (fun scheme => isServiceScheme scheme = false))
        (schemeRefused (scheme.getD ""))
      refuseIf (record.port = some 0) "ポートは 1〜65535 で指定してください"
      let config ← loadConfig
      refuseIf (config.dnsRecords.any (fun other =>
          other.name = name && other.under = record.under))
        s!"レコード \"{name}\" は既に存在します(削除してから追加し直してください)"
      checkTopLevel config name record.under
      let relative ← relativeName config name record.under
      Program.write (fun doc => do
        let table ← record.table name scheme stamp
        writeValidated { doc with dnsRecords := doc.dnsRecords ++ [table] })
      return relative

/-! ### Removing and changing -/

def recordMissing (name : String) : String :=
  s!"レコード \"{name}\" は存在しません"

/-- The table `remove_record` and `set_health` look for. -/
def DnsRecordConfig.isNamed (name : String) (under : Option MemberRef) (record : DnsRecordConfig) :
    Bool :=
  record.name = name && record.under = under

/-- Whether one end of a rule is the service. -/
def AclRule.namesService (id : String) (rule : AclRule) : Bool :=
  rule.source = .service id || rule.destination = .service id

/-- The edits of `remove_record`; the rules that name the service go with it. -/
def removeRecordEdit (name : String) (under : Option MemberRef) (removedId : Option String)
    (doc : Config) : Except String Config := do
  let left := doc.dnsRecords.filter (fun record => !record.isNamed name under)
  refuseIf (left.length = doc.dnsRecords.length) (recordMissing name)
  let rules :=
    match removedId with
    | some id => doc.acl.rules.filter (fun rule => !rule.namesService id)
    | none => doc.acl.rules
  writeValidated { doc with dnsRecords := left, acl := { doc.acl with rules := rules } }

/-- `remove_record`. -/
def removeRecord (name : String) (under : Option MemberRef) : HostProgram Unit := do
  let config ← loadConfig
  let removedId := (config.dnsRecords.find? (DnsRecordConfig.isNamed name under)).bind
    DnsRecordConfig.id
  Program.write (removeRecordEdit name under removedId)

/-- The health settings as the file holds them: defaults are not written. -/
def DnsRecordConfig.withHealth (settings : HealthSettings) (record : DnsRecordConfig) :
    DnsRecordConfig :=
  { record with
    healthCheck := some settings.enabled
    healthKind := if settings.kind = .tcp then none else some .httpHead
    healthPath := if settings.path = "/" then none else some settings.path
    healthExpectStatus := settings.expectedStatus
    healthExternal := settings.external }

/-- `iter_mut().find(…)`: the first record with this name and parent is changed. -/
def changeRecord (name : String) (under : Option MemberRef)
    (change : DnsRecordConfig → DnsRecordConfig) : List DnsRecordConfig → List DnsRecordConfig
  | [] => []
  | record :: rest =>
      if record.isNamed name under then change record :: rest
      else record :: changeRecord name under change rest

def setHealthEdit (name : String) (under : Option MemberRef) (settings : HealthSettings)
    (doc : Config) : Except String Config := do
  refuseIf (doc.dnsRecords = []) "dns_record が配列テーブルではありません"
  refuseIf (doc.dnsRecords.all (fun record => !record.isNamed name under)) (recordMissing name)
  let records := changeRecord name under (DnsRecordConfig.withHealth settings) doc.dnsRecords
  writeValidated { doc with dnsRecords := records }

/-- `find_by_id`. -/
def findById (id : String) : HostProgram DnsRecordConfig := do
  let config ← loadConfig
  match config.dnsRecords.find? (fun record => record.id = some id) with
  | some record => return record
  | none => Program.fail "レコードが見つかりません(既に削除された可能性があります)"

def removeRecordById (id : String) : HostProgram Unit := do
  let record ← findById id
  removeRecord record.name record.under

def setHealthById (id : String) (settings : HealthSettings) : HostProgram Unit := do
  let record ← findById id
  Program.write (setHealthEdit record.name record.under settings)

end PeerCove
