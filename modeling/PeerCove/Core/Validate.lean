/-
Module: PeerCove.Core.Validate
Layer: Core
Purpose: `Config::validate`: the checks every configuration passes on load and before each write.
Trusted boundary: none
Main exports: Config.validate, Config.validate_ok, ValidConfig
-/
import PeerCove.Core.AclPolicy

namespace PeerCove

open Fallible

/-- Identifiers of invitations and devices: 32 hexadecimal digits. -/
def validId (value : String) : Bool :=
  Text.len value = 32 && value.toList.all Text.isAsciiHexDigit

/-- Longest scheme of a service URL. -/
def MAX_SERVICE_SCHEME_LEN : Nat := 31

/-- Whether the input is a normalised URI scheme. -/
def isServiceScheme (input : String) : Bool :=
  if input = "" ∨ Text.len input > MAX_SERVICE_SCHEME_LEN then false
  else
    match input.toList with
    | [] => false
    | first :: rest =>
        Text.isAsciiLower first &&
          rest.all (fun c =>
            Text.isAsciiLower c || Text.isAsciiDigit c || c = '+' || c = '.' || c = '-')

/-! ### Interface and peers -/

def checkInterface (interface : InterfaceConfig) : Except String Unit := do
  let address := interface.address
  refuseIf (address.prefixLen > 30)
    s!"interface.address のプレフィックス長 /{address.prefixLen} が長すぎます(/30 以下にしてください)"
  refuseIf (address.addr = address.network ∨ address.addr = address.broadcast)
    s!"interface.address {address.addr.display} はネットワーク/ブロードキャストアドレスです"
  refuseIf (interface.mtu < 576) s!"mtu {interface.mtu} が小さすぎます(576 以上)"
  refuseIf (interface.deviceId.any (fun id => !validId id)) "interface.device_id が不正です"

/-- Metadata of a peer whose invitation the host has on record. -/
def checkInvite (i : Nat) (peer : PeerConfig) : Except String Unit :=
  match peer.inviteId, peer.inviteIssuedAt with
  | none, _ => .error s!"peer[{i}] の invite_id がありません"
  | some id, none => do
      refuseIf (validId id = false) s!"peer[{i}] の invite_id が不正です"
      throw s!"peer[{i}] の invite_issued_at がありません"
  | some id, some issued => do
      refuseIf (validId id = false) s!"peer[{i}] の invite_id が不正です"
      refuseIf (peer.inviteExpiresAt.any (fun expires => expires ≤ issued))
        s!"peer[{i}] の招待期限が発行時刻以前です"
      refuseIf (peer.inviteAcceptedAt.any (fun accepted => accepted < issued))
        s!"peer[{i}] の参加時刻が発行時刻以前です"
      refuseIf (peer.inviteDeviceId.any (fun id => !validId id))
        s!"peer[{i}] の invite_device_id が不正です"
      refuseIf (peer.inviteDeviceId.isSome ≠ peer.inviteAcceptedAt.isSome)
        s!"peer[{i}] の参加端末メタデータが不完全です"
      refuseIf (peer.inviteApprovedAt.isSome ∧ peer.inviteRequiresApproval = false)
        s!"peer[{i}] は承認不要ですが承認時刻があります"
      refuseIf (peer.inviteApprovedAt.isSome ∧ peer.inviteAcceptedAt.isNone)
        s!"peer[{i}] は参加前に承認されています"

def checkPeer (i : Nat) (peer : PeerConfig) : Except String Unit := do
  refuseIf (peer.allowedIps = []) s!"peer[{i}] の allowed_ips が空です"
  if peer.inviteId.isSome || peer.inviteIssuedAt.isSome then
    checkInvite i peer
  else
    refuseIf (peer.inviteExpiresAt.isSome ∨ peer.inviteAcceptedAt.isSome ∨
        peer.inviteDeviceId.isSome ∨ peer.inviteRequiresApproval ∨ peer.inviteApprovedAt.isSome)
      s!"peer[{i}] の招待メタデータが不完全です"

/-- Advertised subnets with the position of their peer, in the order of the loops. -/
def Config.subnetEntries (config : Config) : List (Nat × Ipv4Net) :=
  config.peers.zipIdx.flatMap (fun entry => entry.1.subnets.map (fun subnet => (entry.2, subnet)))

/-- Advertised subnets must be exact, not too wide, and disjoint from the virtual subnet and
from each other. -/
def checkSubnets (virtualSubnet : Ipv4Net) :
    List (Nat × Ipv4Net) → List (Nat × Ipv4Net) → Except String Unit
  | _, [] => .ok ()
  | seen, (i, subnet) :: rest => do
      refuseIf (subnet.prefixLen < 8)
        s!"peer[{i}] の subnet {subnet.display} が広すぎます(/8 以上にしてください)"
      refuseIf (subnet ≠ subnet.trunc)
        s!"peer[{i}] の subnet {subnet.display} はネットワークアドレスで指定してください({subnet.trunc.display})"
      refuseIf (virtualSubnet.containsNet subnet ∨ subnet.containsNet virtualSubnet)
        s!"peer[{i}] の subnet {subnet.display} が仮想サブネット {virtualSubnet.display} と重なっています"
      match seen.find? (fun other => other.2.containsNet subnet || subnet.containsNet other.2) with
      | some (j, other) =>
          throw s!"peer[{i}] の subnet {subnet.display} が peer[{j}] の {other.display} と重なっています"
      | none => checkSubnets virtualSubnet (seen ++ [(i, subnet)]) rest

/-- Public keys of the peers, ordered by their bytes. -/
def Config.keyValues (config : Config) : List Nat :=
  config.peers.map (fun peer => peer.publicKey.bytes.toNat)

def checkKeys (config : Config) : Except String Unit :=
  refuseIf ((sortDedup (· ≤ ·) config.keyValues).length ≠ config.peers.length)
    "同じ public_key のピアが重複しています"

def checkNetworkNames (interface : InterfaceConfig) : Except String Unit := do
  match interface.networkName with
  | none => pure ()
  | some name =>
      refuseIf (Names.isDnsLabel name = false)
        s!"network_name \"{name}\" が不正です(小文字英数とハイフンのみ、63 文字以内)"
  match interface.networkDisplayName with
  | none => pure ()
  | some name =>
      refuseIf (Text.trim name = "" ∨ name.toList.length > 64)
        "interface.network_display_name は 1〜64 文字にしてください"
      refuseIf (name.toList.any Text.isControl)
        "interface.network_display_name に制御文字は使えません"

/-! ### Denied pairs and DNS records -/

def checkDenyAddress (interface : InterfaceConfig) (ip : Ipv4Addr) : Except String Unit := do
  refuseIf (ip = interface.address.addr)
    s!"acl.deny に自分(ホスト)の IP {ip.display} は指定できません(ホストとの通信は遮断できません)"
  refuseIf (interface.address.trunc.contains ip = false)
    s!"acl.deny の IP {ip.display} が仮想サブネット {interface.address.trunc.display} の外です"

def checkDenyPair (interface : InterfaceConfig) (pair : Ipv4Addr × Ipv4Addr) :
    Except String Unit := do
  refuseIf (pair.1 = pair.2)
    s!"acl.deny の組 [{pair.1.display}, {pair.2.display}] が同じ IP です"
  checkDenyAddress interface pair.1
  checkDenyAddress interface pair.2

/-- The host always exists; a key exists when a peer carries it. -/
def Config.memberExists (config : Config) : MemberRef → Bool
  | .host => true
  | .key key => config.peers.any (fun peer => peer.publicKey = key)

/-- Subnets a record under this member may point into. -/
def Config.advertisedSubnets (config : Config) : MemberRef → List Ipv4Net
  | .host => []
  | .key key =>
      match config.peers.find? (fun peer => peer.publicKey = key) with
      | some peer => peer.subnets
      | none => []

/-- Number of the targets a record names. -/
def DnsRecordConfig.targets (record : DnsRecordConfig) : Nat :=
  ([record.ip.isSome, record.member.isSome, record.cname.isSome].filter (fun set => set)).length

/-- Checks that do not look at the members: targets, CNAME. -/
def checkRecordTarget (record : DnsRecordConfig) : Except String Unit := do
  refuseIf (record.targets = 0)
    s!"dns_record \"{record.name}\" に ip / member / cname のいずれかを指定してください"
  refuseIf (record.targets > 1)
    s!"dns_record \"{record.name}\" は ip / member / cname のどれか 1 つだけ指定できます"
  match record.cname with
  | none => pure ()
  | some cname =>
      refuseIf (Names.normalizeCnameTarget cname ≠ some cname)
        s!"dns_record \"{record.name}\" の cname \"{cname}\" が不正です(ドメイン名を指定してください)"

/-- Checks against the peers: referenced members, and addresses of devices behind a member. -/
def checkRecordMembers (config : Config) (record : DnsRecordConfig) : Except String Unit := do
  refuseIf (record.member.any (fun reference => !config.memberExists reference))
    s!"dns_record \"{record.name}\" の参照先メンバーが登録されていません"
  refuseIf (record.under.any (fun reference => !config.memberExists reference))
    s!"dns_record \"{record.name}\" の参照先メンバーが登録されていません"
  match record.ip, record.under with
  | some ip, some under =>
      refuseIf ((config.advertisedSubnets under).any (·.contains ip) = false)
        s!"dns_record \"{record.name}\" の IP {ip.display} が親メンバーの広告サブネットの範囲外です(LAN 機器は広告サブネット内の IP のみ登録できます)"
  | _, _ => pure ()

/-- Whether the service of a record is probed. -/
def DnsRecordConfig.healthEnabled (record : DnsRecordConfig) : Bool :=
  record.healthCheck.getD (record.cname.isNone && record.scheme.isSome && record.port.isSome)

/-- Service information and health checks of a record. -/
def checkRecordService (record : DnsRecordConfig) : Except String Unit := do
  match record.scheme with
  | none => pure ()
  | some scheme =>
      refuseIf (isServiceScheme scheme = false)
        s!"dns_record \"{record.name}\" の scheme \"{scheme}\" が不正です(先頭は小文字英字、以降は小文字英数字と + . -、31 文字以内)"
  refuseIf (record.port = some 0)
    s!"dns_record \"{record.name}\" の port は 1〜65535 で指定してください"
  refuseIf (record.healthEnabled ∧ (record.scheme.isNone ∨ record.port.isNone))
    s!"dns_record \"{record.name}\" のヘルスチェックには scheme と port の両方が必要です"
  refuseIf (record.healthExternal ∧ record.cname.isNone)
    s!"dns_record \"{record.name}\" の health_external は CNAME にだけ指定できます"
  if record.healthKind = some .httpHead then
    refuseIf (record.scheme ≠ some "http")
      s!"dns_record \"{record.name}\" の HTTP HEAD チェックは scheme = \"http\" の場合だけ使用できます"
    let path := record.healthPath.getD "/"
    refuseIf (Text.startsWith path "/" = false ∨ Text.len path > 256 ∨
        path.toList.any Text.isControl)
      s!"dns_record \"{record.name}\" の health_path は / で始まる 256 文字以内のパスにしてください"
  refuseIf (record.healthExpectStatus.any (fun status => status < 100 || status > 599))
    s!"dns_record \"{record.name}\" の health_expect_status は 100〜599 で指定してください"

/-- The loop over the records with the names and ids seen so far. -/
def checkRecords (config : Config) :
    List (String × Option MemberRef) → List String → List DnsRecordConfig → Except String Unit
  | _, _, [] => .ok ()
  | seenRecords, seenRecordIds, record :: rest => do
      refuseIf (Names.isCustomDnsName record.name = false)
        s!"dns_record \"{record.name}\" が不正です(小文字英数とハイフン。ドットで区切り、先頭ラベルのみ * が使えます)"
      refuseIf ((record.name, record.under) ∈ seenRecords)
        s!"dns_record \"{record.name}\" が重複しています"
      match record.id with
      | none => pure ()
      | some id =>
          refuseIf (Names.isDnsLabel id = false ∨ id ∈ seenRecordIds)
            s!"dns_record id \"{id}\" が不正または重複しています"
      checkRecordTarget record
      checkRecordMembers config record
      checkRecordService record
      checkRecords config ((record.name, record.under) :: seenRecords)
        (record.id.toList ++ seenRecordIds) rest

/-! ### Access control -/

/-- Ids of groups and of rules: labels, none twice.  `kind` is the table they stand in. -/
def checkIds (kind : String) : List String → List String → Except String Unit
  | _, [] => .ok ()
  | seen, id :: rest => do
      refuseIf (Names.isDnsLabel id = false ∨ id ∈ seen)
        s!"{kind} id \"{id}\" が不正または重複しています"
      checkIds kind (id :: seen) rest

def checkPolicy (config : Config) : Except String Unit :=
  match AclPolicy.compile config with
  | .ok _ => .ok ()
  | .error error => .error error

/-- `Config::validate`. -/
def Config.validate (config : Config) : Except String Unit := do
  checkInterface config.interface
  config.peers.zipIdx.forM (fun entry => checkPeer entry.2 entry.1)
  checkSubnets config.interface.address.trunc [] config.subnetEntries
  checkKeys config
  checkNetworkNames config.interface
  config.acl.deny.forM (checkDenyPair config.interface)
  checkRecords config [] [] config.dnsRecords
  checkIds "acl.group" [] (config.acl.groups.map AclGroup.id)
  checkIds "acl.rule" [] (config.acl.rules.map AclRule.id)
  checkPolicy config

/-! ### What a valid configuration satisfies -/

/-- Validation is the conjunction of its checks. -/
theorem Config.validate_ok {config : Config} :
    config.validate = .ok () ↔
      checkInterface config.interface = .ok () ∧
      config.peers.zipIdx.forM (fun entry => checkPeer entry.2 entry.1) = .ok () ∧
      checkSubnets config.interface.address.trunc [] config.subnetEntries = .ok () ∧
      checkKeys config = .ok () ∧
      checkNetworkNames config.interface = .ok () ∧
      config.acl.deny.forM (checkDenyPair config.interface) = .ok () ∧
      checkRecords config [] [] config.dnsRecords = .ok () ∧
      checkIds "acl.group" [] (config.acl.groups.map AclGroup.id) = .ok () ∧
      checkIds "acl.rule" [] (config.acl.rules.map AclRule.id) = .ok () ∧
      checkPolicy config = .ok () := by
  simp [Config.validate]

/-- Every peer of a valid configuration has passed its check. -/
theorem Config.checkPeer_of_valid {config : Config} (valid : config.validate = .ok ())
    {peer : PeerConfig} (member : peer ∈ config.peers) : ∃ i, checkPeer i peer = .ok () := by
  have each := forM_ok.mp (Config.validate_ok.mp valid).2.1
  obtain ⟨place, bound, rfl⟩ := List.getElem_of_mem member
  exact ⟨place, each (config.peers[place], place) (by simp [List.mem_zipIdx_iff_getElem?])⟩

/-- The key check refuses exactly repeated keys. -/
theorem checkKeys_ok {config : Config} :
    checkKeys config = .ok () ↔ (config.peers.map PeerConfig.publicKey).Nodup := by
  have values : config.keyValues =
      (config.peers.map PeerConfig.publicKey).map (fun key => key.bytes.toNat) := by
    simp [Config.keyValues]
  have injective : Function.Injective (fun key : PublicKey => key.bytes.toNat) := by
    rintro ⟨one⟩ ⟨two⟩ same
    exact congrArg PublicKey.mk (BitVec.eq_of_toNat_eq same)
  have length : config.peers.length = config.keyValues.length := by simp [Config.keyValues]
  rw [checkKeys, refuseIf_ok, not_not, length, SortDedup.length_sortDedup_eq_iff, values,
    List.nodup_map_iff injective]

theorem checkPolicy_ok {config : Config} :
    checkPolicy config = .ok () ↔ ∃ policy, AclPolicy.compile config = .ok policy := by
  unfold checkPolicy
  cases AclPolicy.compile config with
  | error message => simp
  | ok policy => simp

/-- Ids are accepted when they are labels, new, and pairwise different. -/
theorem checkIds_ok {kind : String} {seen ids : List String} :
    checkIds kind seen ids = .ok () ↔
      ids.Nodup ∧ ∀ id ∈ ids, Names.isDnsLabel id = true ∧ id ∉ seen := by
  induction ids generalizing seen with
  | nil => simp [checkIds]
  | cons id rest ih =>
      rw [checkIds, bind_ok]
      simp only [refuseIf_ok, exists_const, not_or, Bool.not_eq_false, ih, List.nodup_cons,
        List.forall_mem_cons]
      constructor
      · rintro ⟨⟨label, fresh⟩, nodup, apart⟩
        refine ⟨⟨fun again => (apart id again).2 List.mem_cons_self, nodup⟩,
          ⟨label, fresh⟩, ?_⟩
        intro other member
        exact ⟨(apart other member).1,
          fun old => (apart other member).2 (List.mem_cons_of_mem _ old)⟩
      · rintro ⟨⟨once, nodup⟩, ⟨label, fresh⟩, apart⟩
        refine ⟨⟨label, fresh⟩, nodup, ?_⟩
        intro other member
        refine ⟨(apart other member).1, fun old => ?_⟩
        rcases List.mem_cons.mp old with rfl | old
        · exact once member
        · exact (apart other member).2 old

/-- Accepted ids are new and pairwise different. -/
theorem checkIds_nodup {kind : String} {seen ids : List String}
    (accepted : checkIds kind seen ids = .ok ()) :
    ids.Nodup ∧ ∀ id ∈ ids, id ∉ seen := by
  obtain ⟨nodup, each⟩ := checkIds_ok.mp accepted
  exact ⟨nodup, fun id member => (each id member).2⟩

/-- Members a record refers to exist, and devices behind a member are in its subnets. -/
theorem checkRecordMembers_ok {config : Config} {record : DnsRecordConfig} :
    checkRecordMembers config record = .ok () ↔
      (∀ reference ∈ record.member, config.memberExists reference = true) ∧
      (∀ reference ∈ record.under, config.memberExists reference = true) ∧
      ∀ ip under, record.ip = some ip → record.under = some under →
        (config.advertisedSubnets under).any (·.contains ip) = true := by
  unfold checkRecordMembers
  cases record.member <;> cases record.ip <;> cases record.under <;> simp

/-- The record at the head of the list, then the others. -/
theorem checkRecords_cons {config : Config} {seen : List (String × Option MemberRef)}
    {ids : List String} {record : DnsRecordConfig} {rest : List DnsRecordConfig} :
    checkRecords config seen ids (record :: rest) = .ok () ↔
      Names.isCustomDnsName record.name = true ∧
      (record.name, record.under) ∉ seen ∧
      (∀ id ∈ record.id, Names.isDnsLabel id = true ∧ id ∉ ids) ∧
      checkRecordTarget record = .ok () ∧
      checkRecordMembers config record = .ok () ∧
      checkRecordService record = .ok () ∧
      checkRecords config ((record.name, record.under) :: seen) (record.id.toList ++ ids) rest =
        .ok () := by
  rw [checkRecords]
  cases record.id with
  | none => simp
  | some id => simp

/-- Of the configuration the record checks read the peers only. -/
theorem checkRecordMembers_congr {one two : Config} (peers : one.peers = two.peers)
    (record : DnsRecordConfig) : checkRecordMembers one record = checkRecordMembers two record := by
  have exist : one.memberExists = two.memberExists := by
    funext reference
    cases reference with
    | host => rfl
    | key key => rw [Config.memberExists, Config.memberExists, peers]
  have subnets : one.advertisedSubnets = two.advertisedSubnets := by
    funext reference
    cases reference with
    | host => rfl
    | key key => simp only [Config.advertisedSubnets, peers]
  unfold checkRecordMembers
  rw [exist, subnets]

theorem checkRecords_congr {one two : Config} (peers : one.peers = two.peers)
    (seen : List (String × Option MemberRef)) (ids : List String)
    (records : List DnsRecordConfig) :
    checkRecords one seen ids records = checkRecords two seen ids records := by
  induction records generalizing seen ids with
  | nil => rfl
  | cons record rest ih =>
      rw [checkRecords, checkRecords]
      simp only [checkRecordMembers_congr peers, ih]

theorem checkRecords_interface (config : Config) (interface : InterfaceConfig)
    (records : List DnsRecordConfig) :
    checkRecords { config with interface := interface } [] [] records =
      checkRecords config [] [] records := by
  have peers : ({ config with interface := interface } : Config).peers = config.peers := rfl
  exact checkRecords_congr peers [] [] records

/-- Exchanging the section `[acl]` of a valid configuration only puts that section in question. -/
theorem Config.validate_acl {config : Config} (valid : config.validate = .ok ())
    (acl : AclConfig) :
    ({ config with acl := acl } : Config).validate = .ok () ↔
      acl.deny.forM (checkDenyPair config.interface) = .ok () ∧
      checkIds "acl.group" [] (acl.groups.map AclGroup.id) = .ok () ∧
      checkIds "acl.rule" [] (acl.rules.map AclRule.id) = .ok () ∧
      ∃ policy, AclPolicy.compile { config with acl := acl } = .ok policy := by
  obtain ⟨interface, peers, subnets, keys, names, _, records, _⟩ := Config.validate_ok.mp valid
  have peersKept : ({ config with acl := acl } : Config).peers = config.peers := rfl
  have recordsKept := (checkRecords_congr peersKept [] [] config.dnsRecords).trans records
  rw [Config.validate_ok, ← checkPolicy_ok]
  constructor
  · rintro ⟨_, _, _, _, _, deny, _, groups, rules, policy⟩
    exact ⟨deny, groups, rules, policy⟩
  · rintro ⟨deny, groups, rules, policy⟩
    exact ⟨interface, peers, subnets, keys, names, deny, recordsKept, groups, rules, policy⟩

theorem checkNetworkNames_ok {interface : InterfaceConfig} :
    checkNetworkNames interface = .ok () ↔
      (∀ name ∈ interface.networkName, Names.isDnsLabel name = true) ∧
        ∀ name ∈ interface.networkDisplayName,
          ¬ (Text.trim name = "" ∨ name.toList.length > 64) ∧
            ¬ name.toList.any Text.isControl = true := by
  unfold checkNetworkNames
  cases interface.networkName <;> cases interface.networkDisplayName <;>
    simp only [bind_ok, refuseIf_ok, Option.mem_def, Option.some.injEq, forall_eq', reduceCtorEq,
      false_implies, forall_const, true_and, and_true, exists_const, Bool.not_eq_false, pure_ok]

/-- A valid configuration stays valid under the label of another network. -/
theorem Config.validate_networkName {config : Config} (valid : config.validate = .ok ())
    {slug : String} (label : Names.isDnsLabel slug = true) :
    ({ config with interface := { config.interface with networkName := some slug } } :
      Config).validate = .ok () := by
  obtain ⟨interface, peers, subnets, keys, names, deny, records, groups, rules, policy⟩ :=
    Config.validate_ok.mp valid
  have named : checkNetworkNames { config.interface with networkName := some slug } = .ok () := by
    refine checkNetworkNames_ok.mpr ⟨fun name same => ?_, (checkNetworkNames_ok.mp names).2⟩
    rw [← Option.some.inj same]
    exact label
  exact Config.validate_ok.mpr ⟨interface, peers, subnets, keys, named, deny,
    (checkRecords_interface config _ _).trans records, groups, rules, policy⟩

/-- A configuration that passed validation. -/
structure ValidConfig where
  config : Config
  valid : config.validate = .ok ()

namespace ValidConfig

variable (checked : ValidConfig)

theorem keys_nodup : (checked.config.peers.map PeerConfig.publicKey).Nodup :=
  checkKeys_ok.mp (Config.validate_ok.mp checked.valid).2.2.2.1

theorem groupIds_nodup : (checked.config.acl.groups.map AclGroup.id).Nodup :=
  (checkIds_nodup (Config.validate_ok.mp checked.valid).2.2.2.2.2.2.2.1).1

theorem policy_exists : ∃ policy, AclPolicy.compile checked.config = .ok policy :=
  checkPolicy_ok.mp (Config.validate_ok.mp checked.valid).2.2.2.2.2.2.2.2.2

/-- The policy of a valid configuration. -/
def policy : AclPolicy :=
  match AclPolicy.compile checked.config with
  | .ok policy => policy
  | .error _ => { default := .deny, rules := [] }

end ValidConfig

end PeerCove
