/-
Module: PeerCove.Host.Admin
Layer: Host
Purpose: The requests of members whom the host has made administrators, and the host that carries
  them out one at a time while its owner grants and revokes.
Trusted boundary: `ipnet` reads networks; the health checks keep no configuration
Main exports: AdminRequest, AdminDnsRequest, delegated, AdminSystem, AdminEvent, adminStep
-/
import PeerCove.Ops.DnsRecords
import PeerCove.Ops.HostPrograms

namespace PeerCove

open Fallible FilePrograms

/-! ### Messages -/

inductive AdminRequest where
  | removeMember (ip : Ipv4Addr)
  | renameMember (ip : Ipv4Addr) (name : String)
  | approveMember (ip : Ipv4Addr)
  | setCanInvite (ip : Ipv4Addr) (allowed : Bool)
  | setMemberDnsName (ip : Ipv4Addr) (dnsName : String)
  | readNetworkSettings
  | setRequireApproval (enabled : Bool)
  | setMemberInvites (enabled : Bool)
  | setNetworkDisplayName (name : Option String)
  | aclRead
  /-- `AclPolicyWire` has the fields of `PolicySettings`. -/
  | aclWrite (policy : PolicySettings)
  | setSubnets (ip : Ipv4Addr) (subnets : List String)
  | dnsCheckNow
  | dnsListFull
  | permGroupCreate (name : String) (members : List Ipv4Addr)
  | permGroupRename (id name : String)
  | permGroupSetMembers (id : String) (members : List Ipv4Addr)
  | permGroupDelete (id : String)
deriving DecidableEq

inductive AdminDnsRequest where
  | add (name : String) (ip : Option Ipv4Addr) (member : Option MemberRef) (cname : Option String)
      (under : Option MemberRef) (scheme : Option String) (port : Option UInt16)
  | remove (id : String)
  | setHealth (id : String) (settings : HealthSettings)
deriving DecidableEq

/-- What arrives on a connection: `AdminDnsOp` or `AdminOp`. -/
inductive DelegatedRequest where
  | dns (op : AdminDnsRequest)
  | op (op : AdminRequest)
deriving DecidableEq

structure AdminDnsRecord where
  id : Option String
  name : String
  ip : Option Ipv4Addr
  member : Option MemberRef
  cname : Option String
  under : Option MemberRef
  relative : String
  fqdn : String
  resolvedIp : Option Ipv4Addr
  scheme : Option String
  port : Option UInt16
  url : Option String
  health : HealthSettings
deriving DecidableEq

inductive AdminOpData where
  | networkSettings (requireInviteApproval memberInvites : Bool)
      (networkDisplayName : Option String)
  | aclPolicy (policy : PolicySettings)
  | dnsRecords (records : List AdminDnsRecord)
deriving DecidableEq

/-- What the host knows besides the file. -/
structure HostRequests where
  hostPublicKey : PublicKey
  /-- How `ipnet` reads a network. -/
  parseNet : String → Option Ipv4Net

/-- What a request finds when it is carried out: the time, the id of the last resort, and whether
the network runs. -/
structure Moment where
  approvedAt : Nat := 0
  stamp : Nat := 0
  random : String := ""
  running : Bool := true
deriving DecidableEq

/-! ### Requests -/

def NOT_DELEGATED : String := "管理が委任されていません"

/-- `guard_target`: neither the sender nor the host. -/
def guardTarget (config : Config) (memberIp ip : Ipv4Addr) : Except String Unit := do
  refuseIf (ip = memberIp) "自分自身は対象にできません"
  refuseIf (ip = config.interface.address.addr) "ホストは対象にできません"

def resolveMemberPubkey (config : Config) (hostPublicKey : PublicKey) (ip : Ipv4Addr) :
    Except String PublicKey :=
  if ip = config.interface.address.addr then
    .ok hostPublicKey
  else
    match config.peers.find? (fun peer => peer.allowedIps.any (fun net => net.addr = ip)) with
    | some peer => .ok peer.publicKey
    | none => .error s!"{ip.display} はこのネットワークのメンバーにいません"

def resolveMembers (config : Config) (host : HostRequests) (members : List Ipv4Addr) :
    Except String (List PublicKey) :=
  members.mapM (resolveMemberPubkey config host.hostPublicKey)

/-- The current values, so that one of them can be changed and the others be written back. -/
def Settings.asUpdate (current : Settings) : Update where
  displayName := current.displayName
  dnsName := current.dnsName
  networkDisplayName := current.networkDisplayName
  listenPort := current.listenPort
  mtu := current.mtu
  hostEndpoint := current.hostEndpoint
  direct := current.direct
  maxRecvFileMb := current.maxRecvFileMb
  requireInviteApproval := current.requireInviteApproval
  memberInvites := current.memberInvites
  autoConnect := current.autoConnect

def networkSettingsUpdate : HostProgram Update := do
  let current ← Settings.read
  return current.asUpdate

/-- Change one of the settings. -/
def changeSettings (change : Update → Update) : HostProgram Unit := do
  let update ← networkSettingsUpdate
  (change update).apply

def parseSubnets (host : HostRequests) (subnets : List String) : Except String (List Ipv4Net) :=
  subnets.mapM (fun text =>
    match host.parseNet (Text.trim text) with
    | some net => .ok net
    | none => .error s!"\"{text}\" は CIDR(例 192.168.10.0/24)として解釈できません")

def RecordDetail.toAdmin (record : RecordDetail) : AdminDnsRecord :=
  let (ip, member, cname) :=
    match record.target with
    | .ip ip => (some ip, none, none)
    | .member member => (none, some member, none)
    | .cname domain => (none, none, some domain)
  { id := record.id
    name := record.name
    ip := ip
    member := member
    cname := cname
    under := record.under
    relative := record.relative
    fqdn := record.fqdn
    resolvedIp := record.resolvedIp
    scheme := record.scheme
    port := record.port
    url := record.url
    health := record.health }

/-- The one target a new record names. -/
def requestedTarget (ip : Option Ipv4Addr) (member : Option MemberRef) (cname : Option String) :
    Except String RecordTarget :=
  match ip, member, entered cname with
  | some ip, none, none => .ok (.ip ip)
  | none, some member, none => .ok (.member member)
  | none, none, some cname => .ok (.cname cname)
  | _, _, _ =>
      .error "転送先には IP / メンバー / ドメイン(CNAME)のいずれか 1 つを指定してください"

/-- `apply_admin_dns`, once the sender is known to be an administrator. -/
def adminDns (moment : Moment) : AdminDnsRequest → HostProgram String
  | .add name ip member cname under scheme port => do
      let target ← requestedTarget ip member cname
      let relative ← addRecord
        { name := Text.trim name
          target := target
          under := under
          scheme := entered scheme
          port := port } moment.stamp
      return s!"レコード \"{relative}\" を追加しました"
  | .remove id => do
      removeRecordById id
      return "レコードを削除しました"
  | .setHealth id settings => do
      setHealthById id settings
      return "ヘルスチェック設定を更新しました"

/-- `apply_admin_op`, once the sender is known to be an administrator.  `config` is the
configuration in which it was found. -/
def adminOp (host : HostRequests) (moment : Moment) (config : Config) (memberIp : Ipv4Addr) :
    AdminRequest → HostProgram (String × Option AdminOpData)
  | .removeMember ip => do
      guardTarget config memberIp ip
      let removed ← HostProgram.removePeer (.ip ip)
      return (s!"{removed.display} を削除しました(数秒〜数十秒でトンネルから除外されます)", none)
  | .renameMember ip name => do
      guardTarget config memberIp ip
      HostProgram.renamePeer (.ip ip) (Text.trim name)
      return ("表示名を変更しました(数秒で反映されます)", none)
  | .approveMember ip => do
      guardTarget config memberIp ip
      HostProgram.approveInvite (.ip ip) moment.approvedAt
      return ("承認しました", none)
  | .setCanInvite ip allowed => do
      guardTarget config memberIp ip
      let _ ← HostProgram.setPeerCanInvite (.ip ip) allowed
      return ("招待発行の許可を変更しました(数秒で反映されます)", none)
  | .setMemberDnsName ip dnsName => do
      guardTarget config memberIp ip
      let _ ← HostProgram.setPeerDnsName (.ip ip) (Text.trim dnsName)
      return ("DNS 名を変更しました(数秒で反映されます)", none)
  | .readNetworkSettings => do
      let settings ← Settings.read
      return ("現在の設定を取得しました", some (.networkSettings settings.requireInviteApproval
        settings.memberInvites settings.networkDisplayName))
  | .setRequireApproval enabled => do
      changeSettings (fun update => { update with requireInviteApproval := enabled })
      return ("承認制の設定を変更しました", none)
  | .setMemberInvites enabled => do
      changeSettings (fun update => { update with memberInvites := enabled })
      return ("メンバー招待の許可を変更しました", none)
  | .setNetworkDisplayName name => do
      changeSettings (fun update => { update with networkDisplayName := name })
      return ("ネットワーク表示名を変更しました(数秒で反映されます)", none)
  | .aclRead => do
      let policy ← HostProgram.readPolicy
      return ("現在の ACL ポリシーを取得しました", some (.aclPolicy policy))
  | .aclWrite policy => do
      HostProgram.writePolicy policy
      return ("ACL ポリシーを変更しました(数秒で反映されます)", none)
  | .setSubnets ip subnets => do
      guardTarget config memberIp ip
      let parsed ← parseSubnets host subnets
      let _ ← HostProgram.setSubnets (.ip ip) parsed
      return ("広告サブネットを変更しました(数秒で反映されます)", none)
  | .dnsCheckNow => do
      refuseIf (moment.running = false) "このネットワークは稼働していません"
      return ("DNS の確認をリクエストしました", none)
  | .dnsListFull => do
      let records ← listRecords
      return ("DNS レコード一覧を取得しました", some (.dnsRecords (records.map RecordDetail.toAdmin)))
  | .permGroupCreate name members => do
      let keys ← resolveMembers config host members
      let id ← HostProgram.permGroupCreate name keys moment.random
      return (s!"権限グループ \"{name}\" を作成しました(id={id})", none)
  | .permGroupRename id name => do
      HostProgram.permGroupRename id name
      return ("権限グループの名前を変更しました", none)
  | .permGroupSetMembers id members => do
      let keys ← resolveMembers config host members
      HostProgram.permGroupSetMembers id keys
      return ("権限グループのメンバーを変更しました", none)
  | .permGroupDelete id => do
      HostProgram.permGroupDelete id
      return ("権限グループを削除しました", none)

/-- `apply_admin_dns` and `apply_admin_op` on the configuration they load first. -/
def delegated (host : HostRequests) (moment : Moment) (memberIp : Ipv4Addr)
    (request : DelegatedRequest) (config : Config) : HostProgram (String × Option AdminOpData) := do
  config.validate
  let actor ← findPeer config (.ip memberIp)
  refuseIf (actor.admin = false) NOT_DELEGATED
  match request with
  | .dns op => do
      let message ← adminDns moment op
      return (message, none)
  | .op op => adminOp host moment config memberIp op

/-! ### The host at work -/

structure MemberConnection where
  ip : Ipv4Addr
  isolated : Bool
deriving DecidableEq

structure AdminMessage where
  ip : Ipv4Addr
  seq : Nat
  request : DelegatedRequest
  /-- The flag of the connection when the message was read. -/
  isolated : Bool
deriving DecidableEq

/-- `AdminDnsResult` and `AdminOpResult`. -/
structure AdminResult where
  seq : Nat
  accepted : Bool
  message : String
  data : Option AdminOpData
deriving DecidableEq

/-- What became of a message: the configuration read under the request lock, the file before and
after the write, and the answer. -/
structure RequestRecord where
  message : AdminMessage
  loaded : Config
  write : Option (Config × Config) := none
  result : Option AdminResult := none
deriving DecidableEq

/-- The request that holds the request lock. -/
structure RunningRequest where
  record : RequestRecord
  program : HostProgram (String × Option AdminOpData)

structure AdminSystem (κ : Type) where
  file : Config
  connections : κ → Option MemberConnection := fun _ => none
  /-- Messages that wait for the request lock. -/
  waiting : List AdminMessage := []
  running : Option RunningRequest := none
  /-- Calls of `set_peer_admin` under way; they do not take the request lock. -/
  grants : List (HostProgram String) := []
  answered : List RequestRecord := []

inductive AdminEvent (κ : Type) where
  | connect (connection : κ) (member : MemberConnection)
  | disconnect (connection : κ)
  /-- The writer of the connection stores the flag of a distribution. -/
  | isolate (connection : κ) (isolated : Bool)
  | receive (connection : κ) (seq : Nat) (request : DelegatedRequest)
  /-- A waiting message gets the request lock, and the configuration is read. -/
  | begin (index : Nat) (moment : Moment)
  | proceed
  | grant (selector : Selector) (allowed : Bool)
  | proceedGrant (index : Nat)
deriving DecidableEq

/-- The answer to a message. -/
def AdminMessage.answer (message : AdminMessage)
    (result : Except String (String × Option AdminOpData)) : AdminResult :=
  match result with
  | .ok (text, data) => { seq := message.seq, accepted := true, message := text, data := data }
  | .error text => { seq := message.seq, accepted := false, message := text, data := none }

/-- The next step of the request under way, or its answer. -/
def RunningRequest.proceed (running : RunningRequest) (file : Config) :
    RequestRecord ⊕ RunningRequest × Config :=
  match running.program with
  | .finish result => .inl { running.record with result := some (running.record.message.answer result) }
  | .look next => .inr ({ running with program := next file }, file)
  | .edit change next => match change file with
    | .error message => .inr ({ running with program := .finish (.error message) }, file)
    | .ok written => .inr ({
        record := { running.record with write := some (file, written) }
        program := next }, written)

def adminStep {κ : Type} [DecidableEq κ] (host : HostRequests) (event : AdminEvent κ)
    (state : AdminSystem κ) : Option (AdminSystem κ) :=
  match event with
  | .connect connection member =>
      some { state with connections := Function.update state.connections connection (some member) }
  | .disconnect connection =>
      some { state with connections := Function.update state.connections connection none }
  | .isolate connection isolated =>
      match state.connections connection with
      | none => none
      | some member =>
          let member := { member with isolated := isolated }
          some { state with
            connections := Function.update state.connections connection (some member) }
  | .receive connection seq request =>
      match state.connections connection with
      | none => none
      | some member =>
          -- the reader drops what an isolated member sends, without an answer
          if member.isolated then
            some state
          else
            let message : AdminMessage :=
              { ip := member.ip, seq := seq, request := request, isolated := member.isolated }
            some { state with waiting := state.waiting ++ [message] }
  | .begin index moment =>
      match state.running, state.waiting[index]? with
      | none, some message =>
          some { state with
            waiting := state.waiting.eraseIdx index
            running := some {
              record := { message := message, loaded := state.file }
              program := delegated host moment message.ip message.request state.file } }
      | _, _ => none
  | .proceed =>
      match state.running with
      | none => none
      | some running => match running.proceed state.file with
        | .inl record =>
            some { state with running := none, answered := record :: state.answered }
        | .inr (running, file) => some { state with running := some running, file := file }
  | .grant selector allowed =>
      some { state with grants := state.grants ++ [HostProgram.setPeerAdmin selector allowed] }
  | .proceedGrant index =>
      match state.grants[index]? with
      | none => none
      | some program => match program.step state.file with
        | none => none
        | some (next, file) =>
            some { state with grants := state.grants.set index next, file := file }

/-- What became of every message that got the request lock. -/
def AdminSystem.records {κ : Type} (state : AdminSystem κ) : List RequestRecord :=
  (state.running.map RunningRequest.record).toList ++ state.answered

end PeerCove
