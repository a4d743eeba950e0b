/-
Module: PeerCove.Core.AclPolicy
Layer: Core
Purpose: Compile the access control section of `host.toml` into lists of networks, and evaluate
  the compiled policy on a packet.
Trusted boundary: none
Main exports: AclPolicy.compile, AclPolicy.evaluate, AclPolicy.forceRelayPairs, resolveTarget
-/
import PeerCove.Core.Config
import PeerCove.Library.FirstMatch
import PeerCove.Library.Fallible

namespace PeerCove

open Fallible

/-- A rule with its ends resolved.  An empty list of networks or ports admits everything. -/
structure ResolvedRule where
  id : String
  action : AclAction
  source : List Ipv4Net
  destination : List Ipv4Net
  protocol : AclProtocol
  ports : List (UInt16 × UInt16)
deriving DecidableEq

structure AclPolicy where
  default : AclAction
  rules : List ResolvedRule
deriving DecidableEq

structure AclDecision where
  action : AclAction
  ruleId : Option String
deriving DecidableEq

/-- What `evaluate` reads of a packet. -/
structure PacketInfo where
  src : Ipv4Addr
  dst : Ipv4Addr
  protocol : UInt8
  dstPort : Option UInt16
deriving DecidableEq

/-! ### Resolution of rule ends -/

/-- The networks of a registered peer: its own and those it advertises. -/
def peerNetworks (config : Config) (key : PublicKey) : Option (List Ipv4Net) :=
  (config.peers.find? (fun peer => peer.publicKey = key)).map
    (fun peer => peer.allowedIps ++ peer.subnets)

/-- One side of a denied pair: the address and the subnets behind its peer. -/
def sideNetworks (config : Config) (ip : Ipv4Addr) : List Ipv4Net :=
  match config.peers.find? (fun peer => peer.allowedIps.any (fun net => net.contains ip)) with
  | some peer => Ipv4Net.host ip :: peer.subnets
  | none => [Ipv4Net.host ip]

/-- Networks of the group members that are registered; the others are passed over. -/
def groupNetworks (config : Config) (members : List PublicKey) : List Ipv4Net :=
  members.flatMap (fun member => (peerNetworks config member).getD [])

/-- The `service` branch of `resolve_target`. -/
def resolveService (config : Config) (service : String) : Except String (List Ipv4Net) :=
  match config.dnsRecords.find? (fun record => record.id = some service) with
  | none => .error s!"ACL service {service} がありません"
  | some record =>
      if record.cname.isSome then
        .error "外部CNAMEはACL対象にできません"
      else if record.port.isNone then
        .error s!"ACL service {service} にportがありません"
      else
        match record.ip, record.member with
        | some ip, _ => .ok [Ipv4Net.host ip]
        | none, some (.key key) =>
            match peerNetworks config key with
            | some nets => .ok (nets.take 1)
            | none => .error "ACL service のメンバーがありません"
        | none, _ => .error "ACL service の宛先を解決できません"

/-- Networks one end of a rule stands for.  Services may only be destinations. -/
def resolveTarget (config : Config) (target : AclTarget) (destination : Bool) :
    Except String (List Ipv4Net) :=
  match target with
  | .any value =>
      if value = "any" then .ok []
      else .error "ACL target の文字列は \"any\" だけ使用できます"
  | .member member =>
      match peerNetworks config member with
      | some nets => .ok nets
      | none => .error "ACLが未登録メンバーを参照しています"
  | .group group =>
      match config.acl.groups.find? (fun candidate => candidate.id = group) with
      | some found => .ok (groupNetworks config found.members)
      | none => .error s!"ACL group {group} がありません"
  | .subnet subnet => .ok [subnet]
  | .service service =>
      if destination then resolveService config service
      else .error "service は宛先だけに指定できます"

/-- One entry of `ports`: a port or a range, neither empty nor from zero. -/
def parsePort (value : String) : Except String (UInt16 × UInt16) :=
  let ends := (Text.splitOnce '-' value).getD (value, value)
  match Text.parseU16 ends.1, Text.parseU16 ends.2 with
  | some start, some stop =>
      if start = 0 ∨ start > stop then .error s!"ACL port {value} が不正です"
      else .ok (start, stop)
  | _, _ => .error s!"ACL port {value} が不正です"

def parsePorts (values : List String) : Except String (List (UInt16 × UInt16)) :=
  values.mapM parsePort

/-! ### Compilation -/

/-- The rule of one direction of a denied pair. -/
def legacyRule (config : Config) (index : Nat) (source destination : Ipv4Addr) : ResolvedRule where
  id := s!"legacy-deny-{index}"
  action := .deny
  source := sideNetworks config source
  destination := sideNetworks config destination
  protocol := .any
  ports := []

/-- Denied pairs come before all rules, in both directions. -/
def legacyRules (config : Config) : List ResolvedRule :=
  config.acl.normalizedDeny.zipIdx.flatMap (fun entry =>
    [legacyRule config entry.2 entry.1.1 entry.1.2, legacyRule config entry.2 entry.1.2 entry.1.1])

/-- The loop body of `compile` for one enabled rule. -/
def compileRule (config : Config) (rule : AclRule) : Except String ResolvedRule := do
  refuseIf (Text.trim rule.id = "" ∨ Text.len rule.id > 64) "ACL rule id は1〜64文字にしてください"
  let ports ← parsePorts rule.ports
  refuseIf (ports ≠ [] ∧ rule.protocol ≠ .tcp ∧ rule.protocol ≠ .udp)
    s!"ACL rule {rule.id}: ports は TCP/UDP だけで指定できます"
  let source ← resolveTarget config rule.source false
  let destination ← resolveTarget config rule.destination true
  return {
    id := rule.id
    action := rule.action
    source := source
    destination := destination
    protocol := rule.protocol
    ports := ports }

/-- The rules `compile` looks at. -/
def AclConfig.enabledRules (acl : AclConfig) : List AclRule :=
  acl.rules.filter (fun rule => rule.enabled)

/-- `AclPolicy::compile`. -/
def AclPolicy.compile (config : Config) : Except String AclPolicy := do
  let rules ← config.acl.enabledRules.mapM (compileRule config)
  return { default := config.acl.default, rules := legacyRules config ++ rules }

/-! ### Evaluation -/

def matchesIp (nets : List Ipv4Net) (ip : Ipv4Addr) : Bool :=
  nets.isEmpty || nets.any (fun net => net.contains ip)

def protocolMatches (expected : AclProtocol) (actual : UInt8) : Bool :=
  match expected with
  | .any => true
  | .tcp => actual = 6
  | .udp => actual = 17
  | .icmp => actual = 1

/-- The port test of `evaluate`. -/
def portMatches (ports : List (UInt16 × UInt16)) (port : Option UInt16) : Bool :=
  ports.isEmpty ||
    port.any (fun port => ports.any (fun range => range.1 ≤ port && port ≤ range.2))

/-- Whether `evaluate` stops at this rule. -/
def ResolvedRule.hits (packet : PacketInfo) (rule : ResolvedRule) : Bool :=
  matchesIp rule.source packet.src && matchesIp rule.destination packet.dst &&
    protocolMatches rule.protocol packet.protocol && portMatches rule.ports packet.dstPort

/-- `AclPolicy::evaluate`. -/
def AclPolicy.evaluate (policy : AclPolicy) (packet : PacketInfo) : AclDecision :=
  FirstMatch.pick (ResolvedRule.hits packet)
    (fun rule => { action := rule.action, ruleId := some rule.id })
    { action := policy.default, ruleId := none } policy.rules

/-- The action of the policy a configuration compiles to. -/
def Config.action (config : Config) (packet : PacketInfo) : Option AclAction :=
  match AclPolicy.compile config with
  | .ok policy => some (policy.evaluate packet).action
  | .error _ => none

/-! ### Direct communication -/

/-- The test of `force_relay_pairs`: some rule but those of the denied pairs, told by their ids,
may concern the two members. -/
def AclPolicy.relevant (policy : AclPolicy) (a b : Ipv4Addr) : Bool :=
  policy.default = .deny ||
    policy.rules.any (fun rule =>
      let directional :=
        (matchesIp rule.source a && matchesIp rule.destination b) ||
          (matchesIp rule.source b && matchesIp rule.destination a)
      directional && !Text.startsWith rule.id "legacy-deny-")

/-- `AclPolicy::force_relay_pairs`: the pairs of members that must not communicate directly. -/
def AclPolicy.forceRelayPairs (policy : AclPolicy) : List Ipv4Addr → List (Ipv4Addr × Ipv4Addr)
  | [] => []
  | a :: rest =>
      (rest.filter (policy.relevant a)).map (fun b => (a, b)) ++ policy.forceRelayPairs rest

/-! ### Inversion lemmas -/

/-- Compilation of the rules alone, without the denied pairs. -/
theorem compile_ok {config : Config} {policy : AclPolicy} :
    AclPolicy.compile config = .ok policy ↔
      ∃ rules, List.Forall₂ (fun rule resolved => compileRule config rule = .ok resolved)
          config.acl.enabledRules rules ∧
        policy = { default := config.acl.default, rules := legacyRules config ++ rules } := by
  simp only [AclPolicy.compile, bind_ok, pure_ok, mapM_ok, eq_comm (b := policy)]

/-- A policy exists when every enabled rule compiles. -/
theorem compile_exists {config : Config} :
    (∃ policy, AclPolicy.compile config = .ok policy) ↔
      ∀ rule ∈ config.acl.enabledRules, ∃ resolved, compileRule config rule = .ok resolved := by
  rw [← forall₂_exists]
  constructor
  · rintro ⟨policy, compiled⟩
    obtain ⟨rules, each, _⟩ := compile_ok.mp compiled
    exact ⟨rules, each⟩
  · rintro ⟨rules, each⟩
    exact ⟨_, compile_ok.mpr ⟨rules, each, rfl⟩⟩

/-- The rule made of resolved ends and parsed ports. -/
def AclRule.resolveWith (rule : AclRule) (source destination : List Ipv4Net)
    (ports : List (UInt16 × UInt16)) : ResolvedRule where
  id := rule.id
  action := rule.action
  source := source
  destination := destination
  protocol := rule.protocol
  ports := ports

/-- A rule compiles when its id and ports are accepted and both ends resolve. -/
theorem compileRule_ok {config : Config} {rule : AclRule} {resolved : ResolvedRule} :
    compileRule config rule = .ok resolved ↔
      ¬ (Text.trim rule.id = "" ∨ Text.len rule.id > 64) ∧
      ∃ ports, parsePorts rule.ports = .ok ports ∧
        ¬ (ports ≠ [] ∧ rule.protocol ≠ .tcp ∧ rule.protocol ≠ .udp) ∧
        ∃ source, resolveTarget config rule.source false = .ok source ∧
          ∃ destination, resolveTarget config rule.destination true = .ok destination ∧
            rule.resolveWith source destination ports = resolved := by
  simp only [compileRule, bind_ok, refuseIf_ok, pure_ok, exists_const, AclRule.resolveWith]

end PeerCove
