/-
Module: PeerCove.Host.LinuxAcl
Layer: Host
Purpose: How the Linux backend writes a policy into the chain `FORWARD`, and what the chain decides.
Trusted boundary: `iptables` reads arguments as the rules they spell, inserts at the top, and deletes
  the first rule that is equal; connection tracking knows which packets are replies
Main exports: ForwardRule, ForwardRule.hits, Forward.verdict, LinuxHost, LinuxHost.up,
  LinuxHost.syncAcl
-/
import PeerCove.Core.AclPolicy
import PeerCove.Library.Runs

namespace PeerCove

/-! ### The chain -/

inductive ForwardTarget where
  | accept
  | drop
deriving Repr, DecidableEq

/-- What follows `-j`. -/
def AclAction.target : AclAction → ForwardTarget
  | .allow => .accept
  | .deny => .drop

/-- A rule as the arguments of `iptables` spell it.  Without `-s` or `-d` there is no network;
`replyOnly` stands for `--ctstate ESTABLISHED,RELATED --ctdir REPLY`. -/
structure ForwardRule where
  inIf : String
  outIf : String
  source : Option Ipv4Net := none
  destination : Option Ipv4Net := none
  protocol : AclProtocol := .any
  dport : Option (UInt16 × UInt16) := none
  replyOnly : Bool := false
  target : ForwardTarget
  comment : String
deriving DecidableEq

/-- A packet on its way through the host. -/
structure ForwardedPacket where
  info : PacketInfo
  inIf : String
  outIf : String
  /-- It belongs to a connection that was opened from the other side. -/
  reply : Bool
deriving DecidableEq

/-- `-s` and `-d`: the address under the mask. -/
def maskMatches (ip : Ipv4Addr) (net : Ipv4Net) : Bool :=
  ip &&& net.netmask = net.addr &&& net.netmask

/-- `--dport`. -/
def dportMatches (port : Option UInt16) (range : UInt16 × UInt16) : Bool :=
  port.any (fun port => range.1 ≤ port && port ≤ range.2)

/-- Whether a rule matches a packet. -/
def ForwardRule.hits (packet : ForwardedPacket) (rule : ForwardRule) : Bool :=
  (rule.inIf = packet.inIf && rule.outIf = packet.outIf) &&
    rule.source.all (maskMatches packet.info.src) &&
    rule.destination.all (maskMatches packet.info.dst) &&
    protocolMatches rule.protocol packet.info.protocol &&
    rule.dport.all (dportMatches packet.info.dstPort) &&
    (!rule.replyOnly || packet.reply)

/-- The backend's rules, and those of others. -/
inductive ChainRule (φ : Type) where
  | own (rule : ForwardRule)
  | foreign (rule : φ)

def ChainRule.isOwn {φ : Type} (rule : ForwardRule) : ChainRule φ → Bool
  | .own other => other = rule
  | .foreign _ => false

abbrev Forward (φ : Type) := List (ChainRule φ)

namespace Forward

variable {φ : Type}

/-- `iptables -I`. -/
def insert (rule : ForwardRule) (chain : Forward φ) : Forward φ :=
  .own rule :: chain

/-- `iptables -D`: the first equal rule. -/
def delete (rule : ForwardRule) (chain : Forward φ) : Forward φ :=
  chain.eraseP (ChainRule.isOwn rule)

def deleteAll (rules : List ForwardRule) (chain : Forward φ) : Forward φ :=
  rules.foldl (fun chain rule => delete rule chain) chain

/-- What the chain decides: the first rule that matches, else the policy of the chain.  `foreign`
is what rules of others say. -/
def verdict (foreign : φ → ForwardedPacket → Option ForwardTarget) (policy : ForwardTarget)
    (chain : Forward φ) (packet : ForwardedPacket) : ForwardTarget :=
  FirstMatch.pick
    (fun
      | .own rule => rule.hits packet
      | .foreign rule => (foreign rule packet).isSome)
    (fun
      | .own rule => rule.target
      | .foreign rule => (foreign rule packet).getD policy)
    policy chain

end Forward

/-! ### The rules of a policy -/

/-- `relay_rule_args`. -/
def relayRule (ifName : String) : ForwardRule where
  inIf := ifName
  outIf := ifName
  target := .accept
  comment := "peercove-relay"

/-- `0.0.0.0/0`. -/
def EVERYWHERE : Ipv4Net where
  addr := 0
  prefixLen := 0
  prefixLen_le := Nat.zero_le 32

def aclComment (generation : Nat) (label : String) : String :=
  s!"peercove-acl-v2-{generation}-{label}"

/-- `acl_rule_args`. -/
def aclRule (ifName : String) (rule : ResolvedRule) (src dst : Ipv4Net)
    (port : Option (UInt16 × UInt16)) (comment : String) : ForwardRule where
  inIf := ifName
  outIf := ifName
  source := some src
  destination := some dst
  protocol := rule.protocol
  dport := port
  target := rule.action.target
  comment := comment

/-- `acl_reply_rule_args`. -/
def aclReplyRule (ifName comment : String) : ForwardRule where
  inIf := ifName
  outIf := ifName
  replyOnly := true
  target := .accept
  comment := comment

/-- One end of a rule in the loops of `sync_acl`. -/
def ruleNetworks (nets : List Ipv4Net) : List Ipv4Net :=
  if nets.isEmpty then [EVERYWHERE] else nets

def rulePorts (ports : List (UInt16 × UInt16)) : List (Option (UInt16 × UInt16)) :=
  if ports.isEmpty then [none] else ports.map some

/-- The loops of `sync_acl` over the sources, destinations and ports of one rule. -/
def expandRule (ifName : String) (generation : Nat) (rule : ResolvedRule) : List ForwardRule :=
  (ruleNetworks rule.source).flatMap (fun src =>
    (ruleNetworks rule.destination).flatMap (fun dst =>
      (rulePorts rule.ports).map (fun port =>
        aclRule ifName rule src dst port (aclComment generation rule.id))))

/-- Replies are let through where anything is denied. -/
def AclPolicy.denies (policy : AclPolicy) : Bool :=
  policy.default = .deny || policy.rules.any (fun rule => rule.action = .deny)

def defaultRule : ResolvedRule where
  id := "default"
  action := .deny
  source := []
  destination := []
  protocol := .any
  ports := []

/-- `desired` of `sync_acl`, in the order of the chain. -/
def desiredRules (ifName : String) (generation : Nat) (policy : AclPolicy) : List ForwardRule :=
  (if policy.denies then
      [aclReplyRule ifName (aclComment generation "established-reply")]
    else []) ++
  policy.rules.flatMap (expandRule ifName generation) ++
  (if policy.default = .deny then
      [aclRule ifName defaultRule EVERYWHERE EVERYWHERE none (aclComment generation "default")]
    else [])

/-! ### The backend -/

structure LinuxBackend where
  ifName : String
  aclRules : List ForwardRule := []
  aclPolicy : Option AclPolicy := none
  aclGeneration : Nat := 0
deriving DecidableEq

/-- The backend and the chain it writes to. -/
structure LinuxHost (φ : Type) where
  backend : LinuxBackend
  forward : Forward φ

namespace LinuxHost

variable {φ : Type}

/-- `apply_relay_rule` in `up`: a rule that was left behind is deleted first. -/
def up (ifName : String) (chain : Forward φ) : LinuxHost φ where
  backend := { ifName := ifName }
  forward := ((chain.delete (relayRule ifName)).insert (relayRule ifName))

/-- The insertions of `sync_acl` up to the first that fails, with what was added. -/
def insertRules (accepts : ForwardRule → Bool) (added : List ForwardRule) :
    List ForwardRule → Forward φ → Bool × List ForwardRule × Forward φ
  | [], chain => (true, added, chain)
  | rule :: rest, chain =>
      if accepts rule then insertRules accepts (added ++ [rule]) rest (chain.insert rule)
      else (false, added, chain)

/-- `sync_acl`.  `accepts` are the insertions that do not fail. -/
def syncAcl (accepts : ForwardRule → Bool) (policy : AclPolicy) (host : LinuxHost φ) :
    Except String Unit × LinuxHost φ :=
  if host.backend.aclPolicy = some policy then
    (.ok (), host)
  else
    let generation := (host.backend.aclGeneration + 1) % 2 ^ 64
    let numbered := { host.backend with aclGeneration := generation }
    let desired := desiredRules host.backend.ifName generation policy
    match insertRules accepts [] desired.reverse host.forward with
    | (false, added, chain) =>
        (.error "ACL v2 ルールを設定できません。iptables が必要です (sudo apt install iptables)",
          { backend := numbered, forward := chain.deleteAll added })
    | (true, _, chain) =>
        (.ok (),
          { backend := { numbered with aclRules := desired, aclPolicy := some policy }
            forward := chain.deleteAll host.backend.aclRules })

/-- One call of `sync_acl`. -/
structure Sync where
  policy : AclPolicy
  accepts : ForwardRule → Bool

/-- A call that succeeds. -/
def step (sync : Sync) (host : LinuxHost φ) : Option (LinuxHost φ) :=
  match host.syncAcl sync.accepts sync.policy with
  | (.ok _, next) => some next
  | (.error _, _) => none

end LinuxHost

end PeerCove
