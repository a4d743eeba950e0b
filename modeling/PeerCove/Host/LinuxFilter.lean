/-
Module: PeerCove.Host.LinuxFilter
Layer: Host
Purpose: The three calls by which the Linux backend changes the packet filter (`sync_acl`,
  `sync_isolation`, `sync_subnet_router`), as the commands they issue one after the other.
Trusted boundary: `iptables` reads arguments as the rules they spell, inserts at the top, deletes
  the first rule that is equal and carries out a command or leaves the chains alone; nobody else
  changes the chains while the backend runs; `ip route get` and the table `nat` only decide whether
  a call goes on
Main exports: FilterRule, Filters, FilterCommand, FilterBackend, FilterBackend.syncAcl,
  FilterBackend.syncIsolation, FilterBackend.syncSubnetRouter, FilterHost.perform, FilterHost.after
-/
import PeerCove.Host.LinuxAcl
import PeerCove.Library.Console
import PeerCove.Library.SortDedup

namespace PeerCove

/-! ### Rules and chains -/

inductive FilterChain where
  | forward
  | input
  | output
deriving Repr, DecidableEq

/-- A rule as the arguments of `iptables` spell it, for any of the three chains. -/
structure FilterRule where
  inIf : Option String := none
  outIf : Option String := none
  source : Option Ipv4Net := none
  destination : Option Ipv4Net := none
  protocol : AclProtocol := .any
  sport : Option (UInt16 × UInt16) := none
  dport : Option (UInt16 × UInt16) := none
  replyOnly : Bool := false
  target : ForwardTarget
  comment : String
deriving DecidableEq

/-- The rules of `sync_acl` and of the relay name both interfaces and no source port. -/
def ForwardRule.filterRule (rule : ForwardRule) : FilterRule where
  inIf := some rule.inIf
  outIf := some rule.outIf
  source := rule.source
  destination := rule.destination
  protocol := rule.protocol
  dport := rule.dport
  replyOnly := rule.replyOnly
  target := rule.target
  comment := rule.comment

/-- A packet in one of the chains.  A packet from the host itself has no interface it came in by,
one to the host none it leaves by. -/
structure FilterPacket where
  info : PacketInfo
  srcPort : Option UInt16
  inIf : Option String
  outIf : Option String
  reply : Bool
deriving DecidableEq

def FilterRule.hits (packet : FilterPacket) (rule : FilterRule) : Bool :=
  rule.inIf.all (fun name => packet.inIf = some name) &&
    rule.outIf.all (fun name => packet.outIf = some name) &&
    rule.source.all (maskMatches packet.info.src) &&
    rule.destination.all (maskMatches packet.info.dst) &&
    protocolMatches rule.protocol packet.info.protocol &&
    rule.sport.all (dportMatches packet.srcPort) &&
    rule.dport.all (dportMatches packet.info.dstPort) &&
    (!rule.replyOnly || packet.reply)

/-- The backend's rules, and those of others. -/
inductive FilterEntry (φ : Type) where
  | own (rule : FilterRule)
  | foreign (rule : φ)
deriving DecidableEq

variable {φ : Type}

def FilterEntry.isOwn (rule : FilterRule) : FilterEntry φ → Bool
  | .own other => other = rule
  | .foreign _ => false

/-- The chains of the table `filter`. -/
structure Filters (φ : Type) where
  forward : List (FilterEntry φ)
  input : List (FilterEntry φ)
  output : List (FilterEntry φ)
deriving DecidableEq

namespace Filters

def chain (filters : Filters φ) : FilterChain → List (FilterEntry φ)
  | .forward => filters.forward
  | .input => filters.input
  | .output => filters.output

def onChain (change : List (FilterEntry φ) → List (FilterEntry φ)) (filters : Filters φ) :
    FilterChain → Filters φ
  | .forward => { filters with forward := change filters.forward }
  | .input => { filters with input := change filters.input }
  | .output => { filters with output := change filters.output }

end Filters

/-- What a chain decides: the first rule that matches, else the policy of the chain.  `foreign` is
what rules of others say. -/
def chainVerdict (foreign : φ → FilterPacket → Option ForwardTarget) (policy : ForwardTarget)
    (chain : List (FilterEntry φ)) (packet : FilterPacket) : ForwardTarget :=
  FirstMatch.pick
    (fun
      | .own rule => rule.hits packet
      | .foreign rule => (foreign rule packet).isSome)
    (fun
      | .own rule => rule.target
      | .foreign rule => (foreign rule packet).getD policy)
    policy chain

/-! ### Commands -/

/-- What the calls do besides: `ip route get`, sysctls and the table `nat`. -/
inductive OutsideCommand where
  | routeGet (subnet : Ipv4Net)
  | tunnelForwarding
  | lanForwarding (subnet : Ipv4Net)
  | natCheck (virt subnet : Ipv4Net)
  | natAppend (virt subnet : Ipv4Net)
  | natDelete (virt subnet : Ipv4Net)
deriving DecidableEq

inductive FilterCommand where
  /-- `-I` -/
  | insert (chain : FilterChain) (rule : FilterRule)
  /-- `-D` -/
  | delete (chain : FilterChain) (rule : FilterRule)
  /-- `-C` -/
  | check (chain : FilterChain) (rule : FilterRule)
  | outside (request : OutsideCommand)
deriving DecidableEq

/-- The effect of a command, `none` where it cannot succeed. -/
def FilterCommand.apply : FilterCommand → Filters φ → Option (Filters φ)
  | .insert chain rule, filters => some (filters.onChain (fun rules => .own rule :: rules) chain)
  | .delete chain rule, filters =>
      if (filters.chain chain).any (FilterEntry.isOwn rule) then
        some (filters.onChain (fun rules => rules.eraseP (FilterEntry.isOwn rule)) chain)
      else none
  | .check chain rule, filters =>
      if (filters.chain chain).any (FilterEntry.isOwn rule) then some filters else none
  | .outside _, filters => some filters

/-- Which commands are not refused, by their place in the call. -/
abbrev Grants := Nat → FilterCommand → Bool

abbrev FilterSession (φ : Type) := Console.Session (Filters φ)

/-! ### The backend -/

/-- `CONTROL_PORT`. -/
def CONTROL_PORT : UInt16 := 51821

structure RouterState where
  /-- With whether the source is translated. -/
  subnets : List (Ipv4Net × Bool) := []
  virtualSubnet : Option Ipv4Net := none
deriving DecidableEq

structure FilterBackend extends LinuxBackend where
  isolatedIps : List Ipv4Addr := []
  router : RouterState := {}
deriving DecidableEq

/-- `isolation_rule_args`, in the order of insertion. -/
def isolationRules (ifName : String) (ip : Ipv4Addr) : List (FilterChain × FilterRule) :=
  let comment := "peercove-invite-isolation"
  let own := some (Ipv4Net.host ip)
  let control := some (CONTROL_PORT, CONTROL_PORT)
  [ (.forward, { inIf := some ifName, source := own, target := .drop, comment := comment }),
    (.forward, { outIf := some ifName, destination := own, target := .drop, comment := comment }),
    (.input, { inIf := some ifName, source := own, target := .drop, comment := comment }),
    (.output, { outIf := some ifName, destination := own, target := .drop, comment := comment }),
    (.input,
      { inIf := some ifName, source := own, protocol := .tcp, dport := control, target := .accept,
        comment := comment }),
    (.output,
      { outIf := some ifName, destination := own, protocol := .tcp, sport := control,
        target := .accept, comment := comment }) ]

/-- `forward_rule_args`. -/
def routerRule (src dst : Ipv4Net) : FilterRule where
  source := some src
  destination := some dst
  target := .accept
  comment := "peercove-subnet-router"

def isolationInserts (ifName : String) (ip : Ipv4Addr) : List FilterCommand :=
  (isolationRules ifName ip).map (fun entry => .insert entry.1 entry.2)

def isolationDeletes (ifName : String) (ip : Ipv4Addr) : List FilterCommand :=
  (isolationRules ifName ip).map (fun entry => .delete entry.1 entry.2)

namespace FilterBackend

variable (works : Grants) (backend : FilterBackend)

/-- `clear_isolation`. -/
def clearIsolation (session : FilterSession φ) : FilterBackend × FilterSession φ :=
  ({ backend with isolatedIps := [] },
    Console.each FilterCommand.apply works
      (backend.isolatedIps.flatMap (isolationDeletes backend.ifName)) session)

/-- `reassert_isolation_top`. -/
def reassertIsolationTop (session : FilterSession φ) : FilterSession φ :=
  if backend.isolatedIps.isEmpty then session
  else
    Console.each FilterCommand.apply works
      (backend.isolatedIps.flatMap (isolationInserts backend.ifName))
      (Console.each FilterCommand.apply works
        (backend.isolatedIps.flatMap (isolationDeletes backend.ifName)) session)

/-! ### `sync_acl` -/

def insertForward (rule : ForwardRule) : FilterCommand :=
  .insert .forward rule.filterRule

def deleteForward (rule : ForwardRule) : FilterCommand :=
  .delete .forward rule.filterRule

/-- `rollback[0] = "-D"`. -/
def rolledBack : FilterCommand → FilterCommand
  | .insert chain rule => .delete chain rule
  | other => other

def syncAcl (policy : AclPolicy) (session : FilterSession φ) :
    Except String Unit × FilterBackend × FilterSession φ :=
  if backend.aclPolicy = some policy then
    (.ok (), backend, session)
  else
    let generation := (backend.aclGeneration + 1) % 2 ^ 64
    let numbered := { backend with aclGeneration := generation }
    let desired := desiredRules backend.ifName generation policy
    match Console.inOrder FilterCommand.apply works (desired.reverse.map insertForward) session with
    | ((added, false), session) =>
        (.error "ACL v2 ルールを設定できません。iptables が必要です (sudo apt install iptables)",
          numbered, Console.each FilterCommand.apply works (added.map rolledBack) session)
    | ((_, true), session) =>
        let replaced := { numbered with aclRules := desired, aclPolicy := some policy }
        (.ok (), replaced,
          replaced.reassertIsolationTop works
            (Console.each FilterCommand.apply works (backend.aclRules.map deleteForward) session))

/-! ### `sync_isolation` -/

/-- The loop of `sync_isolation` over the addresses. -/
def isolateEach : List Ipv4Addr → FilterBackend → FilterSession φ →
    Except String Unit × FilterBackend × FilterSession φ
  | [], backend, session => (.ok (), backend, session)
  | ip :: rest, backend, session =>
      let pushed := { backend with isolatedIps := backend.isolatedIps ++ [ip] }
      match Console.inOrder FilterCommand.apply works (isolationInserts backend.ifName ip)
          session with
      | ((_, true), session) => isolateEach rest pushed session
      | ((_, false), session) =>
          (.error "承認待ち端末の隔離に失敗しました。iptables が必要です",
            pushed.clearIsolation works session)

def isolationTargets (isolated : List Ipv4Addr) : List Ipv4Addr :=
  sortDedup (fun one two => one.toNat ≤ two.toNat) isolated

def syncIsolation (isolated : List Ipv4Addr) (session : FilterSession φ) :
    Except String Unit × FilterBackend × FilterSession φ :=
  if isolationTargets isolated = backend.isolatedIps then
    (.ok (), backend, session)
  else
    let cleared := backend.clearIsolation works session
    isolateEach works (isolationTargets isolated) cleared.1 cleared.2

/-! ### `sync_subnet_router` -/

/-- `remove_subnet_rules`. -/
def removeSubnetRules (virt subnet : Ipv4Net) (snat : Bool) : List FilterCommand :=
  (if snat then [.outside (.natDelete virt subnet)] else []) ++
    [.delete .forward (routerRule virt subnet), .delete .forward (routerRule subnet virt)]

def removeSubnets (virt : Ipv4Net) (gone : List (Ipv4Net × Bool)) : List FilterCommand :=
  gone.flatMap (fun entry => removeSubnetRules virt entry.1 entry.2)

/-- `clear_router`. -/
def clearRouter (session : FilterSession φ) : FilterBackend × FilterSession φ :=
  match backend.router.virtualSubnet with
  | none => (backend, session)
  | some virt =>
      ({ backend with router := {} },
        Console.each FilterCommand.apply works (removeSubnets virt backend.router.subnets) session)

/-- One of the two FORWARD rules of a subnet: whether it had to be put in, `none` where it is still
not there. -/
def allowForward (src dst : Ipv4Net) (session : FilterSession φ) : Option Bool × FilterSession φ :=
  match Console.command FilterCommand.apply works (.check .forward (routerRule src dst))
      session with
  | (true, session) => (some false, session)
  | (false, session) =>
      let inserted := Console.command FilterCommand.apply works
        (.insert .forward (routerRule src dst)) session
      (if inserted.1 then some true else none, inserted.2)

/-- The source translation of a subnet. -/
def masquerade (virt subnet : Ipv4Net) (snat : Bool) (session : FilterSession φ) :
    Bool × FilterSession φ :=
  if snat then
    match Console.command FilterCommand.apply works (.outside (.natCheck virt subnet)) session with
    | (true, session) => (true, session)
    | (false, session) =>
        Console.command FilterCommand.apply works (.outside (.natAppend virt subnet)) session
  else (true, session)

def lanUnknown (subnet : Ipv4Net) : String :=
  s!"サブネット {subnet.display} への経路(LAN 側 IF)を特定できません"

def forwardRefused : String :=
  "FORWARD 許可ルールの設定に失敗しました。iptables が必要です (sudo apt install iptables)"

def snatRefused : String :=
  "SNAT(MASQUERADE)の設定に失敗しました。iptables が必要です (sudo apt install iptables)"

/-- The loop body of `sync_subnet_router`: whether a FORWARD rule went in. -/
def openSubnet (virt subnet : Ipv4Net) (snat : Bool) (session : FilterSession φ) :
    Except String Bool × FilterSession φ :=
  match Console.inOrder FilterCommand.apply works
      [.outside (.routeGet subnet), .outside .tunnelForwarding,
        .outside (.lanForwarding subnet)] session with
  | ((taken, false), session) =>
      (.error (if taken = [] then lanUnknown subnet
        else "IP フォワーディングの有効化に失敗しました"), session)
  | ((_, true), session) =>
      match allowForward works virt subnet session with
      | (none, session) => (.error forwardRefused, session)
      | (some one, session) =>
          match allowForward works subnet virt session with
          | (none, session) => (.error forwardRefused, session)
          | (some two, session) =>
              match masquerade works virt subnet snat session with
              | (false, session) => (.error snatRefused, session)
              | (true, session) => (.ok (one || two), session)

/-- The loop of `sync_subnet_router`.  `inserted` is `inserted_forward`. -/
def openSubnets (virt : Ipv4Net) (snat : Bool) : List Ipv4Net → Bool → FilterBackend →
    FilterSession φ → Except String Bool × FilterBackend × FilterSession φ
  | [], inserted, backend, session => (.ok inserted, backend, session)
  | subnet :: rest, inserted, backend, session =>
      if backend.router.subnets.any (fun entry => entry.1 = subnet) then
        openSubnets virt snat rest inserted backend session
      else
        match openSubnet works virt subnet snat session with
        | (.error message, session) => (.error message, backend, session)
        | (.ok one, session) =>
            let routed := { backend.router with
              subnets := backend.router.subnets ++ [(subnet, snat)] }
            openSubnets virt snat rest (inserted || one) { backend with router := routed } session

/-- The subnets that are no longer advertised. -/
def withdrawSubnets (subnets : List Ipv4Net) (session : FilterSession φ) :
    FilterBackend × FilterSession φ :=
  match backend.router.virtualSubnet with
  | none => (backend, session)
  | some virt =>
      let kept := backend.router.subnets.filter (fun entry => entry.1 ∈ subnets)
      let gone := backend.router.subnets.filter (fun entry => entry.1 ∉ subnets)
      ({ backend with router := { subnets := kept, virtualSubnet := some virt } },
        Console.each FilterCommand.apply works (removeSubnets virt gone) session)

/-- `self.router.virtual_subnet = Some(virtual_subnet)`. -/
def routedFrom (virt : Ipv4Net) : FilterBackend :=
  { backend with router := { subnets := backend.router.subnets, virtualSubnet := some virt } }

def syncSubnetRouter (virt : Ipv4Net) (subnets : List Ipv4Net) (snat : Bool)
    (session : FilterSession φ) : Except String Unit × FilterBackend × FilterSession φ :=
  let withdrawn := backend.withdrawSubnets works subnets session
  if subnets.isEmpty then
    let cleared := withdrawn.1.clearRouter works withdrawn.2
    (.ok (), cleared.1, cleared.2)
  else
    match openSubnets works virt snat subnets false (withdrawn.1.routedFrom virt) withdrawn.2 with
    | (.error message, backend, session) => (.error message, backend, session)
    | (.ok false, backend, session) => (.ok (), backend, session)
    | (.ok true, backend, session) => (.ok (), backend, backend.reassertIsolationTop works session)

end FilterBackend

/-! ### Calls and runs -/

inductive FilterCall where
  | acl (policy : AclPolicy)
  | isolate (isolated : List Ipv4Addr)
  | route (virt : Ipv4Net) (subnets : List Ipv4Net) (snat : Bool)
deriving DecidableEq

structure FilterHost (φ : Type) where
  backend : FilterBackend
  filters : Filters φ
deriving DecidableEq

/-- What a call leaves behind: its result, the host, and the chains after each command. -/
structure Performed (φ : Type) where
  result : Except String Unit
  host : FilterHost φ
  moments : List (Filters φ)

namespace FilterHost

/-- `apply_relay_rule` in `up`, on a host whose chains hold whatever was there. -/
def up (ifName : String) (filters : Filters φ) : FilterHost φ where
  backend := { ifName := ifName }
  filters :=
    let relay := (relayRule ifName).filterRule
    { filters with forward := .own relay :: filters.forward.eraseP (FilterEntry.isOwn relay) }

def perform (call : FilterCall) (works : Grants) (host : FilterHost φ) : Performed φ :=
  let session : FilterSession φ := { state := host.filters }
  let done :=
    match call with
    | .acl policy => host.backend.syncAcl works policy session
    | .isolate isolated => host.backend.syncIsolation works isolated session
    | .route virt subnets snat => host.backend.syncSubnetRouter works virt subnets snat session
  { result := done.1
    host := { backend := done.2.1, filters := done.2.2.state }
    moments := done.2.2.seen }

/-- A call, with the commands that are not refused. -/
structure Step where
  call : FilterCall
  works : Grants

def step (taken : Step) (host : FilterHost φ) : Option (FilterHost φ) :=
  some (host.perform taken.call taken.works).host

end FilterHost

end PeerCove
