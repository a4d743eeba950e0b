/-
Module: PeerCove.Proofs.AclRefinement
Layer: Proofs
Purpose: The compiled policy against the semantics of the rules: where they agree, and that they
  differ nowhere else than on diverted packets.
Trusted boundary: none
Main exports: resolveTarget_matches, legacyRules_any, evaluate_action_iff
-/
import PeerCove.Core.AclSemantics
import PeerCove.Core.Validate

namespace PeerCove

open Fallible

/-! ### One end of a rule -/

theorem matchesIp_nonempty {nets : List Ipv4Net} (some : nets ≠ []) (ip : Ipv4Addr) :
    matchesIp nets ip = nets.any (·.contains ip) := by
  simp [matchesIp, some]

theorem matchesIp_singleton (net : Ipv4Net) (ip : Ipv4Addr) :
    matchesIp [net] ip = net.contains ip := by
  simp [matchesIp]

/-- A member denotes the union of its networks. -/
theorem memberHolds_eq (config : Config) (key : PublicKey) (ip : Ipv4Addr) :
    memberHolds config key ip = ((peerNetworks config key).getD []).any (·.contains ip) := by
  unfold memberHolds peerNetworks
  cases config.peers.find? (fun peer => peer.publicKey = key) with
  | none => rfl
  | some peer => simp

/-- A union of members is empty when each of them has no networks. -/
theorem groupNetworks_isEmpty (config : Config) (members : List PublicKey) :
    (groupNetworks config members).isEmpty = members.all (withoutNetworks config) := by
  rw [Bool.eq_iff_iff]
  simp [groupNetworks, withoutNetworks, List.flatMap_eq_nil_iff]

theorem groupNetworks_any (config : Config) (members : List PublicKey) (ip : Ipv4Addr) :
    (groupNetworks config members).any (·.contains ip) =
      members.any (fun member => memberHolds config member ip) := by
  simp only [groupNetworks, List.any_flatMap, memberHolds_eq]

/-- The two ways a service resolves. -/
theorem resolveService_inv {config : Config} {service : String} {nets : List Ipv4Net}
    (resolved : resolveService config service = .ok nets) :
    ∃ record, config.dnsRecords.find? (fun record => record.id = some service) = some record ∧
      ((∃ ip, record.ip = some ip ∧ nets = [Ipv4Net.host ip]) ∨
        ∃ key held, record.ip = none ∧ record.member = some (.key key) ∧
          peerNetworks config key = some held ∧ nets = held.take 1) := by
  unfold resolveService at resolved
  split at resolved
  · cases resolved
  · rename_i record found
    refine ⟨record, found, ?_⟩
    split at resolved
    · cases resolved
    split at resolved
    · cases resolved
    split at resolved
    · rename_i ip fixed
      exact .inl ⟨ip, fixed, (Except.ok.inj resolved).symm⟩
    · rename_i key free named
      split at resolved
      · rename_i held known
        exact .inr ⟨key, held, free, named, known, (Except.ok.inj resolved).symm⟩
      · cases resolved
    · cases resolved

/-- The destination of a service: its fixed address, or the first network of its member. -/
theorem resolveService_matches {config : Config} {service : String} {nets : List Ipv4Net}
    (resolved : resolveService config service = .ok nets) (ip : Ipv4Addr) :
    matchesIp nets ip =
      (denotes config (.service service) ip || blurs config (.service service) ip) := by
  obtain ⟨record, found, ⟨address, fixed, rfl⟩ | ⟨key, held, free, named, known, rfl⟩⟩ :=
    resolveService_inv resolved
  · rw [matchesIp_singleton]
    simp only [denotes, blurs, found, Option.any_some, recordAddress, recordBlurs, fixed]
    rw [Bool.eq_iff_iff, Ipv4Net.host_contains]
    simp [eq_comm]
  · obtain ⟨peer, registered, rfl⟩ := Option.map_eq_some_iff.mp known
    simp only [denotes, blurs, found, Option.any_some, recordAddress, recordBlurs, free, named,
      known, registered, Option.getD_some, Option.bind_some, PeerConfig.virtualIp]
    cases own : peer.allowedIps with
    | nil => cases peer.subnets with
      | nil => simp [matchesIp]
      | cons net rest => simp [matchesIp]
    | cons net rest =>
        -- the member's own address lies in its first network
        have inside : net.addr = ip → net.contains ip = true := by
          rintro rfl
          exact net.contains_addr
        have absorbed : (net.addr = ip ∨ net.contains ip = true) ↔ net.contains ip = true :=
          or_iff_right_of_imp inside
        rw [Bool.eq_iff_iff]
        simp [matchesIp, absorbed]

/-- The list of networks of a target admits what the target denotes and what it blurs. -/
theorem resolveTarget_matches {config : Config} {target : AclTarget} {destination : Bool}
    {nets : List Ipv4Net} (resolved : resolveTarget config target destination = .ok nets)
    (ip : Ipv4Addr) :
    matchesIp nets ip = (denotes config target ip || blurs config target ip) := by
  cases target with
  | any value =>
      simp only [resolveTarget] at resolved
      split at resolved
      · obtain rfl := Except.ok.inj resolved
        rfl
      · cases resolved
  | member member =>
      simp only [resolveTarget] at resolved
      split at resolved
      · rename_i held known
        obtain rfl := Except.ok.inj resolved
        simp only [denotes, blurs, memberHolds_eq, withoutNetworks, known, Option.getD_some]
        rw [matchesIp, Bool.or_comm]
      · cases resolved
  | group group =>
      simp only [resolveTarget] at resolved
      split at resolved
      · rename_i found known
        obtain rfl := Except.ok.inj resolved
        simp only [denotes, blurs, known, Option.any_some]
        rw [matchesIp, groupNetworks_isEmpty, groupNetworks_any, Bool.or_comm]
      · cases resolved
  | subnet subnet =>
      obtain rfl := Except.ok.inj resolved
      simp [matchesIp, denotes, blurs]
  | service service =>
      simp only [resolveTarget] at resolved
      split at resolved
      · exact resolveService_matches resolved ip
      · cases resolved

/-! ### Ports and whole rules -/

theorem parsePorts_ok {values : List String} {ranges : List (UInt16 × UInt16)} :
    parsePorts values = .ok ranges ↔
      List.Forall₂ (fun value range => parsePort value = .ok range) values ranges := by
  rw [parsePorts, mapM_ok]

theorem portEntryContains_ok {value : String} {range : UInt16 × UInt16}
    (parsed : parsePort value = .ok range) (port : UInt16) :
    portEntryContains port value = (decide (range.1 ≤ port) && decide (port ≤ range.2)) := by
  unfold portEntryContains
  simp only [parsed]

/-- Parsed ranges contain the ports of the entries they come from. -/
theorem parsePorts_any {values : List String} {ranges : List (UInt16 × UInt16)}
    (parsed : parsePorts values = .ok ranges) (port : UInt16) :
    ranges.any (fun range => range.1 ≤ port && port ≤ range.2) =
      values.any (portEntryContains port) := by
  have entries := parsePorts_ok.mp parsed
  clear parsed
  induction entries with
  | nil => rfl
  | @cons value range values ranges here rest ih =>
      rw [List.any_cons, List.any_cons, ih, portEntryContains_ok here]

theorem parsePorts_isEmpty {values : List String} {ranges : List (UInt16 × UInt16)}
    (parsed : parsePorts values = .ok ranges) : ranges.isEmpty = values.isEmpty := by
  have entries := parsePorts_ok.mp parsed
  cases entries with
  | nil => rfl
  | cons here rest => simp

/-- A compiled rule hits exactly the packets its source admits. -/
theorem compileRule_hits {config : Config} {rule : AclRule} {resolved : ResolvedRule}
    (compiled : compileRule config rule = .ok resolved) (packet : PacketInfo) :
    resolved.hits packet = ruleAdmits config packet rule := by
  obtain ⟨_, ports, parsed, _, source, one, destination, two, rfl⟩ := compileRule_ok.mp compiled
  simp only [AclRule.resolveWith, ResolvedRule.hits, ruleAdmits, portMatches]
  rw [resolveTarget_matches one, resolveTarget_matches two, parsePorts_isEmpty parsed]
  simp only [parsePorts_any parsed]

theorem compileRule_action {config : Config} {rule : AclRule} {resolved : ResolvedRule}
    (compiled : compileRule config rule = .ok resolved) : resolved.action = rule.action := by
  obtain ⟨_, ports, parsed, _, source, one, destination, two, rfl⟩ := compileRule_ok.mp compiled
  rfl

/-- Whatever matches is admitted. -/
theorem ruleAdmits_of_matches {config : Config} {packet : PacketInfo} {rule : AclRule}
    (hit : ruleMatches config packet rule = true) : ruleAdmits config packet rule = true := by
  simp only [ruleMatches, ruleAdmits, Bool.and_eq_true, Bool.or_eq_true] at hit ⊢
  obtain ⟨⟨⟨source, destination⟩, protocol⟩, port⟩ := hit
  exact ⟨⟨⟨.inl source, .inl destination⟩, protocol⟩, port⟩

/-! ### Denied pairs -/

theorem sideNetworks_matches (config : Config) (side ip : Ipv4Addr) :
    matchesIp (sideNetworks config side) ip = sideHolds config side ip := by
  unfold sideNetworks sideHolds
  cases config.peers.find? (fun peer => peer.allowedIps.any (·.contains side)) with
  | none =>
      rw [matchesIp_singleton, Bool.eq_iff_iff, Ipv4Net.host_contains]
      simp
  | some peer =>
      rw [matchesIp_nonempty (List.cons_ne_nil _ _), List.any_cons, Bool.eq_iff_iff,
        Bool.or_eq_true, Ipv4Net.host_contains]
      simp

/-- A pair and its two directions. -/
def pairHolds (config : Config) (packet : PacketInfo) (pair : Ipv4Addr × Ipv4Addr) : Bool :=
  (sideHolds config pair.1 packet.src && sideHolds config pair.2 packet.dst) ||
    (sideHolds config pair.2 packet.src && sideHolds config pair.1 packet.dst)

theorem legacyRule_hits (config : Config) (packet : PacketInfo) (index : Nat)
    (source destination : Ipv4Addr) :
    (legacyRule config index source destination).hits packet =
      (sideHolds config source packet.src && sideHolds config destination packet.dst) := by
  simp [legacyRule, ResolvedRule.hits, sideNetworks_matches, protocolMatches, portMatches]

/-- Which address of a pair comes first does not matter. -/
theorem pairHolds_orderPair (config : Config) (packet : PacketInfo)
    (pair : Ipv4Addr × Ipv4Addr) :
    pairHolds config packet (orderPair pair) = pairHolds config packet pair := by
  unfold orderPair
  split
  · rfl
  · exact Bool.or_comm _ _

/-- Some pair in normal form satisfies a symmetric test exactly when a pair as written does. -/
theorem normalizedDeny_any (acl : AclConfig) (test : Ipv4Addr × Ipv4Addr → Bool)
    (symmetric : ∀ pair, test (orderPair pair) = test pair) :
    acl.normalizedDeny.zipIdx.any (fun entry => test entry.1) = acl.deny.any test := by
  have pairs : acl.normalizedDeny.zipIdx.any (fun entry => test entry.1) =
      acl.normalizedDeny.any test := by
    conv_rhs => rw [← List.zipIdx_map_fst 0 acl.normalizedDeny]
    rw [List.any_map]
    rfl
  rw [pairs, Bool.eq_iff_iff, List.any_eq_true]
  simp only [AclConfig.normalizedDeny, SortDedup.mem_sortDedup]
  constructor
  · rintro ⟨ordered, member, holds⟩
    obtain ⟨pair, listed, rfl⟩ := List.mem_map.mp member
    rw [symmetric] at holds
    exact List.any_eq_true.mpr ⟨pair, listed, holds⟩
  · intro denied
    obtain ⟨pair, listed, holds⟩ := List.any_eq_true.mp denied
    exact ⟨orderPair pair, List.mem_map_of_mem listed, (symmetric pair).trans holds⟩

/-- One of the rules made of the denied pairs hits exactly when a pair, in the order and number
it is written, denies the packet. -/
theorem legacyRules_any (config : Config) (packet : PacketInfo) :
    (legacyRules config).any (ResolvedRule.hits packet) = legacyDenied config packet := by
  have entries : (legacyRules config).any (ResolvedRule.hits packet) =
      config.acl.normalizedDeny.zipIdx.any (fun entry => pairHolds config packet entry.1) := by
    simp only [legacyRules, List.any_flatMap, List.any_cons, List.any_nil, Bool.or_false,
      legacyRule_hits, pairHolds]
  rw [entries]
  exact normalizedDeny_any config.acl (pairHolds config packet)
    (pairHolds_orderPair config packet)

theorem legacyRules_action {config : Config} {rule : ResolvedRule}
    (member : rule ∈ legacyRules config) : rule.action = .deny := by
  obtain ⟨entry, _, one⟩ := List.mem_flatMap.mp member
  simp only [List.mem_cons, List.not_mem_nil, or_false] at one
  rcases one with rfl | rfl
  · rfl
  · rfl

/-! ### The compiled policy -/

/-- Evaluation returns the action of the first rule that hits. -/
theorem evaluate_action (policy : AclPolicy) (packet : PacketInfo) :
    (policy.evaluate packet).action =
      FirstMatch.pick (ResolvedRule.hits packet) ResolvedRule.action policy.default
        policy.rules := by
  unfold AclPolicy.evaluate
  induction policy.rules with
  | nil => rfl
  | cons rule rest ih =>
      rw [FirstMatch.pick_cons, FirstMatch.pick_cons]
      split
      · rfl
      · exact ih

/-- Compiled rules decide as the admission test of their sources does. -/
theorem compiled_pick {config : Config} {sources : List AclRule} {rules : List ResolvedRule}
    (compiled : List.Forall₂ (fun rule resolved => compileRule config rule = .ok resolved)
      sources rules) (packet : PacketInfo) (fallback : AclAction) :
    FirstMatch.pick (ResolvedRule.hits packet) ResolvedRule.action fallback rules =
      FirstMatch.pick (ruleAdmits config packet) AclRule.action fallback sources := by
  induction compiled with
  | nil => rfl
  | cons here rest ih =>
      rw [FirstMatch.pick_cons, FirstMatch.pick_cons, compileRule_hits here,
        compileRule_action here, ih]

/-- The action of a compiled policy: denied pairs, then the first rule that admits the packet. -/
theorem evaluate_admits {config : Config} {policy : AclPolicy}
    (compiled : AclPolicy.compile config = .ok policy) (packet : PacketInfo) :
    (policy.evaluate packet).action =
      if legacyDenied config packet then .deny
      else FirstMatch.pick (ruleAdmits config packet) AclRule.action config.acl.default
        config.acl.enabledRules := by
  obtain ⟨rules, each, rfl⟩ := compile_ok.mp compiled
  rw [evaluate_action, FirstMatch.pick_append, compiled_pick each,
    FirstMatch.pick_const _ _ .deny _ _ (fun rule member => legacyRules_action member),
    legacyRules_any]

/-- The action of a configuration that compiles, in the same terms. -/
theorem action_eq {config : Config} {policy : AclPolicy}
    (compiled : AclPolicy.compile config = .ok policy) (packet : PacketInfo) :
    config.action packet = some (if legacyDenied config packet then .deny
      else FirstMatch.pick (ruleAdmits config packet) AclRule.action config.acl.default
        config.acl.enabledRules) := by
  rw [Config.action, compiled, ← evaluate_admits compiled]

/-- A compiled policy gives the action of the rule semantics exactly on the packets that are not
diverted. -/
theorem evaluate_action_iff {config : Config} {policy : AclPolicy}
    (compiled : AclPolicy.compile config = .ok policy) (packet : PacketInfo) :
    (policy.evaluate packet).action = ruleSemantics config packet ↔ ¬ Diverted config packet := by
  rw [evaluate_admits compiled, ruleSemantics, Diverted]
  cases denied : legacyDenied config packet with
  | true => simp
  | false =>
      have weaker (rule : AclRule) (hit : ruleMatches config packet rule = true) :
          ruleAdmits config packet rule = true := ruleAdmits_of_matches hit
      have differ := FirstMatch.pick_ne_iff AclRule.action config.acl.default weaker
        config.acl.enabledRules
      simp only [Bool.false_eq_true, if_false, true_and, rulesAction]
      rw [← differ, not_not]

/-! ### A group that holds only the host -/

/-- Everything is denied but what comes from the group `ops`, whose one member is the host: its
key is no peer's. -/
def hostOnlyGroup : Config where
  interface := { address := .slash24 0x0a070001 }
  peers := [{ publicKey := ⟨1⟩, allowedIps := [Ipv4Net.host 0x0a070002] }]
  acl := {
    default := .deny
    groups := [{ id := "ops", members := [⟨9⟩] }]
    rules := [{ id := "ops-all", action := .allow, source := .group "ops" }] }

def hostOnlyPolicy : AclPolicy where
  default := .deny
  rules := [{
    id := "ops-all"
    action := .allow
    source := []
    destination := []
    protocol := .any
    ports := [] }]

/-- A packet of the only peer, to the host. -/
def peerToHost : PacketInfo where
  src := 0x0a070002
  dst := 0x0a070001
  protocol := 6
  dstPort := some 22

/-- The configuration is valid, yet its policy lets the peer through the rule for the group. -/
theorem evaluate_action_hostOnlyGroup :
    hostOnlyGroup.validate = .ok () ∧
      ¬ ∀ policy packet, AclPolicy.compile hostOnlyGroup = .ok policy →
        (policy.evaluate packet).action = ruleSemantics hostOnlyGroup packet := by
  refine ⟨by decide, fun same => ?_⟩
  have compiled : AclPolicy.compile hostOnlyGroup = .ok hostOnlyPolicy := by decide
  have allowed : (hostOnlyPolicy.evaluate peerToHost).action = .allow := by decide
  have denied : ruleSemantics hostOnlyGroup peerToHost = .deny := by decide
  have agree := same hostOnlyPolicy peerToHost compiled
  rw [allowed, denied] at agree
  cases agree

/-- The characterisation, at the policy of this configuration. -/
theorem evaluate_action_iff_hostOnlyGroup :
    (hostOnlyPolicy.evaluate peerToHost).action = ruleSemantics hostOnlyGroup peerToHost ↔
      ¬ Diverted hostOnlyGroup peerToHost :=
  evaluate_action_iff (by decide) peerToHost

end PeerCove
