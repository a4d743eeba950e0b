/-
Module: PeerCove.Proofs.DirectRelay
Layer: Proofs
Purpose: When two members that may communicate directly are allowed everything by the policy.
Trusted boundary: none
Main exports: mem_forceRelayPairs, direct_allowed_iff
-/
import PeerCove.Proofs.AclRefinement

namespace PeerCove

open Fallible

/-! ### The pairs that are relayed -/

/-- A relayed pair is a relevant one whose first address stands before the second. -/
theorem mem_forceRelayPairs {policy : AclPolicy} {members : List Ipv4Addr} {a b : Ipv4Addr} :
    (a, b) ∈ policy.forceRelayPairs members ↔
      [a, b].Sublist members ∧ policy.relevant a b = true := by
  induction members with
  | nil => simp [AclPolicy.forceRelayPairs]
  | cons head rest ih =>
      rw [AclPolicy.forceRelayPairs, List.mem_append, ih]
      simp only [List.mem_map, List.mem_filter, Prod.mk.injEq]
      constructor
      · rintro (⟨other, ⟨member, relevant⟩, rfl, rfl⟩ | ⟨listed, relevant⟩)
        · exact ⟨List.cons_sublist_cons.mpr (List.singleton_sublist.mpr member), relevant⟩
        · exact ⟨listed.cons head, relevant⟩
      · rintro ⟨listed, relevant⟩
        rcases List.sublist_cons_iff.mp listed with later | ⟨tail, same, member⟩
        · exact .inr ⟨later, relevant⟩
        · obtain ⟨rfl, rfl⟩ := List.cons.inj same
          exact .inl ⟨b, ⟨List.singleton_sublist.mp member, relevant⟩, rfl, rfl⟩

/-! ### Packets between two members -/

/-- The packet goes from one of the two addresses to the other. -/
def Between (a b : Ipv4Addr) (packet : PacketInfo) : Prop :=
  (packet.src = a ∧ packet.dst = b) ∨ (packet.src = b ∧ packet.dst = a)

/-- Rules whose id looks like that of a denied pair. -/
def AclConfig.legacyNamed (acl : AclConfig) : List AclRule :=
  acl.enabledRules.filter (fun rule => Text.startsWith rule.id "legacy-deny-")

/-- A rule that matters to no relayed pair and has another id lets the packet pass by. -/
theorem ruleAdmits_of_irrelevant {config : Config} {policy : AclPolicy}
    (compiled : AclPolicy.compile config = .ok policy) {a b : Ipv4Addr}
    (irrelevant : policy.relevant a b = false) {packet : PacketInfo} (between : Between a b packet)
    {rule : AclRule} (enabled : rule ∈ config.acl.enabledRules)
    (named : Text.startsWith rule.id "legacy-deny-" = false) :
    ruleAdmits config packet rule = false := by
  obtain ⟨rules, each, rfl⟩ := compile_ok.mp compiled
  obtain ⟨resolved, listed, made⟩ := ok_of_mem each enabled
  have id : resolved.id = rule.id := by
    obtain ⟨_, _, _, _, _, _, _, _, rfl⟩ := compileRule_ok.mp made
    rfl
  simp only [AclPolicy.relevant, Bool.or_eq_false_iff, List.any_eq_false] at irrelevant
  have apart := irrelevant.2 resolved (List.mem_append_right _ listed)
  rw [id, named] at apart
  have unmatched : (matchesIp resolved.source a && matchesIp resolved.destination b) = false ∧
      (matchesIp resolved.source b && matchesIp resolved.destination a) = false := by
    simpa using apart
  rw [← compileRule_hits made, ResolvedRule.hits]
  rcases between with ⟨source, destination⟩ | ⟨source, destination⟩
  · rw [source, destination, unmatched.1]
    rfl
  · rw [source, destination, unmatched.2]
    rfl

/-- The decision on a pair that is not relayed. -/
theorem evaluate_direct {config : Config} {policy : AclPolicy}
    (compiled : AclPolicy.compile config = .ok policy) {a b : Ipv4Addr}
    (irrelevant : policy.relevant a b = false) {packet : PacketInfo}
    (between : Between a b packet) :
    (policy.evaluate packet).action =
      if legacyDenied config packet then .deny
      else FirstMatch.pick (ruleAdmits config packet) AclRule.action .allow
        config.acl.legacyNamed := by
  have default : config.acl.default = .allow := by
    obtain ⟨rules, each, rfl⟩ := compile_ok.mp compiled
    simp only [AclPolicy.relevant, Bool.or_eq_false_iff, decide_eq_false_iff_not] at irrelevant
    cases chosen : config.acl.default with
    | allow => rfl
    | deny => exact absurd chosen irrelevant.1
  rw [evaluate_admits compiled, default, AclConfig.legacyNamed, FirstMatch.pick_filter]
  exact fun rule enabled named => ruleAdmits_of_irrelevant compiled irrelevant between enabled named

/-- Without the pair itself, the other denied pairs decide whether one denies the packet. -/
theorem legacyDenied_eq_false {config : Config} {a b : Ipv4Addr}
    (notDenied : orderPair (a, b) ∉ config.acl.normalizedDeny) (packet : PacketInfo) :
    legacyDenied config packet = false ↔
      ∀ pair ∈ config.acl.deny, orderPair pair ≠ orderPair (a, b) →
        pairHolds config packet pair = false := by
  have other : ∀ pair ∈ config.acl.deny, orderPair pair ≠ orderPair (a, b) := by
    intro pair denied same
    rw [AclConfig.normalizedDeny, SortDedup.mem_sortDedup, ← same] at notDenied
    exact notDenied (List.mem_map_of_mem denied)
  have unfolded : legacyDenied config packet = config.acl.deny.any (pairHolds config packet) := rfl
  rw [unfolded, List.any_eq_false]
  constructor
  · intro none pair denied _
    exact Bool.not_eq_true _ ▸ none pair denied
  · intro none pair denied
    rw [none pair denied (other pair denied)]
    decide

/-- Two members that are neither relayed nor denied are allowed everything exactly when no other
denied pair catches them, through a network behind one of its members, and the rules whose ids
begin as those of denied pairs allow it. -/
theorem direct_allowed_iff {config : Config} {policy : AclPolicy}
    (compiled : AclPolicy.compile config = .ok policy) {members : List Ipv4Addr}
    {a b : Ipv4Addr} (listed : [a, b].Sublist members)
    (direct : (a, b) ∉ policy.forceRelayPairs members)
    (notDenied : orderPair (a, b) ∉ config.acl.normalizedDeny) :
    (∀ packet, Between a b packet → (policy.evaluate packet).action = .allow) ↔
      ∀ packet, Between a b packet →
        (∀ pair ∈ config.acl.deny, orderPair pair ≠ orderPair (a, b) →
          pairHolds config packet pair = false) ∧
        FirstMatch.pick (ruleAdmits config packet) AclRule.action .allow
          config.acl.legacyNamed = .allow := by
  have irrelevant : policy.relevant a b = false := by
    cases relevant : policy.relevant a b with
    | false => rfl
    | true => exact absurd (mem_forceRelayPairs.mpr ⟨listed, relevant⟩) direct
  refine forall_congr' (fun packet => forall_congr' (fun between => ?_))
  rw [evaluate_direct compiled irrelevant between, ← legacyDenied_eq_false notDenied]
  cases denied : legacyDenied config packet with
  | true => simp
  | false => simp

/-! ### A rule that is named like a denied pair -/

/-- Two members, and a rule that keeps them from each other under an id of its own choice. -/
def namedLikePair : Config where
  interface := { address := .slash24 0x0a070001 }
  peers := [
    { publicKey := ⟨1⟩, allowedIps := [Ipv4Net.host 0x0a070002] },
    { publicKey := ⟨2⟩, allowedIps := [Ipv4Net.host 0x0a070003] }]
  acl := {
    rules := [{
      id := "legacy-deny-ssh"
      action := .deny
      source := .member ⟨1⟩
      destination := .member ⟨2⟩
      protocol := .tcp
      ports := ["22"] }] }

def namedLikePairPolicy : AclPolicy where
  default := .allow
  rules := [{
    id := "legacy-deny-ssh"
    action := .deny
    source := [Ipv4Net.host 0x0a070002]
    destination := [Ipv4Net.host 0x0a070003]
    protocol := .tcp
    ports := [(22, 22)] }]

def sshPacket : PacketInfo where
  src := 0x0a070002
  dst := 0x0a070003
  protocol := 6
  dstPort := some 22

/-- The two members may communicate directly, although the rule denies a packet between them. -/
theorem direct_bypassesRule :
    namedLikePair.validate = .ok () ∧
      ¬ ∀ policy members a b packet, AclPolicy.compile namedLikePair = .ok policy →
        [a, b].Sublist members → (a, b) ∉ policy.forceRelayPairs members →
        orderPair (a, b) ∉ namedLikePair.acl.normalizedDeny → Between a b packet →
        (policy.evaluate packet).action = .allow := by
  refine ⟨by decide, fun all => ?_⟩
  have compiled : AclPolicy.compile namedLikePair = .ok namedLikePairPolicy := by decide
  have direct : (0x0a070002, 0x0a070003) ∉
      namedLikePairPolicy.forceRelayPairs [0x0a070002, 0x0a070003] := by decide
  have allowed := all namedLikePairPolicy [0x0a070002, 0x0a070003] 0x0a070002 0x0a070003 sshPacket
    compiled (List.Sublist.refl _) direct (by decide) (.inl ⟨rfl, rfl⟩)
  have denied : (namedLikePairPolicy.evaluate sshPacket).action = .deny := by decide
  rw [denied] at allowed
  cases allowed

/-- The characterisation, at these two members. -/
theorem direct_allowed_iff_namedLikePair :
    (∀ packet, Between 0x0a070002 0x0a070003 packet →
        (namedLikePairPolicy.evaluate packet).action = .allow) ↔
      ∀ packet, Between 0x0a070002 0x0a070003 packet →
        (∀ pair ∈ namedLikePair.acl.deny,
          orderPair pair ≠ orderPair (0x0a070002, 0x0a070003) →
            pairHolds namedLikePair packet pair = false) ∧
        FirstMatch.pick (ruleAdmits namedLikePair packet) AclRule.action .allow
          namedLikePair.acl.legacyNamed = .allow :=
  direct_allowed_iff (by decide) (List.Sublist.refl _) (by decide)
    (by decide)

end PeerCove
