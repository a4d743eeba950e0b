/-
Module: PeerCove.Proofs.PeerRemoval
Layer: Proofs
Purpose: What the removal of a member leaves behind, and when it touches nothing but what concerns
  that member.
Trusted boundary: none
Main exports: RemovesOnly, Shifted, Unentangled, removePeer_removesOnly_iff
-/
import PeerCove.Ops.PeerEdits
import PeerCove.Proofs.AclRefinement
import Mathlib.Data.List.Find

namespace PeerCove

open Fallible

/-! ### What concerns a member -/

/-- The group has members, and all of them are `key`. -/
def emptiedGroup (config : Config) (key : PublicKey) (id : String) : Bool :=
  config.acl.groups.any (fun group =>
    group.id = id && (group.members ≠ [] && (group.withoutMember key).members = []))

/-- The group had no members to begin with. -/
def memberlessGroup (config : Config) (id : String) : Bool :=
  config.acl.groups.any (fun group => group.id = id && group.members = [])

/-- The service belongs to the member or stands under it. -/
def removedService (config : Config) (key : PublicKey) (id : String) : Bool :=
  config.dnsRecords.any (fun record => record.id = some id && record.refersTo key)

/-- One end of a rule is the member, a group that its removal empties, or one of its services. -/
def endConcerned (config : Config) (key : PublicKey) : AclTarget → Bool
  | .member other => other = key
  | .group id => emptiedGroup config key id
  | .service id => removedService config key id
  | .any _ => false
  | .subnet _ => false

def ruleConcerned (config : Config) (key : PublicKey) (rule : AclRule) : Bool :=
  endConcerned config key rule.source || endConcerned config key rule.destination

/-- The networks of a peer: its own and those it advertises. -/
def PeerConfig.holds (peer : PeerConfig) (ip : Ipv4Addr) : Bool :=
  peer.allowedIps.any (·.contains ip) || peer.subnets.any (·.contains ip)

/-- Both ends of the packet lie outside the networks of the peer. -/
def PeerConfig.outside (peer : PeerConfig) (packet : PacketInfo) : Prop :=
  peer.holds packet.src = false ∧ peer.holds packet.dst = false

/-! ### The frame of a removal -/

/-- Nothing of the member is left, and nothing but that is gone. -/
structure RemovesOnly (config : Config) (target : PeerConfig) (written : Config) : Prop where
  peersGone : ∀ peer ∈ written.peers, peer.publicKey ≠ target.publicKey
  pairsGone : ∀ pair ∈ written.acl.deny, ∀ ip ∈ target.virtualIp, pair.1 ≠ ip ∧ pair.2 ≠ ip
  membersGone : ∀ group ∈ written.acl.groups, target.publicKey ∉ group.members
  targetsGone : ∀ rule ∈ written.acl.rules,
    rule.source ≠ .member target.publicKey ∧ rule.destination ≠ .member target.publicKey
  recordsGone : ∀ record ∈ written.dnsRecords, record.member ≠ some (.key target.publicKey) ∧
    record.under ≠ some (.key target.publicKey)
  peersKept : written.peers = config.peers.filter (fun peer => peer.publicKey ≠ target.publicKey)
  defaultKept : written.acl.default = config.acl.default
  groupsKept : ((config.acl.groups.map (AclGroup.withoutMember target.publicKey)).filter
    (fun group => group.members ≠ [])).Sublist written.acl.groups
  rulesKept : (config.acl.rules.filter (fun rule =>
    !ruleConcerned config target.publicKey rule)).Sublist written.acl.rules
  decisionsKept : ∀ packet, target.outside packet → written.action packet = config.action packet

/-! ### Denied pairs and rules as one list -/

/-- What decides on a packet: a denied pair or a rule. -/
abbrev Clause := (Ipv4Addr × Ipv4Addr) ⊕ AclRule

namespace Clause

def action : Clause → AclAction
  | .inl _ => .deny
  | .inr rule => rule.action

def admits (config : Config) (packet : PacketInfo) : Clause → Bool
  | .inl pair => pairHolds config packet pair
  | .inr rule => ruleAdmits config packet rule

/-- Whether the removal of `target` leaves the clause standing. -/
def kept (config : Config) (target : PeerConfig) : Clause → Bool
  | .inl pair => target.virtualIp.all (fun ip => pair.1 ≠ ip && pair.2 ≠ ip)
  | .inr rule => !ruleConcerned config target.publicKey rule

end Clause

/-- The denied pairs, then the enabled rules. -/
def Config.clauses (config : Config) : List Clause :=
  config.acl.deny.map .inl ++ config.acl.enabledRules.map .inr

/-- The configuration without the `[[peer]]` table of the key. -/
def Config.withoutPeer (config : Config) (key : PublicKey) : Config :=
  { config with peers := config.peers.filter (fun peer => peer.publicKey ≠ key) }

/-- Whether a clause catches the packet once the member is gone. -/
def admitsAfter (config : Config) (target : PeerConfig) (packet : PacketInfo) (clause : Clause) :
    Bool :=
  clause.kept config target && clause.admits (config.withoutPeer target.publicKey) packet

/-- The first clause that catches the packet, with the member or without it, does so only with it
or only without it, and its action is not what the later clauses give. -/
def Shifted (config : Config) (target : PeerConfig) (packet : PacketInfo) : Prop :=
  FirstMatch.Splits (Clause.admits config packet) (admitsAfter config target packet) Clause.action
    config.acl.default config.clauses

/-- The cleaning of the section `[acl]` takes nothing else along. -/
structure Detached (config : Config) (target : PeerConfig) : Prop where
  /-- A denied pair with its address stands in a section without anything to keep. -/
  pairsAlone : ∀ ip ∈ target.virtualIp, config.acl.denyNames ip = true →
    config.acl.default = .allow ∧
    (∀ group ∈ config.acl.groups, (group.withoutMember target.publicKey).members = []) ∧
    ∀ rule ∈ config.acl.rules, ruleConcerned config target.publicKey rule = true
  /-- No other rule names a group without members. -/
  noMemberless : ∀ rule ∈ config.acl.rules, ruleConcerned config target.publicKey rule = false →
    ∀ id, rule.source = .group id ∨ rule.destination = .group id →
      memberlessGroup config id = false

/-- Nothing else depends on the member, in the text or in the decisions. -/
structure Unentangled (config : Config) (target : PeerConfig) : Prop
    extends Detached config target where
  unshifted : ∀ packet, target.outside packet → ¬ Shifted config target packet

/-! ### Decisions over clauses -/

/-- A list of clauses decides by its pairs, then by its rules. -/
theorem pick_clauses (pairTest : Ipv4Addr × Ipv4Addr → Bool) (ruleTest : AclRule → Bool)
    (test : Clause → Bool) (pairs : ∀ pair, test (.inl pair) = pairTest pair)
    (rules : ∀ rule, test (.inr rule) = ruleTest rule) (config : Config) :
    FirstMatch.pick test Clause.action config.acl.default config.clauses =
      if config.acl.deny.any pairTest then .deny
      else FirstMatch.pick ruleTest AclRule.action config.acl.default config.acl.enabledRules := by
  have pairsOnly : test ∘ Sum.inl = pairTest := funext pairs
  have rulesOnly : test ∘ Sum.inr = ruleTest := funext rules
  rw [Config.clauses, FirstMatch.pick_append, FirstMatch.pick_map, FirstMatch.pick_map, pairsOnly,
    rulesOnly]
  exact FirstMatch.pick_const _ _ AclAction.deny _ _ (fun _ _ => rfl)

theorem action_clauses {config : Config} {policy : AclPolicy}
    (compiled : AclPolicy.compile config = .ok policy) (packet : PacketInfo) :
    config.action packet =
      some (FirstMatch.pick (Clause.admits config packet) Clause.action config.acl.default
        config.clauses) := by
  rw [action_eq compiled,
    pick_clauses (pairHolds config packet) (ruleAdmits config packet) _ (fun _ => rfl)
      (fun _ => rfl)]
  rfl

/-! ### The written configuration -/

/-- A removal that succeeds writes the edits of the peer the selector matches. -/
theorem removePeer_ok {config written : Config} {selector : Selector} {removed : RemovedPeer}
    (done : removePeer config selector = .ok (removed, written)) :
    ∃ target, findPeer config selector = .ok target ∧
      removed = (target.removal config).removed ∧
      written = (target.removal config).apply config ∧ written.validate = .ok () := by
  unfold removePeer at done
  obtain ⟨plan, planned, rest⟩ := bind_ok.mp done
  obtain ⟨edited, applied, result⟩ := bind_ok.mp rest
  obtain ⟨rfl, rfl⟩ := Prod.mk.inj (pure_ok.mp result)
  unfold removalPlan at planned
  obtain ⟨_, _, rest⟩ := bind_ok.mp planned
  obtain ⟨target, found, same⟩ := bind_ok.mp rest
  obtain rfl := pure_ok.mp same
  unfold RemovalPlan.edit at applied
  obtain ⟨_, _, rest⟩ := bind_ok.mp applied
  obtain ⟨_, _, wrote⟩ := bind_ok.mp rest
  obtain ⟨valid, rfl⟩ := writeValidated_ok.mp wrote
  exact ⟨target, found, rfl, rfl, valid⟩

section

variable {config : Config} {target : PeerConfig}

/-- A denied pair names the address of the member. -/
def pairsNamed (config : Config) (target : PeerConfig) : Bool :=
  target.virtualIp.any (fun ip => config.acl.denyNames ip)

theorem pairsNamed_iff : pairsNamed config target = true ↔
    ∃ ip, target.virtualIp = some ip ∧ config.acl.denyNames ip = true := by
  unfold pairsNamed
  cases target.virtualIp with
  | none => simp
  | some ip => simp

/-- The section `[acl]` that the cleaning starts from. -/
theorem removal_acl (config : Config) (target : PeerConfig) :
    ((target.removal config).apply config).acl =
      (if pairsNamed config target then
        { deny := sortDedup pairLe ((config.acl.normalizedDeny.filter (fun pair =>
            target.virtualIp.all (fun ip => pair.1 ≠ ip && pair.2 ≠ ip))).map orderPair) }
      else config.acl).withoutMember target.publicKey (target.removal config).serviceIds := by
  unfold pairsNamed RemovalPlan.apply PeerConfig.removal
  cases target.virtualIp with
  | none => rfl
  | some ip =>
      cases named : config.acl.denyNames ip with
      | true => simp [named, writeDeny]
      | false => simp [named]

theorem mem_serviceIds {id : String} :
    id ∈ (target.removal config).serviceIds ↔ removedService config target.publicKey id = true := by
  simp only [PeerConfig.removal, List.mem_filterMap, List.mem_filter, removedService,
    List.any_eq_true, Bool.and_eq_true, decide_eq_true_eq]
  constructor
  · rintro ⟨record, ⟨listed, refers⟩, same⟩
    exact ⟨record, listed, same, refers⟩
  · rintro ⟨record, listed, same, refers⟩
    exact ⟨record, ⟨listed, refers⟩, same⟩

/-- A group is left empty when it had no other members, or none at all. -/
theorem mem_groupsLeftEmpty {id : String} :
    id ∈ config.acl.groupsLeftEmpty target.publicKey ↔
      emptiedGroup config target.publicKey id = true ∨ memberlessGroup config id = true := by
  simp only [AclConfig.groupsLeftEmpty, List.mem_map, List.mem_filter, emptiedGroup,
    memberlessGroup, List.any_eq_true, Bool.and_eq_true, decide_eq_true_eq]
  constructor
  · rintro ⟨group, ⟨listed, left⟩, same⟩
    by_cases none : group.members = []
    · exact .inr ⟨group, listed, same, none⟩
    · exact .inl ⟨group, listed, same, none, left⟩
  · rintro (⟨group, listed, same, _, left⟩ | ⟨group, listed, same, none⟩)
    · exact ⟨group, ⟨listed, left⟩, same⟩
    · refine ⟨group, ⟨listed, ?_⟩, same⟩
      simp [AclGroup.withoutMember, none]

/-- The code also drops what refers to a group that had no members. -/
theorem isRemoved_iff (end_ : AclTarget) :
    end_.isRemoved target.publicKey (config.acl.groupsLeftEmpty target.publicKey)
        (target.removal config).serviceIds = true ↔
      endConcerned config target.publicKey end_ = true ∨
        ∃ id, end_ = .group id ∧ memberlessGroup config id = true := by
  cases end_ with
  | any value => simp [AclTarget.isRemoved, endConcerned]
  | subnet subnet => simp [AclTarget.isRemoved, endConcerned]
  | member other => simp [AclTarget.isRemoved, endConcerned]
  | service id => simp [AclTarget.isRemoved, endConcerned, mem_serviceIds]
  | group id => simp [AclTarget.isRemoved, endConcerned, mem_groupsLeftEmpty]

/-! ### The two cases of the section -/

/-- With a denied pair of the member, only the other pairs are left of the section. -/
theorem removal_acl_named (named : pairsNamed config target = true) :
    ((target.removal config).apply config).acl =
      { deny := sortDedup pairLe ((config.acl.normalizedDeny.filter (fun pair =>
          Clause.kept config target (.inl pair))).map orderPair) } := by
  rw [removal_acl, if_pos named]
  rfl

theorem removal_acl_unnamed (unnamed : pairsNamed config target = false) :
    ((target.removal config).apply config).acl =
      config.acl.withoutMember target.publicKey (target.removal config).serviceIds := by
  rw [removal_acl, unnamed]
  rfl

/-- A pair that names nobody is kept. -/
theorem kept_of_unnamed (unnamed : pairsNamed config target = false)
    {pair : Ipv4Addr × Ipv4Addr} (denied : pair ∈ config.acl.deny) :
    Clause.kept config target (.inl pair) = true := by
  unfold pairsNamed at unnamed
  unfold Clause.kept
  cases own : target.virtualIp with
  | none => rfl
  | some ip =>
      rw [own, Option.any_some, AclConfig.denyNames, List.any_eq_false] at unnamed
      simpa using unnamed pair denied

theorem kept_orderPair (pair : Ipv4Addr × Ipv4Addr) :
    Clause.kept config target (.inl (orderPair pair)) = Clause.kept config target (.inl pair) := by
  unfold orderPair
  split
  · rfl
  · simp only [Clause.kept, Bool.and_comm]

theorem mem_normalizedDeny {acl : AclConfig} {ordered : Ipv4Addr × Ipv4Addr} :
    ordered ∈ acl.normalizedDeny ↔ ∃ pair ∈ acl.deny, orderPair pair = ordered := by
  rw [AclConfig.normalizedDeny, SortDedup.mem_sortDedup, List.mem_map]

/-- The pairs that are left satisfy a symmetric test when a kept pair does. -/
theorem removal_deny_any (test : Ipv4Addr × Ipv4Addr → Bool)
    (symmetric : ∀ pair, test (orderPair pair) = test pair) :
    ((target.removal config).apply config).acl.deny.any test =
      config.acl.deny.any (fun pair => Clause.kept config target (.inl pair) && test pair) := by
  cases named : pairsNamed config target with
  | false =>
      rw [removal_acl_unnamed named, Bool.eq_iff_iff, List.any_eq_true, List.any_eq_true]
      constructor
      · rintro ⟨pair, denied, holds⟩
        exact ⟨pair, denied, by rw [kept_of_unnamed named denied, holds]; rfl⟩
      · rintro ⟨pair, denied, holds⟩
        exact ⟨pair, denied, (Bool.and_eq_true_iff.mp holds).2⟩
  | true =>
      rw [removal_acl_named named, Bool.eq_iff_iff, List.any_eq_true, List.any_eq_true]
      simp only [SortDedup.mem_sortDedup, List.mem_map, List.mem_filter, mem_normalizedDeny]
      constructor
      · rintro ⟨_, ⟨_, ⟨⟨pair, denied, rfl⟩, left⟩, rfl⟩, holds⟩
        rw [kept_orderPair] at left
        rw [symmetric, symmetric] at holds
        exact ⟨pair, denied, by rw [left, holds]; rfl⟩
      · rintro ⟨pair, denied, holds⟩
        obtain ⟨left, holds⟩ := Bool.and_eq_true_iff.mp holds
        refine ⟨_, ⟨_, ⟨⟨pair, denied, rfl⟩, ?_⟩, rfl⟩, ?_⟩
        · rw [kept_orderPair, left]
        · rw [symmetric, symmetric, holds]

/-- What the code keeps of the rules. -/
theorem codeKeeps_iff {rule : AclRule} :
    (!rule.source.isRemoved target.publicKey (config.acl.groupsLeftEmpty target.publicKey)
        (target.removal config).serviceIds &&
      !rule.destination.isRemoved target.publicKey (config.acl.groupsLeftEmpty target.publicKey)
        (target.removal config).serviceIds) = true ↔
      ruleConcerned config target.publicKey rule = false ∧
        ∀ id, rule.source = .group id ∨ rule.destination = .group id →
          memberlessGroup config id = false := by
  simp only [Bool.and_eq_true, Bool.not_eq_true', ← Bool.not_eq_true, isRemoved_iff, ruleConcerned,
    Bool.or_eq_true]
  constructor
  · rintro ⟨source, destination⟩
    refine ⟨?_, ?_⟩
    · rintro (concerned | concerned)
      · exact source (.inl concerned)
      · exact destination (.inl concerned)
    · rintro id (same | same) memberless
      · exact source (.inr ⟨id, same, memberless⟩)
      · exact destination (.inr ⟨id, same, memberless⟩)
  · rintro ⟨apart, inhabited⟩
    refine ⟨?_, ?_⟩
    · rintro (concerned | ⟨id, same, memberless⟩)
      · exact apart (.inl concerned)
      · exact inhabited id (.inl same) memberless
    · rintro (concerned | ⟨id, same, memberless⟩)
      · exact apart (.inr concerned)
      · exact inhabited id (.inr same) memberless

/-- Exactly the rules that do not concern the member are kept, when no other one names a group
without members. -/
theorem removal_rules (detached : Detached config target) :
    ((target.removal config).apply config).acl.rules =
      config.acl.rules.filter (fun rule => !ruleConcerned config target.publicKey rule) := by
  cases named : pairsNamed config target with
  | true =>
      obtain ⟨ip, own, denied⟩ := pairsNamed_iff.mp named
      obtain ⟨_, _, concerned⟩ := detached.pairsAlone ip own denied
      rw [removal_acl_named named, eq_comm, List.filter_eq_nil_iff]
      intro rule listed
      simp [concerned rule listed]
  | false =>
      rw [removal_acl_unnamed named, AclConfig.withoutMember]
      refine List.filter_congr (fun rule listed => ?_)
      rw [Bool.eq_iff_iff, codeKeeps_iff, Bool.not_eq_true']
      constructor
      · exact fun kept => kept.1
      · exact fun apart => ⟨apart, detached.noMemberless rule listed apart⟩

theorem removal_default (detached : Detached config target) :
    ((target.removal config).apply config).acl.default = config.acl.default := by
  cases named : pairsNamed config target with
  | true =>
      obtain ⟨ip, own, denied⟩ := pairsNamed_iff.mp named
      rw [removal_acl_named named, (detached.pairsAlone ip own denied).1]
  | false => rw [removal_acl_unnamed named]; rfl

/-! ### Rules that are kept mean the same -/

/-- The removed key holds no address any more. -/
theorem memberHolds_withoutPeer (key : PublicKey) (ip : Ipv4Addr) :
    memberHolds (config.withoutPeer key) key ip = false := by
  have gone : (config.withoutPeer key).peers.find? (fun peer => peer.publicKey = key) = none := by
    rw [Config.withoutPeer, List.find?_filter, List.find?_eq_none]
    intro peer _
    simp
  rw [memberHolds, gone]
  rfl

theorem withoutNetworks_withoutPeer (key : PublicKey) :
    withoutNetworks (config.withoutPeer key) key = true := by
  have gone : (config.withoutPeer key).peers.find? (fun peer => peer.publicKey = key) = none := by
    rw [Config.withoutPeer, List.find?_filter, List.find?_eq_none]
    intro peer _
    simp
  rw [withoutNetworks, peerNetworks, gone]
  rfl

/-- A group that is kept is found with the same members, the removed one apart. -/
theorem removal_findGroup (unnamed : pairsNamed config target = false) {id : String}
    (apart : emptiedGroup config target.publicKey id = false)
    (inhabited : memberlessGroup config id = false) :
    ((target.removal config).apply config).acl.groups.find? (fun group => group.id = id) =
      (config.acl.groups.find? (fun group => group.id = id)).map
        (AclGroup.withoutMember target.publicKey) := by
  have left : id ∉ config.acl.groupsLeftEmpty target.publicKey := by
    rw [mem_groupsLeftEmpty, apart, inhabited]
    simp
  rw [removal_acl_unnamed unnamed, AclConfig.withoutMember, List.find?_filter, List.find?_map]
  congr 2
  funext group
  rw [Function.comp_apply, Bool.eq_iff_iff]
  simp only [decide_eq_true_eq]
  constructor
  · exact fun found => found.2
  · exact fun same => ⟨by rw [AclGroup.withoutMember, same]; exact left, same⟩

/-- A service that is kept is found as before. -/
theorem removal_findRecord {id : String}
    (apart : removedService config target.publicKey id = false) :
    ((target.removal config).apply config).dnsRecords.find? (fun record => record.id = some id) =
      config.dnsRecords.find? (fun record => record.id = some id) := by
  have records : ((target.removal config).apply config).dnsRecords =
      config.dnsRecords.filter (fun record => !record.refersTo target.publicKey) := rfl
  rw [records, List.find?_filter]
  refine List.find?_congr (fun record listed => ?_)
  cases refers : record.refersTo target.publicKey with
  | false => simp
  | true =>
      have others : record.id ≠ some id := by
        intro same
        have found : removedService config target.publicKey id = true :=
          List.any_eq_true.mpr ⟨record, listed, by simp [same, refers]⟩
        rw [apart] at found
        cases found
      simp [others]

/-- The ends of a rule that is kept stand for the same addresses, the removed ones apart. -/
theorem denotes_removal (unnamed : pairsNamed config target = false) {end_ : AclTarget}
    (apart : endConcerned config target.publicKey end_ = false)
    (inhabited : ∀ id, end_ = .group id → memberlessGroup config id = false) (ip : Ipv4Addr) :
    denotes ((target.removal config).apply config) end_ ip =
      denotes (config.withoutPeer target.publicKey) end_ ip := by
  cases end_ with
  | any value => rfl
  | member other => rfl
  | subnet subnet => rfl
  | service id =>
      rw [denotes, removal_findRecord apart]
      rfl
  | group id =>
      rw [denotes, removal_findGroup unnamed apart (inhabited id rfl), denotes]
      have groups : (config.withoutPeer target.publicKey).acl.groups = config.acl.groups := rfl
      rw [groups]
      cases config.acl.groups.find? (fun group => group.id = id) with
      | none => rfl
      | some group =>
          simp only [Option.map_some, Option.any_some, AclGroup.withoutMember, List.any_filter]
          congr 1
          funext member
          by_cases same : member = target.publicKey
          · subst same
            have gone : memberHolds (config.withoutPeer target.publicKey) target.publicKey ip = false :=
              memberHolds_withoutPeer target.publicKey ip
            simp [gone]
          · simp only [same, ne_eq, not_false_eq_true, decide_true, Bool.true_and]
            rfl

theorem blurs_removal (unnamed : pairsNamed config target = false) {end_ : AclTarget}
    (apart : endConcerned config target.publicKey end_ = false)
    (inhabited : ∀ id, end_ = .group id → memberlessGroup config id = false) (ip : Ipv4Addr) :
    blurs ((target.removal config).apply config) end_ ip =
      blurs (config.withoutPeer target.publicKey) end_ ip := by
  cases end_ with
  | any value => rfl
  | member other => rfl
  | subnet subnet => rfl
  | service id =>
      rw [blurs, removal_findRecord apart]
      rfl
  | group id =>
      rw [blurs, removal_findGroup unnamed apart (inhabited id rfl), blurs]
      have groups : (config.withoutPeer target.publicKey).acl.groups = config.acl.groups := rfl
      rw [groups]
      cases config.acl.groups.find? (fun group => group.id = id) with
      | none => rfl
      | some group =>
          simp only [Option.map_some, Option.any_some, AclGroup.withoutMember, List.all_filter]
          congr 1
          funext member
          by_cases same : member = target.publicKey
          · subst same
            simp [withoutNetworks_withoutPeer]
          · simp only [same, ne_eq, not_false_eq_true, decide_true, Bool.not_true, Bool.false_or]
            rfl

/-- A rule that is kept admits what it admits without the member. -/
theorem ruleAdmits_removal (detached : Detached config target) {rule : AclRule}
    (listed : rule ∈ config.acl.rules)
    (apart : ruleConcerned config target.publicKey rule = false) (packet : PacketInfo) :
    ruleAdmits ((target.removal config).apply config) packet rule =
      ruleAdmits (config.withoutPeer target.publicKey) packet rule := by
  have unnamed : pairsNamed config target = false := by
    cases named : pairsNamed config target with
    | false => rfl
    | true =>
        obtain ⟨ip, own, denied⟩ := pairsNamed_iff.mp named
        have concerned := (detached.pairsAlone ip own denied).2.2 rule listed
        rw [apart] at concerned
        cases concerned
  have inhabited := detached.noMemberless rule listed apart
  obtain ⟨source, destination⟩ := Bool.or_eq_false_iff.mp apart
  have sourceInhabited := fun id same => inhabited id (.inl same)
  have destinationInhabited := fun id same => inhabited id (.inr same)
  rw [ruleAdmits, denotes_removal unnamed source sourceInhabited,
    blurs_removal unnamed source sourceInhabited,
    denotes_removal unnamed destination destinationInhabited,
    blurs_removal unnamed destination destinationInhabited]
  rfl

/-- The written configuration decides by the clauses that are kept. -/
theorem action_removal (detached : Detached config target) {policy : AclPolicy}
    (compiled : AclPolicy.compile ((target.removal config).apply config) = .ok policy)
    (packet : PacketInfo) :
    ((target.removal config).apply config).action packet =
      some (FirstMatch.pick (admitsAfter config target packet) Clause.action config.acl.default
        config.clauses) := by
  have pairs : legacyDenied ((target.removal config).apply config) packet =
      config.acl.deny.any (fun pair => Clause.kept config target (.inl pair) &&
        pairHolds (config.withoutPeer target.publicKey) packet pair) :=
    removal_deny_any (pairHolds (config.withoutPeer target.publicKey) packet)
      (pairHolds_orderPair _ packet)
  have enabled : ((target.removal config).apply config).acl.enabledRules =
      config.acl.enabledRules.filter (fun rule => Clause.kept config target (.inr rule)) := by
    rw [AclConfig.enabledRules, removal_rules detached, List.filter_comm]
    rfl
  have admits : FirstMatch.pick (ruleAdmits ((target.removal config).apply config) packet)
        AclRule.action config.acl.default
        (config.acl.enabledRules.filter (fun rule => Clause.kept config target (.inr rule))) =
      FirstMatch.pick (ruleAdmits (config.withoutPeer target.publicKey) packet)
        AclRule.action config.acl.default
        (config.acl.enabledRules.filter (fun rule => Clause.kept config target (.inr rule))) := by
    refine FirstMatch.pick_congr _ _ _ (fun rule member => ?_)
    obtain ⟨enabled, left⟩ := List.mem_filter.mp member
    exact ruleAdmits_removal detached (List.mem_filter.mp enabled).1
      (by simpa [Clause.kept] using left) packet
  rw [action_eq compiled, pairs, removal_default detached, enabled, admits,
    ← FirstMatch.pick_guarded]
  have clauses := pick_clauses
    (fun pair => Clause.kept config target (.inl pair) &&
      pairHolds (config.withoutPeer target.publicKey) packet pair)
    (fun rule => Clause.kept config target (.inr rule) &&
      ruleAdmits (config.withoutPeer target.publicKey) packet rule)
    (admitsAfter config target packet) (fun _ => rfl) (fun _ => rfl) config
  exact congrArg some clauses.symm

/-! ### What is gone -/

theorem removal_pairsGone (config : Config) (target : PeerConfig) :
    ∀ pair ∈ ((target.removal config).apply config).acl.deny, ∀ ip ∈ target.virtualIp,
      pair.1 ≠ ip ∧ pair.2 ≠ ip := by
  intro pair listed ip own
  have left : Clause.kept config target (.inl pair) = true := by
    cases named : pairsNamed config target with
    | false =>
        rw [removal_acl_unnamed named] at listed
        exact kept_of_unnamed named listed
    | true =>
        rw [removal_acl_named named] at listed
        obtain ⟨ordered, member, rfl⟩ := List.mem_map.mp (SortDedup.mem_sortDedup _ |>.mp listed)
        rw [kept_orderPair]
        exact (List.mem_filter.mp member).2
  have found : target.virtualIp = some ip := own
  simpa [Clause.kept, found] using left

theorem removal_membersGone (config : Config) (target : PeerConfig) :
    ∀ group ∈ ((target.removal config).apply config).acl.groups,
      target.publicKey ∉ group.members := by
  intro group listed member
  cases named : pairsNamed config target with
  | true =>
      rw [removal_acl_named named] at listed
      cases listed
  | false =>
      rw [removal_acl_unnamed named] at listed
      obtain ⟨old, _, rfl⟩ := List.mem_map.mp (List.mem_filter.mp listed).1
      simpa using (List.mem_filter.mp member).2

theorem removal_targetsGone (config : Config) (target : PeerConfig) :
    ∀ rule ∈ ((target.removal config).apply config).acl.rules,
      rule.source ≠ .member target.publicKey ∧ rule.destination ≠ .member target.publicKey := by
  intro rule listed
  cases named : pairsNamed config target with
  | true =>
      rw [removal_acl_named named] at listed
      cases listed
  | false =>
      rw [removal_acl_unnamed named] at listed
      have apart := (codeKeeps_iff.mp (List.mem_filter.mp listed).2).1
      obtain ⟨source, destination⟩ := Bool.or_eq_false_iff.mp apart
      refine ⟨?_, ?_⟩
      · intro same
        simp [endConcerned, same] at source
      · intro same
        simp [endConcerned, same] at destination

theorem removal_recordsGone (config : Config) (target : PeerConfig) :
    ∀ record ∈ ((target.removal config).apply config).dnsRecords,
      record.member ≠ some (.key target.publicKey) ∧
        record.under ≠ some (.key target.publicKey) := by
  intro record listed
  have apart : record.refersTo target.publicKey = false := by
    have left := (List.mem_filter.mp listed).2
    simpa [PeerConfig.removal] using left
  simpa [DnsRecordConfig.refersTo] using apart

/-! ### What is kept -/

/-- The groups that still have members are kept, unless the section is rewritten. -/
theorem removal_groups (unnamed : pairsNamed config target = false)
    (distinct : (config.acl.groups.map AclGroup.id).Nodup) :
    ((config.acl.groups.map (AclGroup.withoutMember target.publicKey)).filter
        (fun group => group.members ≠ [])).Sublist
      ((target.removal config).apply config).acl.groups := by
  -- ids are distinct, so no other group takes this one along
  have left : ∀ group ∈ config.acl.groups.map (AclGroup.withoutMember target.publicKey),
      group.members ≠ [] → group.id ∉ config.acl.groupsLeftEmpty target.publicKey := by
    intro group listed some gone
    obtain ⟨old, member, rfl⟩ := List.mem_map.mp listed
    obtain ⟨other, empty, same⟩ := List.mem_map.mp gone
    obtain ⟨listedToo, none⟩ := List.mem_filter.mp empty
    obtain rfl := List.inj_on_of_nodup_map distinct listedToo member same
    exact some (by simpa using none)
  have both : (config.acl.groups.map (AclGroup.withoutMember target.publicKey)).filter
        (fun group => group.members ≠ []) =
      (((target.removal config).apply config).acl.groups).filter
        (fun group => group.members ≠ []) := by
    rw [removal_acl_unnamed unnamed, AclConfig.withoutMember, List.filter_filter]
    refine List.filter_congr (fun group listed => ?_)
    rw [Bool.eq_iff_iff]
    simp only [Bool.and_eq_true, decide_eq_true_eq]
    constructor
    · exact fun some => ⟨some, left group listed some⟩
    · exact fun kept => kept.1
  rw [both]
  exact List.filter_sublist

/-! ### The removal as a whole -/

/-- Where nothing else is gone from the section, the cleaning had nothing else to take along. -/
theorem detached_of_removesOnly
    (only : RemovesOnly config target ((target.removal config).apply config)) :
    Detached config target where
  pairsAlone ip own denied := by
    have named : pairsNamed config target = true := pairsNamed_iff.mpr ⟨ip, own, denied⟩
    have defaults := only.defaultKept
    have groups := only.groupsKept
    have rules := only.rulesKept
    rw [removal_acl_named named] at defaults groups rules
    refine ⟨defaults.symm, ?_, ?_⟩
    · have none := List.filter_eq_nil_iff.mp (List.sublist_nil.mp groups)
      intro group listed
      simpa using none _ (List.mem_map_of_mem listed)
    · have none := List.filter_eq_nil_iff.mp (List.sublist_nil.mp rules)
      intro rule listed
      simpa using none rule listed
  noMemberless rule listed apart := by
    have member := only.rulesKept.subset (List.mem_filter.mpr ⟨listed, by simp [apart]⟩)
    cases named : pairsNamed config target with
    | true =>
        rw [removal_acl_named named] at member
        cases member
    | false =>
        rw [removal_acl_unnamed named] at member
        exact (codeKeeps_iff.mp (List.mem_filter.mp member).2).2

/-- The groups that still have members are kept. -/
theorem removal_groupsKept (detached : Detached config target)
    (distinct : (config.acl.groups.map AclGroup.id).Nodup) :
    ((config.acl.groups.map (AclGroup.withoutMember target.publicKey)).filter
        (fun group => group.members ≠ [])).Sublist
      ((target.removal config).apply config).acl.groups := by
  cases named : pairsNamed config target with
  | false => exact removal_groups named distinct
  | true =>
      obtain ⟨ip, own, denied⟩ := pairsNamed_iff.mp named
      have empty := (detached.pairsAlone ip own denied).2.1
      have none : (config.acl.groups.map (AclGroup.withoutMember target.publicKey)).filter
          (fun group => group.members ≠ []) = [] := by
        rw [List.filter_eq_nil_iff]
        intro group listed
        obtain ⟨old, member, rfl⟩ := List.mem_map.mp listed
        simp [empty old member]
      rw [none]
      exact List.nil_sublist _

end

/-- A removal that succeeds touches nothing but what concerns the member exactly when nothing else
depends on it. -/
theorem removePeer_removesOnly_iff (checked : ValidConfig) {selector : Selector}
    {target : PeerConfig} {removed : RemovedPeer} {written : Config}
    (found : findPeer checked.config selector = .ok target)
    (done : removePeer checked.config selector = .ok (removed, written)) :
    RemovesOnly checked.config target written ↔ Unentangled checked.config target := by
  obtain ⟨same, foundToo, _, rfl, valid⟩ := removePeer_ok done
  obtain rfl : target = same := Except.ok.inj (found.symm.trans foundToo)
  obtain ⟨policy, compiled⟩ := checked.policy_exists
  obtain ⟨after, compiledAfter⟩ := checkPolicy_ok.mp
    (Config.validate_ok.mp valid).2.2.2.2.2.2.2.2.2
  -- both policies pick from the same clauses
  have agree (detached : Detached checked.config target) (packet : PacketInfo) :
      ((target.removal checked.config).apply checked.config).action packet =
          checked.config.action packet ↔ ¬ Shifted checked.config target packet := by
    rw [action_removal detached compiledAfter, action_clauses compiled, Option.some.injEq, Shifted,
      ← FirstMatch.pick_ne_iff_splits, not_not, eq_comm]
  constructor
  · intro only
    have detached := detached_of_removesOnly only
    exact ⟨detached, fun packet outside =>
      (agree detached packet).mp (only.decisionsKept packet outside)⟩
  · intro unentangled
    have detached := unentangled.toDetached
    have rules := removal_rules detached
    exact {
      peersGone := fun peer listed => of_decide_eq_true (List.mem_filter.mp listed).2
      pairsGone := removal_pairsGone _ _
      membersGone := removal_membersGone _ _
      targetsGone := removal_targetsGone _ _
      recordsGone := removal_recordsGone _ _
      peersKept := rfl
      defaultKept := removal_default detached
      groupsKept := removal_groupsKept detached checked.groupIds_nodup
      rulesKept := rules ▸ List.Sublist.refl _
      decisionsKept := fun packet outside =>
        (agree detached packet).mpr (unentangled.unshifted packet outside) }

/-! ### A denied pair beside rules -/

/-- Alice, Bob and Carol: Bob may reach Carol and nothing else is allowed, and a pair from earlier
versions keeps Alice and Bob apart. -/
def pairBesideRules : Config where
  interface := { address := .slash24 0x0a070001 }
  peers := [
    { name := some "alice", publicKey := ⟨1⟩, allowedIps := [Ipv4Net.host 0x0a070002] },
    { name := some "bob", publicKey := ⟨2⟩, allowedIps := [Ipv4Net.host 0x0a070003] },
    { name := some "carol", publicKey := ⟨3⟩, allowedIps := [Ipv4Net.host 0x0a070004] }]
  acl := {
    deny := [(0x0a070002, 0x0a070003)]
    default := .deny
    rules := [{
      id := "bob-carol"
      action := .allow
      source := .member ⟨2⟩
      destination := .member ⟨3⟩ }] }

/-- What is written when Alice is removed. -/
def pairRemoved : Config :=
  { pairBesideRules with peers := pairBesideRules.peers.drop 1, acl := {} }

/-- With Alice the default and the rule go, and everything is allowed. -/
theorem removePeer_dropsRules :
    pairBesideRules.validate = .ok () ∧
      ¬ ∀ selector target removed written, findPeer pairBesideRules selector = .ok target →
        removePeer pairBesideRules selector = .ok (removed, written) →
        RemovesOnly pairBesideRules target written := by
  refine ⟨by decide, fun all => ?_⟩
  have found : findPeer pairBesideRules (.name "alice") = .ok
      { name := some "alice", publicKey := ⟨1⟩, allowedIps := [Ipv4Net.host 0x0a070002] } := by
    decide
  have done : removePeer pairBesideRules (.name "alice") =
      .ok ({ display := "alice", publicKey := ⟨1⟩ }, pairRemoved) := by
    decide
  have only := all _ _ _ _ found done
  have kept : AclAction.allow = AclAction.deny := only.defaultKept
  cases kept

def carolPeer : PeerConfig where
  name := some "carol"
  publicKey := ⟨3⟩
  allowedIps := [Ipv4Net.host 0x0a070004]

/-- What is written when Carol is removed. -/
def carolRemoved : Config :=
  { pairBesideRules with
    peers := pairBesideRules.peers.take 2
    acl := { deny := [(0x0a070002, 0x0a070003)], default := .deny } }

/-- The characterisation, at the removal of Carol. -/
theorem removePeer_removesOnly_iff_carol :
    RemovesOnly pairBesideRules carolPeer carolRemoved ↔
      Unentangled pairBesideRules carolPeer := by
  have found : findPeer pairBesideRules (.name "carol") = .ok carolPeer := by decide
  have done : removePeer pairBesideRules (.name "carol") =
      .ok ({ display := "carol", publicKey := ⟨3⟩ }, carolRemoved) := by
    decide
  exact removePeer_removesOnly_iff ⟨pairBesideRules, by decide⟩ found done

end PeerCove
